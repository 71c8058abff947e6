import ChatClient.Text.Search

/-!
# Server-sent events

A stream of events is a stream of lines. The `data` fields of an event, joined by line
feeds, are its payload; an empty line ends the event. Comments and other fields do not
matter, nor does an event without data. The last event may lack its empty line.
-/

namespace ChatClient.Event

/-- The value of a `data` field, without the one space that may follow the colon. -/
def dataOf? (line : List Char) : Option (List Char) :=
  let value (cs : List Char) : List Char :=
    match cs with
    | ' ' :: rest => rest
    | cs => cs
  match line with
  | 'd' :: 'a' :: 't' :: 'a' :: [] => some []
  | 'd' :: 'a' :: 't' :: 'a' :: ':' :: rest => some (value rest)
  | _ => none

/-- A line without the carriage returns at its end. -/
def dropReturns (line : String) : List Char :=
  (line.toList.reverse.dropWhile (· == '\r')).reverse

/-- The payload of gathered data fields, if there are any. -/
def payload (data : List String) : List String :=
  if data.isEmpty then [] else [Text.joinWith "\n" data]

/-- The step on one line: the data fields gathered since the last event, and the payload
that the line completes. -/
def step (data : List String) (line : String) : List String × List String :=
  match dropReturns line with
  | [] => ([], payload data)
  | line =>
    match dataOf? line with
    | some value => (data ++ [String.ofList value], [])
    | none => (data, [])

/-- The payloads that some lines complete, and the data fields left over. -/
def scan (data : List String) : List String → List String × List String
  | [] => (data, [])
  | line :: lines =>
    let (data, ps) := step data line
    let (rest, qs) := scan data lines
    (rest, ps ++ qs)

/-- The payloads of a whole stream. -/
def payloads (lines : List String) : List String :=
  let (data, ps) := scan [] lines
  ps ++ payload data

/-- Where the lines are cut makes no difference. -/
theorem scan_append (data : List String) (as bs : List String) :
    scan data (as ++ bs) =
      ((scan (scan data as).1 bs).1, (scan data as).2 ++ (scan (scan data as).1 bs).2) := by
  induction as generalizing data with
  | nil => simp [scan]
  | cons l ls ih => simp [scan, ih]

end ChatClient.Event
