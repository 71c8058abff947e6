import Mathlib.Data.List.DropRight
import ChatClient.Proofs.Framing

/-!
# Events from runs of lines

Empty lines cut a stream of lines into runs. A run says what its `data` fields say, joined by line
feeds, and nothing if it has none. The reader goes through the lines one by one and keeps the fields
of the run that it is in; what it gives is what the runs say.

A writer puts each line of a payload into a `data` field and ends the payload with empty lines. What
it writes is read back, whatever comments and other fields stand in between.
-/

namespace ChatClient.Event

/-! ## Fields -/

/-- The text of a line before its first colon. -/
def fieldName (line : List Char) : List Char := line.takeWhile (· != ':')

/-- The text of a line behind its first colon, without a space at its beginning. -/
def fieldValue (line : List Char) : List Char :=
  let value := (line.dropWhile (· != ':')).tail
  if value.head? = some ' ' then value.tail else value

/-- The values of the `data` fields among some lines. -/
def dataValues (run : List (List Char)) : List (List Char) :=
  (run.filter fun line => fieldName line = "data".toList).map fieldValue

/-- Texts joined by line feeds, if there are any. -/
def joined? : List (List Char) → Option String
  | [] => none
  | values => some (String.ofList (['\n'].intercalate values))

/-- What a run of lines says. -/
def said? (run : List (List Char)) : Option String := joined? (dataValues run)

/-- The line of a `data` field is told by its name. -/
theorem dataOf?_eq (line : List Char) :
    dataOf? line = if fieldName line = "data".toList then some (fieldValue line) else none := by
  split
  · next hname =>
    have hsplit : line = "data".toList ++ line.dropWhile (· != ':') := by
      rw [← hname, fieldName, List.takeWhile_append_dropWhile]
    unfold fieldValue
    cases hrest : line.dropWhile (· != ':') with
    | nil =>
        rw [hsplit, hrest]
        rfl
    | cons c rest =>
        -- what stops the search for a colon is a colon
        have hc : c = ':' := by
          have := List.head?_dropWhile_not (· != ':') line
          simpa [hrest] using this
        rw [hsplit, hrest, hc]
        cases rest with
        | nil => rfl
        | cons d rest =>
            by_cases hd : d = ' '
            · subst hd
              rfl
            · simp [dataOf?, hd]
  · next hname =>
    unfold dataOf?
    split
    · exact absurd rfl hname
    · exact absurd rfl hname
    · rfl

theorem dataValues_cons (line : List Char) (run : List (List Char)) :
    dataValues (line :: run) = (dataOf? line).toList ++ dataValues run := by
  rw [dataOf?_eq, dataValues, List.filter_cons]
  by_cases hname : fieldName line = "data".toList
  · rw [if_pos hname, if_pos (decide_eq_true hname)]
    rfl
  · rw [if_neg hname, if_neg (by rwa [decide_eq_true_eq])]
    rfl

theorem joinWith_lineFeed (values : List (List Char)) :
    Text.joinWith "\n" (values.map String.ofList) = String.ofList (['\n'].intercalate values) := by
  induction values with
  | nil => rfl
  | cons value values ih =>
      cases values with
      | nil => rw [List.intercalate_singleton]; rfl
      | cons next values =>
          rw [List.intercalate_cons_cons, String.ofList_append, ← ih, String.ofList_append]
          rfl

theorem payload_eq (values : List (List Char)) :
    payload (values.map String.ofList) = (joined? values).toList := by
  cases values with
  | nil => rfl
  | cons value values => exact congrArg (fun s => [s]) (joinWith_lineFeed (value :: values))

/-! ## Runs -/

/-- The longest runs between empty lines, where lines are looked at without the carriage returns at
their ends. -/
def runsOf (lines : List String) : List (List (List Char)) :=
  (lines.map fun line => line.toList.rdropWhile (· == '\r')).splitOnP List.isEmpty

theorem runsOf_cons_empty {line : String} (h : dropReturns line = []) (lines : List String) :
    runsOf (line :: lines) = [] :: runsOf lines := by
  rw [runsOf, List.map_cons, List.splitOnP_cons_eq_if_modifyHead, if_pos]
  · rfl
  · exact List.isEmpty_iff.mpr h

theorem runsOf_cons {line : String} (h : dropReturns line ≠ []) {lines : List String}
    {run : List (List Char)} {runs : List (List (List Char))} (hruns : runsOf lines = run :: runs) :
    runsOf (line :: lines) = (dropReturns line :: run) :: runs := by
  rw [runsOf, List.map_cons, List.splitOnP_cons_eq_if_modifyHead, if_neg, ← runsOf, hruns]
  · rfl
  · exact fun hempty => h (List.isEmpty_iff.mp hempty)

theorem step_nonempty (data : List String) {line : String} (h : dropReturns line ≠ []) :
    step data line = (data ++ (dataOf? (dropReturns line)).toList.map String.ofList, []) := by
  unfold step
  split
  · next hempty => exact absurd hempty h
  · split
    · next value hvalue => rw [hvalue]; rfl
    · next hvalue => rw [hvalue]; simp

/-- **What is read is what the runs say.** The fields that have been gathered before belong to the
first run. -/
theorem payloadsFrom_eq (values : List (List Char)) (lines : List String) :
    ∃ run runs, runsOf lines = run :: runs ∧
      payloadsFrom (values.map String.ofList) lines =
        (joined? (values ++ dataValues run)).toList ++ runs.filterMap said? := by
  induction lines generalizing values with
  | nil =>
      refine ⟨[], [], rfl, ?_⟩
      rw [List.filterMap_nil, List.append_nil, show dataValues [] = [] from rfl, List.append_nil]
      exact payload_eq values
  | cons line lines ih =>
      rw [payloadsFrom_cons]
      by_cases hline : dropReturns line = []
      · -- the run ends, and the next one begins without any fields
        obtain ⟨run, runs, hruns, hread⟩ := ih []
        refine ⟨[], run :: runs, by rw [runsOf_cons_empty hline, hruns], ?_⟩
        have hstep : step (values.map String.ofList) line =
            ([], payload (values.map String.ofList)) := by rw [step, hline]
        rw [hstep, payload_eq, show dataValues [] = [] from rfl, List.append_nil]
        refine congrArg (_ ++ ·) (hread.trans ?_)
        rw [List.nil_append, List.filterMap_cons, said?]
        cases joined? (dataValues run) <;> rfl
      · obtain ⟨run, runs, hruns, hread⟩ := ih (values ++ (dataOf? (dropReturns line)).toList)
        refine ⟨dropReturns line :: run, runs, runsOf_cons hline hruns, ?_⟩
        rw [step_nonempty _ hline, List.nil_append, ← List.map_append, hread, dataValues_cons,
          List.append_assoc]

theorem payloads_eq_runs (lines : List String) : payloads lines = (runsOf lines).filterMap said? := by
  obtain ⟨run, runs, hruns, hread⟩ := payloadsFrom_eq [] lines
  rw [payloads_eq, hruns, List.filterMap_cons, said?]
  refine hread.trans ?_
  rw [List.nil_append]
  cases joined? (dataValues run) <;> rfl

/-! ## What a writer writes -/

/-- The lines of a payload: its parts between line feeds. -/
def linesOf (payload : String) : List (List Char) := payload.toList.splitOn '\n'

/-- A payload as it is written: a `data` field for each of its lines, and then an empty line and
`more` further ones. -/
def written (payload : String) (more : Nat) : List String :=
  (linesOf payload).map (fun line => String.ofList ("data: ".toList ++ line)) ++
    List.replicate (more + 1) ""

/-- A line that is not empty and no `data` field: it starts with a colon or names another field. -/
def isAside (line : String) : Bool :=
  let line := line.toList.rdropWhile (· == '\r')
  !line.isEmpty && (line.head? == some ':' || fieldName line != "data".toList)

theorem step_aside (data : List String) {line : String} (h : isAside line = true) :
    step data line = (data, []) := by
  obtain ⟨hempty, hname⟩ : dropReturns line ≠ [] ∧
      ((dropReturns line).head? = some ':' ∨ fieldName (dropReturns line) ≠ "data".toList) := by
    simpa [isAside, dropReturns, List.rdropWhile] using h
  rw [step_nonempty data hempty, dataOf?_eq, if_neg]
  · simp
  · rintro hdata
    rcases hname with hcolon | hname
    · -- the name in front of a colon at the start is empty
      obtain ⟨rest, hrest⟩ := List.head?_eq_some_iff.mp hcolon
      rw [hrest] at hdata
      exact absurd hdata (by simp [fieldName])
    · exact hname hdata

/-- Asides make no difference. -/
theorem payloadsFrom_filter (data lines : List String) :
    payloadsFrom data (lines.filter fun line => !isAside line) = payloadsFrom data lines := by
  induction lines generalizing data with
  | nil => rfl
  | cons line lines ih =>
      rw [payloadsFrom_cons]
      by_cases haside : isAside line = true
      · rw [List.filter_cons_of_neg (by simp [haside]), ih, step_aside data haside, List.nil_append]
      · rw [List.filter_cons_of_pos (by simp [haside]), payloadsFrom_cons, ih]

theorem payloadsFrom_empties (more : Nat) (lines : List String) :
    payloadsFrom [] (List.replicate more "" ++ lines) = payloadsFrom [] lines := by
  induction more with
  | zero => rfl
  | succ more ih =>
      rw [List.replicate_succ, List.cons_append, payloadsFrom_cons]
      exact ih

theorem payloadsFrom_fields (data : List String) {values : List (List Char)}
    (h : ∀ value ∈ values, value.getLast? ≠ some '\r') (lines : List String) :
    payloadsFrom data
        (values.map (fun value => String.ofList ("data: ".toList ++ value)) ++ lines) =
      payloadsFrom (data ++ values.map String.ofList) lines := by
  induction values generalizing data with
  | nil => rw [List.map_nil, List.map_nil, List.nil_append, List.append_nil]
  | cons value values ih =>
      obtain ⟨hvalue, hvalues⟩ := List.forall_mem_cons.mp h
      rw [List.map_cons, List.cons_append, payloadsFrom_cons, step_data data hvalue, ih _ hvalues,
        List.nil_append, List.append_assoc, List.map_cons, List.singleton_append]

/-- A payload that is written is read first. -/
theorem payloadsFrom_written {p : String} (h : ∀ line ∈ linesOf p, line.getLast? ≠ some '\r')
    (more : Nat) (lines : List String) :
    payloadsFrom [] (written p more ++ lines) = p :: payloadsFrom [] lines := by
  have hjoined : joined? (linesOf p) = some p := by
    have hall : ['\n'].intercalate (linesOf p) = p.toList := List.intercalate_splitOn '\n'
    cases hlines : linesOf p with
    | nil => exact absurd hlines (List.splitOnP_ne_nil _ _)
    | cons line rest => rw [joined?, ← hlines, hall, String.ofList_toList]; simp
  have hend : step ((linesOf p).map String.ofList) "" = ([], [p]) := by
    show ([], payload ((linesOf p).map String.ofList)) = _
    rw [payload_eq, hjoined]
    rfl
  rw [written, List.append_assoc, payloadsFrom_fields [] h, List.nil_append, List.replicate_succ,
    List.cons_append, payloadsFrom_cons, hend, payloadsFrom_empties, List.singleton_append]

/--
**Events are the runs of lines that have data, and framing is undone.**

What is read of some lines is what their runs between empty lines say. Payloads none of whose lines
ends in a carriage return are read as they were, when they are written line by line with one or more
empty lines behind each, whatever comments and other fields stand in between.
-/
theorem payloads_exact :
    (∀ lines, payloads lines = (runsOf lines).filterMap said?) ∧
      ∀ (events : List (String × Nat)) (lines : List String),
        (∀ e ∈ events, ∀ line ∈ linesOf e.1, line.getLast? ≠ some '\r') →
        (lines.filter fun line => !isAside line) = events.flatMap (fun e => written e.1 e.2) →
        payloads lines = events.map (·.1) := by
  refine ⟨payloads_eq_runs, ?_⟩
  intro events lines hlines hwritten
  rw [payloads_eq, ← payloadsFrom_filter, hwritten]
  clear hwritten
  induction events with
  | nil => rfl
  | cons e events ih =>
      obtain ⟨he, hevents⟩ := List.forall_mem_cons.mp hlines
      rw [List.flatMap_cons, payloadsFrom_written he, ih hevents, List.map_cons]

/-- A payload of two lines, of which the second is empty, and an empty one, among comments and other
fields. -/
theorem payloads_exact_asides :
    let events := [("one: 1\n", 1), ("", 0)]
    let lines := [": hello", "data: one: 1", "event: note\r", "data: ", "", "id", "", "data: ", "",
      "retry: 5"]
    (∀ e ∈ events, ∀ line ∈ linesOf e.1, line.getLast? ≠ some '\r') ∧
      (lines.filter fun line => !isAside line) = events.flatMap (fun e => written e.1 e.2) ∧
      payloads lines = ["one: 1\n", ""] := by
  intro events lines
  have hlines : ∀ e ∈ events, ∀ line ∈ linesOf e.1, line.getLast? ≠ some '\r' := by decide
  have hwritten : (lines.filter fun line => !isAside line) =
      events.flatMap (fun e => written e.1 e.2) := by decide
  exact ⟨hlines, hwritten, payloads_exact.2 events lines hlines hwritten⟩

end ChatClient.Event
