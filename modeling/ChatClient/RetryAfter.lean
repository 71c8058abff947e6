import ChatClient.MailDate
import ChatClient.Reading

/-!
# How long a service asks to wait

A failed answer may say when to try again: in a `Retry-After` header, as a number of
seconds or as a date, or for Gemini in the details of the error. What comes out is never
negative and always a number. A date can be one that nothing can be computed from, which is
not the same as no date: it is a failure.
-/

namespace ChatClient

namespace RetryAfter

/-- A float that is at least zero, and so a number. -/
def nonNegative? (x : Float) : Option Float := if x ≥ 0.0 then some x else none

/-- A wait that a clock says is over is none at all. -/
def atLeastZero (x : Float) : Float := if x > 0.0 then x else 0.0

/-- The wait up to the date that a text writes. A text that is no date asks for none. A date
without a zone says the time of the clock that the program runs by, and this is the wait where
that clock keeps universal time. -/
def ofDate (now : Float) (cs : List Char) : Except Outside (Option Float) :=
  match MailDate.moment cs with
  | .ok seconds => .ok (some (atLeastZero ((Number.int seconds).toFloat - now)))
  | .error .noDate => .ok none
  | .error .tooLarge => .error .overflow
  | .error .firstDay => .error .badValue

/-- The wait that the value of a header asks for at a moment. -/
def ofValue (now : Float) (value : String) : Except Outside (Option Float) :=
  match Text.trim value.toList with
  | [] => .ok none
  | cs =>
    match Decimal.ofText? cs with
    | some seconds => .ok (nonNegative? seconds)
    | none => ofDate now cs

/-- The value of the first `Retry-After` header, in whatever letter case its name is
written. -/
def header? (headers : Headers) : Option String :=
  (headers.find? fun (name, _) => Text.lower name == "retry-after").map (·.2)

/-- The wait that the `Retry-After` header asks for. -/
def ofHeaders (now : Float) (headers : Headers) : Except Outside (Option Float) :=
  match header? headers with
  | some value => ofValue now value
  | none => .ok none

/-- The seconds that a text without a unit writes: digits of any script, perhaps with a
fraction. -/
def seconds? (cs : List Char) : Option Float :=
  let (whole, fraction) := Decimal.spanDigits (Decimal.asciiDigits cs)
  let number (fraction : List Char) : Float :=
    Decimal.Numeral.toFloat ⟨false, Text.ofDigits (whole ++ fraction), -fraction.length⟩
  if whole = [] then none
  else
    match fraction with
    | [] => some (number [])
    | '.' :: ds => if ds ≠ [] ∧ ds.all Text.isAsciiDigit then some (number ds) else none
    | _ => none

/-- The seconds of a duration, which ends in an `s`. A line feed may follow. -/
def duration? (s : String) : Option Float :=
  let cs := s.toList.reverse
  match if cs.head? = some '\n' then cs.tail else cs with
  | 's' :: rest => seconds? rest.reverse
  | _ => none

/-- The wait that one detail of an error asks for, if it is information about retries. -/
def ofDetail? (detail : Json) : Option Float :=
  match detail.field? "@type", detail.field? "retryDelay" with
  | some (.text kind), some (.text delay) =>
    if Text.occurs "RetryInfo" kind then duration? delay else none
  | _, _ => none

/-- The wait that the details of an error ask for. -/
def ofDetails? (body : Json) : Option Float :=
  match (errorObject body).get? "details" with
  | some (.list details) => details.findSome? ofDetail?
  | _ => none

end RetryAfter

/-- The wait that a failed answer asks for. -/
def Adapter.retryAfter (a : Adapter) (now : Float) (body : Json) (headers : Headers) :
    Except Outside (Option Float) :=
  match a.provider with
  | .groq => RetryAfter.ofHeaders now headers
  | .gemini =>
    match RetryAfter.ofDetails? body with
    | some seconds => .ok (some seconds)
    | none => RetryAfter.ofHeaders now headers

end ChatClient
