import ChatClient.Decimal.Numeral
import ChatClient.Text.Blank
import ChatClient.Text.Case
import ChatClient.Text.Search

/-!
# Dates in mail style

Dates such as `Tue, 14 Nov 2023 22:13:20 GMT`, in the liberal reading of mail headers: the
day of the week may be missing, the parts of the date may be joined by hyphens, the year
may have two digits, day and month may change places, and the seconds may be missing. A
date without a zone, or with the zone `-0000`, is one in the zone of the clock that the program
runs by, which is taken to be universal time.

Not every text is a date, and not every date has a moment: `Fault` says why there is none.
-/

namespace ChatClient.MailDate

/-- A date and time of day. -/
structure Stamp where
  year : Int
  month : Nat
  day : Int
  hour : Int
  minute : Int
  second : Int
  /-- The distance of its zone from universal time in seconds, if it has a zone. -/
  zone : Option Int
  deriving DecidableEq

/-- Why there is no moment for a text. -/
inductive Fault where
  /-- It is no date, or a part of it is out of its range. -/
  | noDate
  /-- A part of it is beyond the numbers that dates are computed with. -/
  | tooLarge
  /-- It is the first day of the calendar, and has no zone. -/
  | firstDay
  deriving DecidableEq

/-! ## The calendar -/

/-- Whether a year has a leap day. -/
def isLeap (year : Int) : Bool := year % 4 == 0 && (year % 100 != 0 || year % 400 == 0)

/-- The number of days of a month. -/
def daysIn (year : Int) (month : Nat) : Int :=
  match month with
  | 2 => if isLeap year then 29 else 28
  | 4 | 6 | 9 | 11 => 30
  | _ => 31

/-- The days from the start of year 1 to the start of a year. -/
def daysBeforeYear (year : Int) : Int :=
  let y := year - 1
  y * 365 + y / 4 - y / 100 + y / 400

/-- The days from the start of a year to the start of a month. -/
def daysBeforeMonth (year : Int) (month : Nat) : Int :=
  ((List.range (month - 1)).map fun m => daysIn year (m + 1)).foldl (· + ·) 0

/-- The days from the start of year 1 to the start of 1970. -/
def epochDays : Int := 719162

/-- Whether the parts of a stamp lie in their ranges. -/
def Stamp.isValid (s : Stamp) : Bool :=
  1 ≤ s.year && s.year ≤ 9999 && 1 ≤ s.month && s.month ≤ 12 &&
    1 ≤ s.day && s.day ≤ daysIn s.year s.month && 0 ≤ s.hour && s.hour < 24 &&
    0 ≤ s.minute && s.minute < 60 && 0 ≤ s.second && s.second < 60

/-- The parts of a stamp that are computed with in 32 bits. -/
def Stamp.parts (s : Stamp) : List Int := [s.year, s.day, s.hour, s.minute, s.second]

/-- Whether a number fits in 32 bits. -/
def isSmall (n : Int) : Bool := -2147483648 ≤ n && n < 2147483648

/-- The number of days of a distance in time that is still computed with. -/
def maxDays : Int := 999999999

/-- A zone within a day of universal time. -/
def checkZone (zone : Int) : Except Fault Unit :=
  if zone / 86400 < -maxDays ∨ maxDays < zone / 86400 then .error .tooLarge
  else if -86400 < zone ∧ zone < 86400 then .ok ()
  else .error .noDate

/-- A stamp with every part in its range. The zone is looked at first, and the size of the
parts before their ranges. -/
def Stamp.check (s : Stamp) : Except Fault Unit := do
  s.zone.forM checkZone
  if !s.parts.all isSmall then throw .tooLarge
  if !s.isValid then throw .noDate

/-- The days from the start of 1970 to the day of a stamp. -/
def Stamp.days (s : Stamp) : Int :=
  daysBeforeYear s.year + daysBeforeMonth s.year s.month + (s.day - 1) - epochDays

/-- The seconds from the start of 1970 to a stamp. One without a zone says the time of the clock
that the program runs by, here universal time; its moment is looked for among those of the day
before as well, and the first day of the calendar has none. -/
def Stamp.seconds (s : Stamp) : Except Fault Int :=
  let clock := s.days * 86400 + s.hour * 3600 + s.minute * 60 + s.second
  match s.zone with
  | some zone => .ok (clock - zone)
  | none => if s.days = -epochDays then .error .firstDay else .ok clock

/-! ## The parts of a text -/

/-- The words of a text, between blanks. -/
def words (cs : List Char) : List (List Char) :=
  (cs.splitBy fun a b => Text.isBlank a == Text.isBlank b).filter fun w =>
    !(w.head?.map Text.isBlank).getD true

/-- The pieces of a text between the occurrences of a character. -/
def pieces (mark : Char) : List Char → List (List Char)
  | [] => [[]]
  | c :: cs =>
    if c = mark then [] :: pieces mark cs
    else
      match pieces mark cs with
      | p :: ps => (c :: p) :: ps
      | [] => [[c]]

/-- A text without a comma at its end. -/
def dropComma (cs : List Char) : List Char := if cs.getLast? = some ',' then cs.dropLast else cs

/-- The whole number that a word writes: a sign and digits of any script, with single
underscores between them, no more of them than a number may have. -/
def whole? (cs : List Char) : Option Int :=
  let (negative, ds) := Decimal.splitSign (Decimal.asciiDigits cs)
  (Decimal.dropUnderscores ds).bind fun ds =>
    if ds ≠ [] ∧ ds.all Text.isAsciiDigit ∧ ds.length ≤ Decimal.maxDigits then
      let n : Int := Text.ofDigits ds
      some (if negative then -n else n)
    else none

/-- A word in lower case. -/
def lowered (cs : List Char) : String := Text.lower (String.ofList cs)

/-- The days of the week, as dates abbreviate them. -/
def dayNames : List String := ["mon", "tue", "wed", "thu", "fri", "sat", "sun"]

/-- The months: first the short names, then the long ones. -/
def monthNames : List String :=
  ["jan", "feb", "mar", "apr", "may", "jun", "jul", "aug", "sep", "oct", "nov", "dec",
    "january", "february", "march", "april", "may", "june", "july", "august", "september",
    "october", "november", "december"]

/-- The number of a month, by its name or by its first letters. -/
def month? (cs : List Char) : Option Nat :=
  (monthNames.findIdx? (· == lowered cs)).map fun i => i % 12 + 1

/-- The zones that have names, in hours and minutes as one number. -/
def zoneNames : List (String × Int) := [
  ("UT", 0), ("UTC", 0), ("GMT", 0), ("Z", 0), ("AST", -400), ("ADT", -300), ("EST", -500),
  ("EDT", -400), ("CST", -600), ("CDT", -500), ("MST", -700), ("MDT", -600), ("PST", -800),
  ("PDT", -700)]

/-- The hours and minutes of a zone, by its name or as a number. A zone that is not known is
none, and neither is zero with a minus sign. -/
def zoneNumber? (name : String) : Option Int :=
  ((zoneNames.find? (·.1 == name)).map (·.2)).or
    ((whole? name.toList).filter fun n => !(n == 0 && name.toList.head? == some '-'))

/-- The distance of a zone from universal time in seconds. -/
def zoneSeconds? (cs : List Char) : Option Int :=
  (zoneNumber? (Text.upper (String.ofList cs))).map fun n =>
    let size : Int := (n.natAbs / 100 * 3600 + n.natAbs % 100 * 60 : Nat)
    if n < 0 then -size else size

/-- The words after the day of the week, if there is one. -/
def dropDayName : List (List Char) → List (List Char)
  | [] => []
  | w :: ws =>
    if w.getLast? = some ',' ∨ lowered w ∈ dayNames then ws
    else ((pieces ',' w).getLastD []) :: ws

/-- Words with a date joined by hyphens taken apart. -/
def splitHyphens : List (List Char) → List (List Char)
  | [date, time, zone] =>
    match pieces '-' date with
    | [a, b, c] => [a, b, c, time, zone]
    | _ => [date, time, zone]
  | ws => ws

/-- Where a zone that is joined to a time starts: at a plus sign, or else at a minus sign. -/
def zoneStart? (cs : List Char) : Option Nat :=
  (cs.findIdx? (· == '+')).or (cs.findIdx? (· == '-'))

/-- Words with the zone apart from the time; an empty zone if there is none. -/
def splitZone : List (List Char) → List (List Char)
  | [a, b, c, time] =>
    match zoneStart? time with
    | some (i + 1) => [a, b, c, time.take (i + 1), time.drop (i + 1)]
    | _ => [a, b, c, time, []]
  | ws => ws

/-- Hours, minutes and seconds; the seconds may be missing. Points may stand for colons. -/
def time? (cs : List Char) : Option (List Char × List Char × List Char) :=
  match pieces ':' cs with
  | [h, m] => some (h, m, ['0'])
  | [h, m, s] => some (h, m, s)
  | [w] =>
    match pieces '.' w with
    | [h, m] => some (h, m, ['0'])
    | [h, m, s] => some (h, m, s)
    | _ => none
  | _ => none

/-- A year of fewer than three digits lies between 1969 and 2068. -/
def fullYear (y : Int) : Int := if y < 100 then (if 68 < y then y + 1900 else y + 2000) else y

/-- The stamp of a date's five parts. -/
def ofParts? (day month year time zone : List Char) : Option Stamp := do
  if day = [] ∨ month = [] ∨ year = [] then none
  let (day, month) ←
    match month? month with
    | some m => some (day, m)
    | none => (month? day).map fun m => (month, m)
  let (year, time) :=
    match year.findIdx? (· == ':') with
    | some (_ + 1) => (time, year)
    | _ => (year, time)
  let year := dropComma year
  let (year, zone) :=
    match year.head? with
    | some c => if Text.isDigit c then (year, zone) else (zone, year)
    | none => ([], zone)
  let (h, m, s) ← time? (dropComma time)
  let y ← whole? year
  let d ← whole? (dropComma day)
  let h ← whole? h
  let m ← whole? m
  let s ← whole? s
  some { year := fullYear y, month, day := d, hour := h, minute := m, second := s,
         zone := zoneSeconds? zone }

/-- The stamp that a text writes. -/
def stamp? (cs : List Char) : Option Stamp :=
  match (splitZone (splitHyphens (dropDayName (words cs)))).take 5 with
  | [day, month, year, time, zone] => ofParts? day month year time zone
  | _ => none

/-- The date that a text writes. -/
def read (cs : List Char) : Except Fault Stamp :=
  match stamp? cs with
  | none => .error .noDate
  | some s => s.check.map fun () => s

/-- The seconds from the start of 1970 to the date that a text writes. -/
def moment (cs : List Char) : Except Fault Int := (read cs).bind Stamp.seconds

end ChatClient.MailDate
