import ChatClient.Decimal.Numeral
import ChatClient.Json.Basic
import ChatClient.Text.Blank
import ChatClient.Text.Case
import ChatClient.Text.Search

/-!
# Decoding payloads

A payload is a JSON value of which some fields are known. Decoding reads those and ignores
all others; where fields are missing or have the wrong type it collects the path of each,
in the order of declaration. Numbers and truth values are read liberally.
-/

namespace ChatClient.Payload

/-- A step from a value to a part of it. -/
inductive Step where
  | field (name : String)
  | item (index : Nat)
  deriving DecidableEq

/-- The way to a part of a payload. -/
abbrev Path := List Step

/-- A path with points between its steps; the empty one is the payload itself. -/
def pathText (path : Path) : String :=
  if path.isEmpty then "<root>"
  else Text.joinWith "." (path.map fun
    | .field name => name
    | .item i => toString i)

/-- A value, or the paths of the parts that are not as they should be. -/
inductive Checked (α : Type) where
  | ok (a : α)
  | faulty (paths : List Path)

/-- Reads a JSON value as a value of some type. -/
abbrev Decoder (α : Type) := Json → Checked α

namespace Checked

/-- Applies a function to the value. -/
def map {α β : Type} (f : α → β) : Checked α → Checked β
  | ok a => ok (f a)
  | faulty ps => faulty ps

/-- Applies a function to a value; the faults of both count. -/
def ap {α β : Type} : Checked (α → β) → Checked α → Checked β
  | ok f, ok a => ok (f a)
  | ok _, faulty ps => faulty ps
  | faulty ps, ok _ => faulty ps
  | faulty ps, faulty qs => faulty (ps ++ qs)

instance : Applicative Checked where
  pure := ok
  map := map
  seq f a := ap f (a ())

@[simp] theorem map_ok {α β : Type} (f : α → β) (a : α) : f <$> ok a = ok (f a) := rfl

@[simp] theorem ok_seq_ok {α β : Type} (f : α → β) (a : α) : ok f <*> ok a = ok (f a) := rfl

/-- Faults of a part are faults of the whole, one step further. -/
def under {α : Type} (step : Step) : Checked α → Checked α
  | ok a => ok a
  | faulty ps => faulty (ps.map (step :: ·))

end Checked

/-- The value itself is not as it should be. -/
def bad {α : Type} : Checked α := .faulty [[]]

/-! ## Single values -/

/-- Only a text is a text. -/
def text : Decoder String
  | .text s => .ok s
  | _ => bad

/-- White space around the numerals of payloads: that of `Text.isBlank` without the
information separators. -/
def isNumeralSpace (c : Char) : Bool := Text.isBlank c && !(28 ≤ c.toNat && c.toNat ≤ 31)

/-- Goes on after a zero at the start of a numeral: more zeros say nothing, and underscores
among them do not matter. The numeral starts at the first other digit or at a minus sign; where
there is none, `last` is what stands before the end or the point. -/
def afterZeros (last : Char) : List Char → Option (List Char)
  | [] => some [last]
  | '.' :: cs => some (last :: '.' :: cs)
  | c :: cs =>
    if c = '0' ∨ c = '_' then afterZeros c cs
    else if c = '-' ∨ Text.isAsciiDigit c then some (c :: cs)
    else none

/-- A numeral without zeros at its start. -/
def dropZeros : List Char → Option (List Char)
  | [] => none
  | '0' :: cs => afterZeros '0' cs
  | c :: cs => if c = '-' ∨ Text.isAsciiDigit c then some (c :: cs) else none

/-- A numeral without a fraction of zeros. -/
def dropFraction (cs : List Char) : List Char :=
  match Text.cut? ['.'] cs with
  | some (whole, '0' :: zeros) => if zeros.all (· == '0') then whole else cs
  | _ => cs

/-- A numeral without its underscores, which stand one at a time and inside. -/
def dropUnderscores? (cs : List Char) : Option (List Char) :=
  if cs.head? = some '_' ∨ cs.getLast? = some '_' ∨ (Text.cut? ['_', '_'] cs).isSome then none
  else some (cs.filter (· != '_'))

/-- A minus sign or none, and digits that do not start with a zero unless it stands alone. -/
def plainWhole? (cs : List Char) : Option Int :=
  let (negative, ds) := match cs with
    | '-' :: ds => (true, ds)
    | ds => (false, ds)
  if ds ≠ [] ∧ ds.all Text.isAsciiDigit ∧ (ds.head? ≠ some '0' ∨ ds.length = 1) then
    some (if negative then -(Text.ofDigits ds : Int) else Text.ofDigits ds)
  else none

/-- The whole number that a text writes, with white space around it: perhaps a plus sign, zeros,
and then the digits after a minus sign or none, with single underscores between them and
perhaps a fraction of zeros. -/
def wholeOfText? (s : String) : Option Int := do
  let cs := Text.dropEndWhile isNumeralSpace (s.toList.dropWhile isNumeralSpace)
  let cs ← match cs with
    | '+' :: '-' :: _ => none
    | '+' :: cs => some cs
    | cs => some cs
  plainWhole? (← dropUnderscores? (dropFraction (← dropZeros cs)))

/-- A whole number: also a float without a fraction within 64 bits, a truth value, or a text
that writes a whole number. -/
def whole : Decoder Int
  | .int n => .ok n
  | .bool b => .ok (if b then 1 else 0)
  | .float x =>
    if x.isFinite then
      let b := Decimal.Binary.ofFloat x
      let n := b.truncate
      if b.isWhole ∧ -Int.pow 2 63 < n ∧ n < Int.pow 2 63 then .ok n else bad
    else bad
  | .text s =>
    match wholeOfText? s with
    | some n => .ok n
    | none => bad
  | _ => bad

/-- A truth value: also zero and one, and words for them in any letter case. -/
def flag : Decoder Bool
  | .bool b => .ok b
  | .int n => if n = 0 then .ok false else if n = 1 then .ok true else bad
  | .float x => if x == 0.0 then .ok false else if x == 1.0 then .ok true else bad
  | .text s =>
    let word := Text.lower s
    if word ∈ ["0", "off", "f", "false", "n", "no"] then .ok false
    else if word ∈ ["1", "on", "t", "true", "y", "yes"] then .ok true
    else bad
  | _ => bad

/-- Any object. -/
def object : Decoder Entries
  | .object entries => .ok entries
  | _ => bad

/-- An object whose entries are read in some way. -/
def fields {α : Type} (read : Entries → Checked α) : Decoder α
  | .object entries => read entries
  | _ => bad

/-! ## Lists and fields -/

/-- The items of a list from position `i` on. -/
def itemsFrom {α : Type} (item : Decoder α) : Nat → List Json → Checked (List α)
  | _, [] => .ok []
  | i, v :: vs =>
    (· :: ·) <$> (item v).under (.item i) <*> itemsFrom item (i + 1) vs

/-- A list of items of one type. -/
def listOf {α : Type} (item : Decoder α) : Decoder (List α)
  | .list vs => itemsFrom item 0 vs
  | _ => bad

/-- The value under the first of some names that is there, with that name. -/
def lookup? (entries : Entries) (names : List String) : Option (String × Json) :=
  names.findSome? fun name => (entries.get? name).map fun v => (name, v)

/-- A field that must be there. -/
def required {α : Type} (entries : Entries) (names : List String) (d : Decoder α) : Checked α :=
  match lookup? entries names with
  | some (name, v) => (d v).under (.field name)
  | none => .faulty [[.field (names.headD "")]]

/-- A field that may be absent or null. -/
def optional {α : Type} (entries : Entries) (names : List String) (d : Decoder α) :
    Checked (Option α) :=
  match lookup? entries names with
  | some (_, .null) | none => .ok none
  | some (name, v) => some <$> (d v).under (.field name)

/-- A field that has a default when it is absent. -/
def withDefault {α : Type} (entries : Entries) (names : List String) (d : Decoder α)
    (default : α) : Checked α :=
  match lookup? entries names with
  | some (name, v) => (d v).under (.field name)
  | none => .ok default

end ChatClient.Payload
