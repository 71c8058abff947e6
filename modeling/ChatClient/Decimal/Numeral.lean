import ChatClient.Text.Digit

/-!
# Reading numerals

`Numeral` is what a decimal numeral says: digits and a power of ten. Its float is the
nearest one, and infinity beyond the largest. `ofText?` reads the liberal form in which
headers give numbers: blanks around, a sign, digits of any script with single underscores
between them, a point, an exponent, or the words for infinity and for no number.
-/

namespace ChatClient.Decimal

/-- How many digits a whole number has at most in a text that is read. -/
def maxDigits : Nat := 4300

/-- The number `± coefficient * 10 ^ exponent`. -/
structure Numeral where
  negative : Bool
  coefficient : Nat
  exponent : Int

/-- The nearest float. Numerals far outside the range of floats are settled by their
number of digits, without computing the power of ten. -/
def Numeral.toFloat (n : Numeral) : Float :=
  let size := (Nat.toDigits 10 n.coefficient).length + n.exponent
  let x : Float :=
    if n.coefficient = 0 ∨ size < -400 then 0.0
    else if 400 < size then 1.0 / 0.0
    else Float.ofScientific n.coefficient (n.exponent < 0) n.exponent.natAbs
  if n.negative then -x else x

/-- Splits a leading sign off; `true` for minus. -/
def splitSign : List Char → Bool × List Char
  | '-' :: cs => (true, cs)
  | '+' :: cs => (false, cs)
  | cs => (false, cs)

/-- The digits at the start of a text, and the rest. -/
def spanDigits (cs : List Char) : List Char × List Char := cs.span Text.isAsciiDigit

/-- An exponent after its mark: a sign and at least one digit, up to the end of the text. -/
def exponent? (cs : List Char) : Option Int :=
  let (negative, ds) := splitSign cs
  if ds ≠ [] ∧ ds.all Text.isAsciiDigit then
    some (if negative then -(Text.ofDigits ds : Int) else Text.ofDigits ds)
  else none

/-- An unsigned decimal: digits with at most one point among them, at least one digit, and
perhaps an exponent. -/
def unsigned? (cs : List Char) : Option (Nat × Int) :=
  let (whole, rest) := spanDigits cs
  let (fraction, rest) := match rest with
    | '.' :: rest => spanDigits rest
    | _ => ([], rest)
  if whole = [] ∧ fraction = [] then none
  else
    let scaled (e : Int) : Nat × Int := (Text.ofDigits (whole ++ fraction), e - fraction.length)
    match rest with
    | [] => some (scaled 0)
    | c :: rest => if c = 'e' ∨ c = 'E' then (exponent? rest).map scaled else none

/-- Drops single underscores between digits; none if one stands elsewhere. -/
def dropUnderscores : List Char → Option (List Char)
  | [] => some []
  | '_' :: _ => none
  | c :: '_' :: d :: cs =>
    if Text.isAsciiDigit c && Text.isAsciiDigit d then
      (dropUnderscores (d :: cs)).map (c :: ·)
    else none
  | c :: cs => (dropUnderscores cs).map (c :: ·)

/-- Digits of any script become ASCII digits. -/
def asciiDigits (cs : List Char) : List Char :=
  cs.map fun c => ((Text.digitValue? c).map Text.digitChar).getD c

/-- The number that a text without blanks around it writes. -/
def ofText? (cs : List Char) : Option Float :=
  let (negative, body) := splitSign (asciiDigits cs)
  let signed (x : Float) : Float := if negative then -x else x
  let word := body.map Char.toLower
  if word = "inf".toList ∨ word = "infinity".toList then some (signed (1.0 / 0.0))
  else if word = "nan".toList then some (0.0 / 0.0)
  else (dropUnderscores body).bind fun ds =>
    (unsigned? ds).map fun (c, e) => Numeral.toFloat ⟨negative, c, e⟩

end ChatClient.Decimal
