import ChatClient.Decimal.Binary
import ChatClient.Text.Blank

/-!
# The fewest digits that read back

A float is written with the fewest significant digits that still denote it, that is, that
lie among the reals that round to it; of several such numerals the nearest to the float is
taken. The search goes over the grids of one, two, … digits, and on each grid only the two
neighbours of the float can be candidates. Where the numeral has a point and where an
exponent is a matter of the `Layout`.
-/

namespace ChatClient.Decimal

/-- A positive fraction between the two ends of the reals that round to it, over one
denominator. The ends count among them if `closed`. -/
structure Target where
  low : Nat
  mid : Nat
  high : Nat
  den : Nat
  closed : Bool

/-- A non-zero float with the reals that round to it, in quarters of its last place. -/
def Binary.target (b : Binary) : Target :=
  let up := Nat.pow 2 (b.exponent - 2).toNat
  { low := (4 * b.mantissa - if b.narrowBelow then 1 else 2) * up
    mid := 4 * b.mantissa * up
    high := (4 * b.mantissa + 2) * up
    den := Nat.pow 2 (2 - b.exponent).toNat
    closed := b.mantissa % 2 == 0 }

/-- The number of decimal digits; none for zero. -/
def digitCount (n : Nat) : Nat := if n = 0 then 0 else (Nat.toDigits 10 n).length

/-- The exponent `k` with `10 ^ (k - 1) ≤ num / den < 10 ^ k`. -/
def decimalPoint (num den : Nat) : Int :=
  if den ≤ num then digitCount (num / den) else 1 - (digitCount ((den - 1) / num) : Int)

/-- The multiple of `10 ^ e` nearest to the target, if one of its neighbours on that grid
lies among the reals that round to it. -/
def Target.onGrid? (t : Target) (e : Int) : Option Nat :=
  let scale := Nat.pow 10 (-e).toNat
  let unit := t.den * Nat.pow 10 e.toNat
  let c := t.mid * scale / unit
  let fits (n : Nat) : Bool :=
    if t.closed then t.low * scale ≤ n * unit && n * unit ≤ t.high * scale
    else t.low * scale < n * unit && n * unit < t.high * scale
  let rest := 2 * (t.mid * scale - c * unit)
  match fits c, fits (c + 1) with
  | true, false => some c
  | false, true => some (c + 1)
  | true, true => some (if rest < unit ∨ (rest = unit ∧ c % 2 = 0) then c else c + 1)
  | false, false => none

/-- Digits and an exponent of ten: the shortest numeral for the target. Seventeen digits
always suffice. -/
def Target.shortest (t : Target) : Nat × Int :=
  let point := decimalPoint t.mid t.den
  ((List.range 17).findSome? fun n =>
    (t.onGrid? (point - (n + 1 : Nat))).map fun c => (c, point - (n + 1 : Nat))).getD
      (t.mid / t.den, 0)

/-- The decisions that turn digits and exponent into a text. -/
structure Layout where
  /-- The least decimal exponent that is written positionally. -/
  least : Int
  /-- The greatest decimal exponent that is written positionally. -/
  greatest : Int
  /-- What stands before the exponent. -/
  mark : Char
  /-- The fewest digits of an exponent. -/
  exponentWidth : Nat
  nan : String
  infinity : String

/-- The exponent of a numeral: a mark, a sign and enough digits. -/
def Layout.exponent (l : Layout) (e : Int) : List Char :=
  let digits := Nat.toDigits 10 e.natAbs
  l.mark :: (if e < 0 then '-' else '+') ::
    (List.replicate (l.exponentWidth - digits.length) '0' ++ digits)

/-- A numeral with the given significant digits, the first of which counts `10 ^ e`. -/
def Layout.numeral (l : Layout) (digits : List Char) (e : Int) : List Char :=
  if l.least ≤ e ∧ e ≤ l.greatest then
    if e < 0 then '0' :: '.' :: (List.replicate (-e - 1).toNat '0' ++ digits)
    else
      let whole := digits.take (e.toNat + 1)
      let rest := digits.drop (e.toNat + 1)
      whole ++ List.replicate (e.toNat + 1 - digits.length) '0' ++
        '.' :: (if rest.isEmpty then ['0'] else rest)
  else
    let rest := digits.drop 1
    digits.take 1 ++ (if rest.isEmpty then [] else '.' :: rest) ++ l.exponent e

/-- The digits of a positive finite float, and the decimal exponent of the first one. -/
def Binary.digits (b : Binary) : List Char × Int :=
  let (c, e) := b.target.shortest
  let all := Nat.toDigits 10 c
  (Text.dropEndWhile (· == '0') all, e + all.length - 1)

/-- The text of a float. -/
def Layout.text (l : Layout) (x : Float) : List Char :=
  if x.isNaN then l.nan.toList
  else
    let b := Binary.ofFloat x
    let sign := if b.negative then ['-'] else []
    if x.isInf then sign ++ l.infinity.toList
    else if b.mantissa = 0 then sign ++ ['0', '.', '0']
    else
      let (digits, e) := b.digits
      sign ++ l.numeral digits e

/-- A whole number in base ten. -/
def wholeText : Int → List Char
  | .ofNat n => Nat.toDigits 10 n
  | .negSucc n => '-' :: Nat.toDigits 10 (n + 1)

end ChatClient.Decimal
