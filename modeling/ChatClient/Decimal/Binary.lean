/-!
# Floats as integers times powers of two

A finite float is `± mantissa * 2 ^ exponent`. Everything that is printed or compared
exactly goes through this form, so it needs no arithmetic on floats.
-/

namespace ChatClient.Decimal

/-- A finite float, taken apart. -/
structure Binary where
  negative : Bool
  mantissa : Nat
  exponent : Int
  /-- The next float towards zero is only half as far away as the next one outwards. -/
  narrowBelow : Bool

/-- Takes a finite float apart. -/
def Binary.ofFloat (x : Float) : Binary :=
  let bits : Nat := x.toBits.toNat
  let field : Nat := bits / Nat.pow 2 52 % 2048
  let fraction : Nat := bits % Nat.pow 2 52
  { negative := bits / Nat.pow 2 63 == 1
    mantissa := if field = 0 then fraction else Nat.pow 2 52 + fraction
    exponent := (if field = 0 then 1 else (field : Int)) - 1075
    narrowBelow := fraction == 0 && 1 < field }

/-- The factor that a non-negative exponent of two contributes to the numerator. -/
def Binary.up (b : Binary) : Nat := Nat.pow 2 b.exponent.toNat

/-- The factor that a negative exponent of two contributes to the denominator. -/
def Binary.down (b : Binary) : Nat := Nat.pow 2 (-b.exponent).toNat

/-- Whether a finite float is a whole number. -/
def Binary.isWhole (b : Binary) : Bool := b.mantissa * b.up % b.down == 0

/-- The whole number nearest to a finite float on the side of zero. -/
def Binary.truncate (b : Binary) : Int :=
  let n : Int := (b.mantissa * b.up / b.down : Nat)
  if b.negative then -n else n

/-- How a finite float compares with a whole number. -/
def Binary.compareInt (b : Binary) (n : Int) : Ordering :=
  let m : Int := (b.mantissa * b.up : Nat)
  compare (if b.negative then -m else m) (n * (b.down : Int))

end ChatClient.Decimal
