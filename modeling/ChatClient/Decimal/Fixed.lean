import ChatClient.Decimal.Binary

/-!
# A fixed number of places

Durations in log lines have a fixed number of places. The float is rounded exactly, and
a value halfway between two numerals goes to the even one.
-/

namespace ChatClient.Decimal

/-- The quotient rounded to the nearest whole number, halves to the even one. -/
def roundDiv (num den : Nat) : Nat :=
  let q := num / den
  let rest := 2 * (num % den)
  if rest < den ∨ (rest = den ∧ q % 2 = 0) then q else q + 1

/-- A float with a fixed number of places. -/
def fixed (places : Nat) (x : Float) : String :=
  if x.isNaN then "nan"
  else
    let b := Binary.ofFloat x
    let sign := if b.negative then "-" else ""
    if x.isInf then sign ++ "inf"
    else
      let n := roundDiv (b.mantissa * b.up * Nat.pow 10 places) b.down
      let digits := Nat.toDigits 10 n
      let all := List.replicate (places + 1 - digits.length) '0' ++ digits
      let whole := String.ofList (all.take (all.length - places))
      sign ++ whole ++ "." ++ String.ofList (all.drop (all.length - places))

end ChatClient.Decimal
