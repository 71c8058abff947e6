import ChatClient.Decimal.Shortest
import ChatClient.Decimal.Fixed

/-!
# Numbers

A number is a whole number of any size or a float, and stays what it was given as: `5` and
`5.0` are different numbers that compare equal. Comparisons are exact, also between a whole
number and a float.
-/

namespace ChatClient

/-- A whole number or a float. -/
inductive Number where
  | int (n : Int)
  | float (x : Float)
  deriving Inhabited

namespace Number

/-- Floats in messages: positional from `1e-04` to below `1e+16`. -/
def displayLayout : Decimal.Layout :=
  { least := -4, greatest := 15, mark := 'e', exponentWidth := 2, nan := "nan", infinity := "inf" }

/-- A number as messages show it. -/
def text : Number → String
  | int n => String.ofList (Decimal.wholeText n)
  | float x => String.ofList (displayLayout.text x)

/-- The nearest float; infinite for a whole number beyond all floats. -/
def toFloat : Number → Float
  | int n =>
    let x := Float.ofScientific n.natAbs false 0
    if n < 0 then -x else x
  | float x => x

/-- The nearest float, if there is a finite one or the number is a float already. -/
def toFloat? (a : Number) : Option Float :=
  match a with
  | int _ => if a.toFloat.isInf then none else some a.toFloat
  | float x => some x

/-- How a float compares with a whole number; `none` if it is not a number. -/
def compareFloatInt (x : Float) (n : Int) : Option Ordering :=
  if x.isNaN then none
  else if x.isInf then some (if x < 0.0 then .lt else .gt)
  else some ((Decimal.Binary.ofFloat x).compareInt n)

/-- Whether one number is less than another. Nothing is less than what is not a number. -/
def lt : Number → Number → Bool
  | int a, int b => a < b
  | float a, float b => a < b
  | float a, int b => compareFloatInt a b == some .lt
  | int a, float b => compareFloatInt b a == some .gt

/-- Whether one number is less than or equal to another. -/
def le : Number → Number → Bool
  | int a, int b => a ≤ b
  | float a, float b => a ≤ b
  | float a, int b => compareFloatInt a b == some .lt || compareFloatInt a b == some .eq
  | int a, float b => compareFloatInt b a == some .gt || compareFloatInt b a == some .eq

/-- The lesser of two numbers, and the first one if neither is less. -/
def min (a b : Number) : Number := if b.lt a then b else a

/-- Whether a number is neither infinite nor not a number. -/
def isFinite : Number → Bool
  | int _ => true
  | float x => x.isFinite

/-- Zero, as an exact comparison sees it. -/
def zero : Number := int 0

/-- The least whole number that is no less, for a finite number. -/
def ceil? : Number → Option Int
  | int n => some n
  | float x =>
    if x.isFinite then
      let b := Decimal.Binary.ofFloat x
      some (if b.isWhole || b.negative then b.truncate else b.truncate + 1)
    else none

/-- The whole part of a finite number. -/
def truncate? : Number → Option Int
  | int n => some n
  | float x => if x.isFinite then some (Decimal.Binary.ofFloat x).truncate else none

end Number

end ChatClient
