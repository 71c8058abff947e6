import ChatClient.Ledger
import ChatClient.Retry.Policy

/-!
# Delays between attempts

The delay grows by a factor with each attempt, up to a maximum, and may be drawn at random
from below that. A failure that says how long to wait is taken at its word, up to a maximum
of its own. Whole numbers stay whole; a number too large for a float is a failure.
-/

namespace ChatClient

/-- A float, where one is needed. -/
def Number.asFloat (a : Number) : Except Failure Float :=
  match a.toFloat? with
  | some x => .ok x
  | none => .error (.outside .overflow)

/-- The product of two numbers: whole if both are. -/
def Number.times (a b : Number) : Except Failure Number :=
  match a, b with
  | .int m, .int n => .ok (.int (m * n))
  | a, b => do
    let x ← a.asFloat
    let y ← b.asFloat
    return .float (x * y)

/-- A power: whole for a whole number. A float is raised to an exponent that is a float too; a
power of a finite float that is beyond all floats is a failure. -/
def Number.power (a : Number) (n : Nat) : Except Failure Number :=
  match a with
  | .int m => .ok (.int (m.pow n))
  | .float x => do
    let y := Float.pow x (← (Number.int n).asFloat)
    if y.isInf ∧ x.isFinite then .error (.outside .overflow) else .ok (.float y)

namespace RetryPolicy

/-- The delay before retry `index`, counted from one, before chance comes in. -/
def baseDelay (p : RetryPolicy) (index : Int) : Except Failure Number := do
  let factor ← p.multiplier.power (index - 1).toNat
  let delay ← p.initialDelay.times factor
  return p.maxDelay.min delay

/-- The delay before retry `index`, and the ledger after drawing for it. -/
def backoffDelay (p : RetryPolicy) (index : Int) (l : Ledger) : Except Failure (Number × Ledger) := do
  let base ← p.baseDelay index
  if base.le .zero then return (.float 0.0, l)
  if !p.jitter then return (base, l)
  let delay ← l.nextDraw.times base
  return (delay, l.drew)

/-- The wait that a failure asks for, if it asks for one. -/
def askedDelay? : Failure → Option Number
  | .service f => f.retryAfter.quantity?.filter fun n => Number.zero.le n
  | _ => none

/-- The delay after failed attempt `attempt`, and the ledger after drawing for it. -/
def nextDelay (p : RetryPolicy) (attempt : Nat) (f : Failure) (l : Ledger) :
    Except Failure (Number × Ledger) :=
  match askedDelay? f with
  | some n => n.asFloat.map fun x => ((Number.float x).min p.maxRetryAfter, l)
  | none => p.backoffDelay attempt l

end RetryPolicy

end ChatClient
