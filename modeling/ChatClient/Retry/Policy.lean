import ChatClient.Failure

/-!
# Retry policies

How often an exchange is tried and how long to wait in between. The numbers of a policy may
be whole numbers or floats, and the delays computed from them keep that difference.
-/

namespace ChatClient

/-- Bounded retries with exponential backoff. -/
structure RetryPolicy where
  maxAttempts : Number := .int 3
  initialDelay : Number := .float 0.5
  multiplier : Number := .float 2.0
  maxDelay : Number := .float 8.0
  /-- Each delay is drawn from between zero and the computed one. -/
  jitter : Bool := true
  /-- The longest wait that a service may ask for. -/
  maxRetryAfter : Number := .float 60.0
  deriving Inhabited

namespace RetryPolicy

/-- A number within its bound. -/
def checkBound (field bound : String) (ok : Bool) : Except Failure Unit :=
  if ok then .ok () else .error (.misuse (.badPolicy field bound))

/-- The first number outside its bound, if there is one. -/
def check (p : RetryPolicy) : Except Failure Unit := do
  checkBound "max_attempts" ">= 1" (!p.maxAttempts.lt (.int 1))
  checkBound "initial_delay_s" ">= 0" (!p.initialDelay.lt .zero)
  checkBound "backoff_multiplier" "> 0" (!p.multiplier.le .zero)
  checkBound "max_delay_s" ">= 0" (!p.maxDelay.lt .zero)
  checkBound "max_retry_after_s" ">= 0" (!p.maxRetryAfter.lt .zero)

/-- The number in a field of a policy; one that is absent keeps its default. -/
def numberField (es : Entries) (name : String) (default : Number) : Except Failure Number :=
  match es.get? name with
  | none => .ok default
  | some v =>
    match v.quantity? with
    | some n => .ok n
    | none => .error (.outside .wrongType)

/-- The names of the fields. -/
def fieldNames : List String :=
  ["max_attempts", "initial_delay_s", "backoff_multiplier", "max_delay_s", "jitter",
    "max_retry_after_s"]

/-- The policy that some fields describe. A field of another name is refused; then the fields
are looked at one after the other, and the first one that is no number or outside its bound
decides. -/
def ofEntries (es : Entries) : Except Failure RetryPolicy := do
  if es.any fun (name, _) => name ∉ fieldNames then throw (.outside .wrongType)
  let p : RetryPolicy := { jitter := ((es.get? "jitter").map Json.isGiven).getD true }
  let p := { p with maxAttempts := ← numberField es "max_attempts" p.maxAttempts }
  p.check
  let p := { p with initialDelay := ← numberField es "initial_delay_s" p.initialDelay }
  p.check
  let p := { p with multiplier := ← numberField es "backoff_multiplier" p.multiplier }
  p.check
  let p := { p with maxDelay := ← numberField es "max_delay_s" p.maxDelay }
  p.check
  let p := { p with maxRetryAfter := ← numberField es "max_retry_after_s" p.maxRetryAfter }
  p.check
  return p

/-- How many attempts a policy without a finite bound gets. -/
def unboundedAttempts : Nat := 1000000000

/-- The attempt at which a retryable failure is the last one. -/
def attemptBound (p : RetryPolicy) : Nat :=
  (p.maxAttempts.ceil?.map Int.toNat).getD unboundedAttempts

end RetryPolicy

end ChatClient
