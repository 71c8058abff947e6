import ChatClient.Retry.Backoff

/-!
# The retry controller

The controller calls something that may fail until it succeeds, fails for good, or has
failed as often as the policy allows. What is called is given by its outcomes: outcome `k`
is that of call `k`, counted from zero. A cancellation is no failure to the controller; it
goes through and leaves the controller as it is.
-/

namespace ChatClient

/-- A controller serves one exchange. -/
structure RetryController where
  policy : RetryPolicy
  state : RetryState := .attempting
  attempts : Nat := 0
  /-- The failed attempts, in order. -/
  history : List AttemptRecord := []

/-- The end of a run: its result, how many calls were made, and what is left behind. -/
structure RetryRun (α : Type) where
  result : Except Failure α
  calls : Nat
  controller : RetryController
  ledger : Ledger

namespace RetryController

/-- Notes a failed attempt. -/
def record (c : RetryController) (f : Failure) (delay : Option Number) : RetryController :=
  { c with history := c.history ++ [
      { attempt := c.attempts, kind := f.kind, statusCode := f.statusCode?, delay,
        failure := f.name }] }

/-- A failure after the last attempt that the policy allows. -/
def exhaustion (c : RetryController) (f : Failure) : Failure :=
  .retriesExhausted
    ("Gave up after " ++ toString c.attempts ++ " attempt(s): " ++ f.message?.getD "")
    c.attempts f c.history f.hint?

/-- The log line about a wait. -/
def retryLine (c : RetryController) (f : Failure) (delay : Number) : String :=
  "Retrying in " ++ Decimal.fixed 2 delay.toFloat ++ "s (attempt " ++ toString c.attempts ++
    "/" ++ (Number.int (c.policy.maxAttempts.truncate?.getD 0)).text ++ ", " ++
    f.summary.inner ++ ")"

/-- The ledger after a wait, which is logged, and slept if it is above zero. -/
def backOff (c : RetryController) (f : Failure) (delay : Number) (l : Ledger) : Ledger :=
  let l := l.log .warning (c.retryLine f delay)
  if Number.zero.lt delay then l.slept delay else l

/-- Whether a failure is a cancellation. -/
def isCancellation : Failure → Bool
  | .outside .cancelled => true
  | _ => false

/-- Runs until the end. `left` is how many attempts are allowed after this one, and `k` how
many calls have been made. -/
def runFrom {α : Type} (outcome : Nat → Except Failure α) :
    Nat → Nat → RetryController → Ledger → RetryRun α
  | left, k, c, l =>
    let c := { c with attempts := c.attempts + 1 }
    match outcome k with
    | .ok a => ⟨.ok a, k + 1, { c with state := .succeeded }, l⟩
    | .error f =>
      if isCancellation f then ⟨.error f, k + 1, c, l⟩
      else if !f.kind.isRetryable then
        ⟨.error f, k + 1, { c.record f none with state := .exhausted }, l⟩
      else
        match left with
        | 0 =>
          let c := { c.record f none with state := .exhausted }
          ⟨.error (c.exhaustion f), k + 1, c, l⟩
        | left + 1 =>
          match c.policy.nextDelay c.attempts f l with
          | .error e => ⟨.error e, k + 1, c, l⟩
          | .ok (delay, l) =>
            let c := c.record f (some delay)
            let l := c.backOff f delay l
            if Number.zero.lt delay && l.isCancelled then
              ⟨.error (.outside .cancelled), k + 1, { c with state := .backingOff }, l⟩
            else runFrom outcome left (k + 1) c l

/-- Runs a controller that has not come to an end before. -/
def run {α : Type} (c : RetryController) (outcome : Nat → Except Failure α) (l : Ledger) :
    RetryRun α :=
  if c.state = .attempting then
    runFrom outcome (c.policy.attemptBound - (c.attempts + 1)) 0 c l
  else ⟨.error (.misuse (.controllerUsed c.state)), 0, c, l⟩

end RetryController

end ChatClient
