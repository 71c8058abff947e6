import ChatClient.Classification
import ChatClient.Config
import ChatClient.Dialect
import ChatClient.Request.Validation
import ChatClient.Retry.Controller
import ChatClient.Stream.Reception

/-!
# Sessions

What a call finds around it, and what all calls have in common: they choose an adapter, check
and write the request, and try it as often as the retry policy allows. A transport that a
call made itself is closed when the call is over; a failure to do so is only logged, and a
cancellation takes the place of the result.
-/

namespace ChatClient

/-- How the closing of a transport goes. -/
inductive Closing where
  | clean
  | failing (message : String)
  | cancelled

/-- A transport that was passed in, or one that the call makes itself. -/
inductive Transport where
  | shared
  | own (closing : Closing)

/-- What a call finds around it. -/
structure Session where
  environment : Environment := []
  /-- The time, in seconds. -/
  now : Float
  server : Server
  transport : Transport := .shared

/-- The service to talk to, by name, or an adapter. -/
inductive Selector where
  | named (name : String)
  | given (a : Adapter)

/-- The adapter that a selector stands for. -/
def Selector.resolve (s : Selector) (env : Environment) (c : Config) : Except Failure Adapter :=
  match s with
  | named name => Adapter.create env (.text name) c.apiKey c.baseUrl []
  | given a => .ok a

/-- The end of a call. -/
structure Outcome (α : Type) where
  result : Except Failure α
  /-- How many exchanges were tried. -/
  attempts : Nat := 0
  /-- The requests, as the server received them. -/
  requests : List SentRequest := []
  /-- How many answers began. -/
  opened : Nat := 0
  /-- How many answers were let go. -/
  closed : Nat := 0
  /-- How many transports the call closed. -/
  transportsClosed : Nat := 0
  ledger : Ledger

namespace Outcome

/-- The outcome with another result. -/
def withResult {α β : Type} (o : Outcome α) (result : Except Failure β) : Outcome β :=
  { o with result }

/-- The outcome after closing the transport that the call used. -/
def closeTransport {α : Type} (o : Outcome α) : Transport → Outcome α
  | .shared => o
  | .own .clean => { o with transportsClosed := o.transportsClosed + 1 }
  | .own (.failing message) =>
    { o with
      transportsClosed := o.transportsClosed + 1
      ledger := o.ledger.log .warning ("Transport cleanup failed: " ++ message) }
  | .own .cancelled =>
    { o with
      transportsClosed := o.transportsClosed + 1
      result := .error (.outside .cancelled) }

end Outcome

namespace Adapter

/-- A failure as callers see it: an answer without success is classified, or is what went wrong
in that. -/
def classified (a : Adapter) (now : Float) : Failure → Failure
  | .status _ code headers body =>
    match a.serviceFailure now code headers body with
    | .ok s => .service s
    | .error o => .outside o
  | f => f

/-- Checks a request and writes it. -/
def prepare (a : Adapter) (r : Request) (model : String) (stream : Bool) :
    Reading WireRequest := do
  liftExcept (r.validate.mapError Failure.ofObjection)
  let (wire, logs) ← liftExcept ((a.render r model stream).mapError Failure.ofObjection)
  modify fun l => l.logAll logs
  return wire

end Adapter

/-- Makes exchanges until one succeeds or the policy gives up. `exchange k` is the `k`-th one,
counted from zero. -/
def attempt {α : Type} (a : Adapter) (c : Config) (now : Float) (exchange : Nat → Exchange α)
    (l : Ledger) : Outcome α :=
  let controller : RetryController := { policy := c.retry }
  let run := controller.run (fun k => (exchange k).result.mapError (a.classified now)) l
  let made := (List.range run.calls).map exchange
  { result := run.result
    attempts := run.controller.attempts
    requests := made.filterMap (·.sent)
    opened := made.countP (·.opened)
    closed := made.countP (·.closed)
    ledger := run.ledger }

end ChatClient
