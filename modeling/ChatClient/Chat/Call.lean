import ChatClient.Chat.Session

/-!
# Calls

A call sends one request and returns the response. Nothing is sent for a request that is
refused, and an answer that cannot be read is not asked for again.
-/

namespace ChatClient

/-- The log line before the first attempt. -/
def dispatchLine (a : Adapter) (model : String) (r : Request) : String :=
  "Dispatching " ++ a.name ++ " request (model=" ++ model ++ ", messages=" ++
    toString r.messages.length ++ ", tools=" ++ toString r.tools.length ++ ")"

/-- The log line after more than one attempt. -/
def attemptsLine (a : Adapter) (attempts : Nat) : String :=
  a.name ++ " request succeeded after " ++ toString attempts ++ " attempts"

namespace Outcome

/-- Goes on with a reading if there is a result. -/
def andThen {α β : Type} (o : Outcome α) (f : α → Reading β) : Outcome β :=
  match o.result with
  | .error e => o.withResult (.error e)
  | .ok x =>
    let (result, ledger) := (f x).run o.ledger
    { o with result, ledger }

end Outcome

namespace Adapter

/-- What is done with a response that has arrived after some attempts. -/
def conclude (a : Adapter) (c : Config) (attempts : Nat) (w : WireResponse) : Reading Response := do
  if 1 < attempts then Reading.log .debug (attemptsLine a attempts)
  return c.finalize (← a.readResponse w.body)

/-- Sends a request through an adapter. -/
def chat (a : Adapter) (c : Config) (now : Float) (server : Server) (r : Request) (l : Ledger) :
    Outcome Response :=
  let begin : Reading WireRequest := do
    let wire ← a.prepare r c.model false
    Reading.log .debug (dispatchLine a c.model r)
    return wire
  match begin.run l with
  | (.error f, l) => { result := .error f, ledger := l }
  | (.ok wire, l) =>
    let o := attempt a c now (fun k => send wire c.timeout (server.reply k)) l
    o.andThen (a.conclude c o.attempts)

end Adapter

namespace Session

/-- Sends one request and returns the response. -/
def chat (s : Session) (selector : Selector) (c : Config) (r : Request) (l : Ledger) :
    Outcome Response :=
  match selector.resolve s.environment c with
  | .error f => { result := .error f, ledger := l }
  | .ok a => (a.chat c s.now s.server r l).closeTransport s.transport

/-- Sends one message and returns the text of the response. -/
def ask (s : Session) (selector : Selector) (c : Config) (role prompt : Json) (l : Ledger) :
    Outcome String :=
  let o := s.chat selector c { messages := [{ role, content := prompt }] } l
  o.withResult (o.result.map Response.text)

end Session

end ChatClient
