import ChatClient.Chat.Call
import ChatClient.Chat.Generator
import ChatClient.Stream.Assembler
import ChatClient.Stream.Event

/-!
# Streaming calls

A streaming call yields chunks as they arrive. Only opening the stream is tried again; once
it is open, what goes wrong ends the call. A caller may stop after some items, so each item
comes with the ledger as it was then. The stream is let go in the generator that reads it, and
the transport in the call around that one.
-/

namespace ChatClient

/-- Items one after the other, each with the ledger at its time, and how they end. -/
structure Yields (α : Type) where
  items : List (α × Ledger) := []
  result : Except Failure Unit
  ledger : Ledger

/-- The log line before a stream is opened. -/
def openingLine (a : Adapter) (model : String) (r : Request) : String :=
  "Opening " ++ a.name ++ " stream (model=" ++ model ++ ", messages=" ++
    toString r.messages.length ++ ")"

namespace Adapter

/-- A lost connection in the middle of a stream is an interruption; other failures stay as
they are. -/
def midStream (a : Adapter) : Failure → Failure
  | .connection _ _ =>
    .interrupted (a.name ++ " stream dropped before its terminal marker")
      (some "The connection closed mid-stream; retry the request.")
  | f => f

/-- The payloads of a reception: the last event counts without an empty line only if the
lines did not break off. -/
def payloads (r : Reception) : List String :=
  match r.failure with
  | none => Event.payloads r.lines
  | some _ => (Event.scan [] r.lines).2

/-- How the chunks of a reception end when none of them is the last. -/
def receptionEnd (a : Adapter) (r : Reception) : Except Failure Unit :=
  match r.failure with
  | none => .ok ()
  | some f => .error (a.midStream f)

/-- The chunks of some payloads. A chunk that says so is the last one. -/
def chunksOf (a : Adapter) (ending : Except Failure Unit) : List String → Ledger → Yields Chunk
  | [], l => { result := ending, ledger := l }
  | p :: ps, l =>
    match (a.readEvent p).run l with
    | (.error f, l) => { result := .error f, ledger := l }
    | (.ok none, l) => a.chunksOf ending ps l
    | (.ok (some c), l) =>
      if c.done then { items := [(c, l)], result := .ok (), ledger := l }
      else
        let rest := a.chunksOf ending ps l
        { rest with items := (c, l) :: rest.items }

/-- The chunks of an open stream. -/
def chunks (a : Adapter) (s : OpenStream) (l : Ledger) : Yields Chunk :=
  a.chunksOf (a.receptionEnd s.reception) (payloads s.reception) l

/-- Opens a stream through an adapter. -/
def openStream (a : Adapter) (c : Config) (now : Float) (server : Server) (r : Request)
    (l : Ledger) : Outcome OpenStream :=
  let begin : Reading WireRequest := do
    let wire ← a.prepare r c.model true
    Reading.log .debug (openingLine a c.model r)
    return wire
  match begin.run l with
  | (.error f, l) => { result := .error f, ledger := l }
  | (.ok wire, l) =>
    attempt a c now (fun k => ChatClient.openStream wire c.timeout (server.reply k)) l

end Adapter

/-! ## Assembling on the way -/

/-- What assembling makes of some chunks: the chunks that the assembler takes, and the
response or what went wrong first. -/
structure Assembling where
  taken : List (Chunk × Ledger) := []
  result : Except Failure Response
  ledger : Ledger

/-- Feeds chunks to an assembler. -/
def Assembler.follow (ending : Except Failure Unit) (last : Ledger) :
    Assembler → List (Chunk × Ledger) → Assembling
  | as, [] =>
    { result := ending.bind fun () => as.finish.1.mapError StreamFault.failure, ledger := last }
  | as, (c, l) :: rest =>
    match as.accept c with
    | (.error f, _) => { result := .error f, ledger := l }
    | (.ok (), as) =>
      let next := follow ending last as rest
      { next with taken := (c, l) :: next.taken }

/-- Assembles the response of a service from the chunks of a stream. -/
def Yields.assemble (y : Yields Chunk) (provider : Option String) : Assembling :=
  Assembler.follow y.result y.ledger { provider } y.items

/-! ## Generators of chunks -/

namespace Outcome

/-- The outcome so far, when the ledger is `l` and nothing has gone wrong. -/
def suspended {β : Type} (o : Outcome β) (l : Ledger) : Outcome Unit :=
  { o with result := .ok (), ledger := l }

/-- The outcome after letting go of the stream that was opened last. -/
def releaseStream (o : Outcome Unit) : Outcome Unit := { o with closed := o.closed + 1 }

end Outcome

/-- A generator of some items in a call that has come to `o`. -/
def Yields.generator {α β : Type} (y : Yields α) (o : Outcome β) : Generator α :=
  y.items.foldr (fun (item, l) next => .yielded item (o.suspended l) next)
    (.ended { o with result := y.result, ledger := y.ledger })

namespace Adapter

/-- Opens a stream and hands out its chunks. A stream that was opened is let go in the end. -/
def stream (a : Adapter) (c : Config) (now : Float) (server : Server) (r : Request)
    (l : Ledger) : Generator Chunk :=
  let o := a.openStream c now server r l
  match o.result with
  | .error f => .ended (o.withResult (.error f))
  | .ok stream => ((a.chunks stream o.ledger).generator o).ensuring Outcome.releaseStream

/-- Opens a stream and assembles its chunks to a response that names the given service. -/
def assembled (a : Adapter) (c : Config) (now : Float) (server : Server) (r : Request)
    (provider : Option String) (l : Ledger) : Outcome Response :=
  let o := a.openStream c now server r l
  match o.result with
  | .error f => o.withResult (.error f)
  | .ok stream =>
    let assembling := (a.chunks stream o.ledger).assemble provider
    { o with
      result := assembling.result, ledger := assembling.ledger, closed := o.closed + 1 }

end Adapter

/-- What a stream with its response yields. -/
inductive StreamItem where
  | chunk (c : Chunk)
  | response (r : Response)

namespace Generator

/-- Hands on the chunks that an assembler takes, and then its response. Where a chunk is refused
the generator of chunks is closed, and so it is where the one made here is closed. -/
def assembling (c : Config) : Assembler → Generator Chunk → Generator StreamItem
  | as, ended o =>
    match o.result with
    | .error _ => ended o
    | .ok () =>
      match as.finish.1 with
      | .error f => ended (o.withResult (.error f.failure))
      | .ok r => yielded (.response (c.finalize r)) o (ended o)
  | as, yielded chunk closed next =>
    match as.accept chunk with
    | (.error f, _) => ended (closed.failing f)
    | (.ok (), as) => yielded (.chunk chunk) closed (next.assembling c as)

end Generator

/-! ## Streaming calls -/

namespace Session

/-- A generator that works through an adapter, and lets the transport go in the end. -/
def generate {α : Type} (s : Session) (selector : Selector) (c : Config) (l : Ledger)
    (make : Adapter → Generator α) : Generator α :=
  match selector.resolve s.environment c with
  | .error f => .ended { result := .error f, ledger := l }
  | .ok a => (make a).ensuring (·.closeTransport s.transport)

/-- Hands out the chunks of a streamed response, up to where the caller stops. -/
def streamChunks (s : Session) (selector : Selector) (c : Config) (r : Request)
    (stop : Option Nat) (l : Ledger) : StreamOutcome Chunk StreamEnd :=
  (s.generate selector c l fun a => a.stream c s.now s.server r l).collect stop (.idle l)

/-- Hands out the chunks of a streamed response and then the response, up to where the caller
stops. -/
def chatStream (s : Session) (selector : Selector) (c : Config) (r : Request)
    (stop : Option Nat) (l : Ledger) : StreamOutcome StreamItem StreamEnd :=
  (s.generate selector c l fun a =>
    (a.stream c s.now s.server r l).assembling c { provider := some a.name }).collect stop (.idle l)

/-- Assembles the chunks of a streamed response, which names the given service. -/
def assembled (s : Session) (selector : Selector) (c : Config) (r : Request)
    (provider : Option String) (l : Ledger) : Outcome Response :=
  match selector.resolve s.environment c with
  | .error f => { result := .error f, ledger := l }
  | .ok a => (a.assembled c s.now s.server r provider l).closeTransport s.transport

end Session

end ChatClient
