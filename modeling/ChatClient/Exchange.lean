import ChatClient.Server

/-!
# Exchanges

One request and what comes of it. The request has to be encoded first; then the whole
answer has to arrive in time, and its status has to be one of success. An answer that has
begun is let go again, however the exchange ends.
-/

namespace ChatClient

/-- What comes of one request. -/
structure Exchange (α : Type) where
  result : Except Failure α
  /-- The request as the server received it, if it was sent. -/
  sent : Option SentRequest := none
  /-- An answer has begun. -/
  opened : Bool := false
  /-- The answer has been let go. -/
  closed : Bool := false

/-- Words for the failures of one phase of an exchange. -/
structure Phase where
  /-- The deadline has come. -/
  late : Number → String
  /-- The network says that time has run out. -/
  timedOut : Number → String
  /-- The connection is lost. -/
  lost : NetworkFault → String → String

/-- A limit as messages show it. -/
def limitText (limit : Number) : String := limit.text ++ "s"

/-- What keeps a phase from going on, as a failure. -/
def Phase.failure (p : Phase) (limit : Number) : Interruption → Failure
  | .outOfTime => .timeout (p.late limit) (some limit)
  | .unending => .outside .unending
  | .fault f message =>
    match f.nature with
    | .time => .timeout (p.timedOut limit) (some limit)
    | .connection => .connection (p.lost f message) none
    | .neither => .outside (.network f)

/-- The words for an exchange that reads an answer whole. -/
def wholeExchange : Phase where
  late := fun limit => "Request timed out after " ++ limitText limit
  timedOut := fun limit => "Request timed out after " ++ limitText limit
  lost := fun f _ => "Connection failed: " ++ f.name

/-- How much of a body a message quotes, in bytes. -/
def previewSize : Nat := 300

/-- The failure that an answer without success is. -/
def statusFailure (a : Answer) (body : List UInt8) : Failure :=
  let preview := Text.Utf8.textOf (body.take previewSize)
  let message := "HTTP " ++ toString a.status
  .status (if preview.isEmpty then message else message ++ ": " ++ preview) a.status
    (Headers.joined a.headers) body

/-- The response that an answer with its body is, or the failure. -/
def Answer.response (a : Answer) (body : List UInt8) : Except Failure WireResponse :=
  if a.succeeds then .ok { statusCode := a.status, headers := Headers.joined a.headers, body }
  else .error (statusFailure a body)

/-- Sends a request and reads the answer, all within the limit. -/
def send (r : WireRequest) (limit : Number) (reply : Reply) : Exchange WireResponse :=
  match r.encode with
  | .error f => { result := .error f }
  | .ok sent =>
    match reply.begin { limit } with
    | .error i => { result := .error (wholeExchange.failure limit i), sent := some sent }
    | .ok (d, a) =>
      { result := ((a.body d).mapError (wholeExchange.failure limit)).bind a.response
        sent := some sent, opened := true, closed := true }

end ChatClient
