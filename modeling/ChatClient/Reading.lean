import ChatClient.Adapter
import ChatClient.Json.Bytes
import ChatClient.Ledger
import ChatClient.Payload.Decoder
import ChatClient.Stream.Chunk

/-!
# Reading answers

What the readers of all services share. Reading may number tool calls that came without an
id and may log, so it carries a ledger along; both also count when reading fails.
-/

namespace ChatClient

/-- A computation that may fail and writes to a ledger. -/
abbrev Reading (α : Type) := ExceptT Failure (StateM Ledger) α

namespace Reading

/-- Logs a line. -/
def log (level : LogLevel) (text : String) : Reading Unit :=
  modify fun l => l.log level text

/-- The id of the `n`-th call that came without one. -/
def callId (n : Nat) : String := "call_" ++ String.ofList (Text.hexDigits 12 n)

/-- Makes the next id. -/
def freshCallId : Reading String :=
  modifyGet fun l => (callId (l.callIds + 1), { l with callIds := l.callIds + 1 })

/-- The id that came with a call, or the next one. -/
def idOr (id : Option String) : Reading String :=
  match given? id with
  | some id => pure id
  | none => freshCallId

/-- The body is not as it should be. -/
def malformed {α : Type} (provider : Provider) (message : String) : Reading α :=
  throw (.malformed message (some provider.name) none)

/-- Reads a payload; the first three faulty paths are reported. -/
def decode {α : Type} (provider : Provider) (d : Payload.Decoder α) (v : Json) : Reading α :=
  match d v with
  | .ok a => pure a
  | .faulty ps => malformed provider (provider.name ++ " response is malformed (" ++
      Text.joinWith ", " ((ps.take 3).map Payload.pathText) ++ ")")

/-- Reads the JSON value of a body. -/
def body (provider : Option String) (bs : List UInt8) : Except Failure Json :=
  match Json.readBytes? bs with
  | some v => .ok v
  | none => .error (.malformed "Response body is not valid JSON" provider none)

end Reading

/-! ## Finish reasons -/

/-- The finish codes of a service. -/
def Provider.finishCodes : Provider → List (String × FinishReason)
  | .groq => [
    ("stop", .stop),
    ("length", .length),
    ("tool_calls", .toolCalls),
    ("function_call", .toolCalls),
    ("content_filter", .contentFilter)]
  | .gemini => [
    ("STOP", .stop),
    ("MAX_TOKENS", .length),
    ("SAFETY", .contentFilter),
    ("RECITATION", .contentFilter),
    ("BLOCKLIST", .contentFilter),
    ("PROHIBITED_CONTENT", .contentFilter),
    ("SPII", .contentFilter),
    ("IMAGE_SAFETY", .contentFilter),
    ("MALFORMED_FUNCTION_CALL", .error),
    ("OTHER", .error),
    ("FINISH_REASON_UNSPECIFIED", .error)]

/-- The finish reason of a code, if the service is known to use that code. -/
def Provider.finishReason? (p : Provider) (code : String) : Option FinishReason :=
  (p.finishCodes.find? (·.1 == code)).map (·.2)

/-- The finish reason of a code; an unknown code is a failure. -/
def Provider.finishReason (p : Provider) (code : String) : Except Failure FinishReason :=
  match p.finishReason? code with
  | some reason => .ok reason
  | none => .error (.unsupportedFinish code (some p.name) none)

/-- The warning about a finish code that is not known. -/
def Provider.finishWarning (p : Provider) (code : String) : String :=
  "Unsupported finish reason: " ++ Text.quoted code ++ " from " ++ p.name ++
    "; reporting finish reason 'error'"

/-- The finish reason of a code; an unknown code counts as an error and is logged. -/
def Reading.finishReason (p : Provider) (code : String) : Reading FinishReason :=
  match p.finishReason? code with
  | some reason => pure reason
  | none => do
    Reading.log .warning (p.finishWarning code)
    pure .error

/-! ## Responses -/

/-- What a service answered, before it is known to be consistent. -/
structure Answered where
  text : String
  toolCalls : List ToolCall
  finishReason : FinishReason
  rawFinishReason : Option String
  usage : Option Usage
  model : Option String
  responseId : Option String

/-- The response of an answer: each call has a name, calls turn a stop into a request for
tool calls, and a request for tool calls has calls. -/
def Answered.response (p : Provider) (a : Answered) : Except Failure Response :=
  if a.toolCalls.any (·.name.isEmpty) then
    .error (.malformed (p.name ++ " returned a tool call without a name") (some p.name) none)
  else
    let reason :=
      if !a.toolCalls.isEmpty ∧ a.finishReason = .stop then .toolCalls else a.finishReason
    if reason = .toolCalls ∧ a.toolCalls.isEmpty then
      .error (.malformed (p.name ++ " reported tool_calls but returned none") (some p.name) none)
    else .ok
      { message := .assistant a.text a.toolCalls
        finishReason := reason
        usage := a.usage
        model := a.model
        provider := some p.name
        responseId := a.responseId
        rawFinishReason := a.rawFinishReason }

/-! ## Errors in payloads -/

/-- The entries under `error`, where services put their details; none if there are none. -/
def errorObject (body : Json) : Entries :=
  match body.field? "error" with
  | some (.object es) => es
  | _ => []

/-- The failure that a stream reports about itself, if it does. -/
def Adapter.streamFailure? (a : Adapter) (payload : Json) : Option Failure :=
  let details := errorObject payload
  if details.isEmpty then none
  else
    let message := ((details.get? "message").map Json.shown).getD "unknown error"
    some (.interrupted (a.redact (a.name ++ " stream failed: " ++ message)) none)

/-- The value of a stream event. -/
def Reading.event (provider : Provider) (data : String) : Reading Json :=
  match Json.read? data with
  | some v => pure v
  | none => Reading.malformed provider (provider.name ++ " stream event is not valid JSON")

end ChatClient
