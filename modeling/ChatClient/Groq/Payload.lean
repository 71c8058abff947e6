import ChatClient.Payload.Decoder
import ChatClient.Response

/-!
# Payloads of Groq

The parts of a chat completion, and of an event of a streamed one, that this library
reads.
-/

namespace ChatClient.Groq

open Payload

/-- Token counts. -/
def usage : Decoder Usage := fields fun es =>
  Usage.mk <$> optional es ["prompt_tokens"] whole
    <*> optional es ["completion_tokens"] whole
    <*> optional es ["total_tokens"] whole

/-! ## Complete answers -/

/-- The function of a tool call. -/
structure CallFunction where
  name : String
  arguments : Option String

/-- A function needs a name. -/
def callFunction : Decoder CallFunction := fields fun es =>
  CallFunction.mk <$> required es ["name"] text <*> optional es ["arguments"] text

/-- A tool call of a completion. -/
structure Call where
  id : Option String
  function : CallFunction

/-- A call needs a function, and may have no id. -/
def call : Decoder Call := fields fun es =>
  Call.mk <$> optional es ["id"] text <*> required es ["function"] callFunction

/-- What a choice of a completion says. -/
structure Answer where
  content : Option String
  toolCalls : Option (List Call)

/-- An answer may be empty. -/
def answer : Decoder Answer := fields fun es =>
  Answer.mk <$> optional es ["content"] text <*> optional es ["tool_calls"] (listOf call)

/-- One of the answers of a completion. -/
structure Choice where
  message : Answer
  finishReason : String

/-- A choice needs an answer and the reason for its end. -/
def choice : Decoder Choice := fields fun es =>
  Choice.mk <$> required es ["message"] answer <*> required es ["finish_reason"] text

/-- The first of a list of choices, which must not be empty. -/
def firstChoice : Decoder Choice := fun v =>
  match listOf choice v with
  | .ok (c :: _) => .ok c
  | .ok [] => bad
  | .faulty ps => .faulty ps

/-- A complete answer. -/
structure Completion where
  id : Option String
  model : Option String
  choice : Choice
  usage : Option Usage

/-- A completion needs a choice. -/
def completion : Decoder Completion := fields fun es =>
  Completion.mk <$> optional es ["id"] text
    <*> optional es ["model"] text
    <*> required es ["choices"] firstChoice
    <*> optional es ["usage"] usage

/-! ## Events of streamed answers -/

/-- The parts of a function that a fragment of a call has. -/
structure DeltaFunction where
  name : Option String
  arguments : Option String

/-- A fragment may have either part, both or neither. -/
def deltaFunction : Decoder DeltaFunction := fields fun es =>
  DeltaFunction.mk <$> optional es ["name"] text <*> optional es ["arguments"] text

/-- A fragment of a tool call. -/
structure CallDelta where
  index : Int
  id : Option String
  function : Option DeltaFunction

/-- A fragment without an index belongs to the first call. -/
def callDelta : Decoder CallDelta := fields fun es =>
  CallDelta.mk <$> withDefault es ["index"] whole 0
    <*> optional es ["id"] text
    <*> optional es ["function"] deltaFunction

/-- What an event adds to an answer. -/
structure Delta where
  content : Option String := none
  toolCalls : Option (List CallDelta) := none

/-- An event may add nothing. -/
def delta : Decoder Delta := fields fun es =>
  Delta.mk <$> optional es ["content"] text <*> optional es ["tool_calls"] (listOf callDelta)

/-- One of the answers that an event belongs to. -/
structure StreamChoice where
  delta : Delta
  finishReason : Option String

/-- A choice without a delta adds nothing. -/
def streamChoice : Decoder StreamChoice := fields fun es =>
  StreamChoice.mk <$> withDefault es ["delta"] delta {} <*> optional es ["finish_reason"] text

/-- The usage among the fields of the service's own. -/
def ownUsage : Decoder (Option Usage) := fields fun es => optional es ["usage"] usage

/-- An event of a streamed completion. -/
structure StreamEvent where
  id : Option String
  model : Option String
  choices : List StreamChoice
  plainUsage : Option Usage
  ownUsage : Option (Option Usage)

/-- An event may have no choices. -/
def streamEvent : Decoder StreamEvent := fields fun es =>
  StreamEvent.mk <$> optional es ["id"] text
    <*> optional es ["model"] text
    <*> withDefault es ["choices"] (listOf streamChoice) []
    <*> optional es ["usage"] usage
    <*> optional es ["x_groq"] ownUsage

/-- The usage of an event: the service's own field comes before the one beside the
choices. -/
def StreamEvent.usage (e : StreamEvent) : Option Usage := e.ownUsage.join.or e.plainUsage

end ChatClient.Groq
