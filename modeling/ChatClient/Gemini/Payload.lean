import ChatClient.Payload.Decoder
import ChatClient.Response

/-!
# Payloads of Gemini

The parts of a generated response that this library reads; an event of a streamed response
has the same form. A field may be written in camel case or with underscores, and camel case
comes first.
-/

namespace ChatClient.Gemini

open Payload

/-- A function call. -/
structure FunctionCall where
  id : Option String
  name : String
  args : Option Entries

/-- A call needs a name; its arguments are an object. -/
def functionCall : Decoder FunctionCall := fields fun es =>
  FunctionCall.mk <$> optional es ["id"] text
    <*> required es ["name"] text
    <*> optional es ["args"] object

/-- A part of a content: some text, a thought, or a function call. -/
structure PartPayload where
  text : Option String
  thought : Option Bool
  functionCall : Option FunctionCall

/-- A part may be of several kinds at once. -/
def partPayload : Decoder PartPayload := fields fun es =>
  PartPayload.mk <$> optional es ["text"] text
    <*> optional es ["thought"] flag
    <*> optional es ["functionCall", "function_call"] functionCall

/-- What one side says. -/
structure ContentPayload where
  role : Option String
  parts : List PartPayload

/-- A content may have no parts. -/
def contentPayload : Decoder ContentPayload := fields fun es =>
  ContentPayload.mk <$> optional es ["role"] text
    <*> withDefault es ["parts"] (listOf partPayload) []

/-- A candidate for the answer. -/
structure Candidate where
  content : Option ContentPayload
  finishReason : Option String

/-- A candidate may have no content, and no reason for its end while it goes on. -/
def candidate : Decoder Candidate := fields fun es =>
  Candidate.mk <$> optional es ["content"] contentPayload
    <*> optional es ["finishReason", "finish_reason"] text

/-- The parts of a candidate; one without content has none. -/
def Candidate.parts (c : Candidate) : List PartPayload := (c.content.map (·.parts)).getD []

/-- Token counts. -/
def usage : Decoder Usage := fields fun es =>
  Usage.mk <$> optional es ["promptTokenCount", "prompt_token_count"] whole
    <*> optional es ["candidatesTokenCount", "candidates_token_count"] whole
    <*> optional es ["totalTokenCount", "total_token_count"] whole

/-- Why a prompt was blocked. -/
def promptFeedback : Decoder (Option String) := fields fun es =>
  optional es ["blockReason", "block_reason"] text

/-- A generated response. -/
structure Generated where
  candidates : List Candidate
  usage : Option Usage
  promptFeedback : Option (Option String)
  modelVersion : Option String
  responseId : Option String

/-- A response may have no candidates. -/
def generated : Decoder Generated := fields fun es =>
  Generated.mk <$> withDefault es ["candidates"] (listOf candidate) []
    <*> optional es ["usageMetadata", "usage_metadata"] usage
    <*> optional es ["promptFeedback", "prompt_feedback"] promptFeedback
    <*> optional es ["modelVersion", "model_version"] text
    <*> optional es ["responseId", "response_id"] text

/-- Why the prompt of a response was blocked, if it was. -/
def Generated.blockReason? (g : Generated) : Option String :=
  g.promptFeedback.join.filter fun reason => !reason.isEmpty

end ChatClient.Gemini
