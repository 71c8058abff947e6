import ChatClient.Message

/-!
# Responses

What a service answers, in one form for all services.
-/

namespace ChatClient

/-- Token counts; a service may leave out any of them. -/
structure Usage where
  promptTokens : Option Int := none
  completionTokens : Option Int := none
  totalTokens : Option Int := none
  deriving DecidableEq, Inhabited

/-- Why a response ended. The five named reasons are those of this library; a stream may be
assembled from chunks that give another one. -/
inductive FinishReason where
  | stop
  | toolCalls
  | length
  | contentFilter
  | error
  | other (name : String)
  deriving DecidableEq, Inhabited

namespace FinishReason

/-- The text of a finish reason. -/
def name : FinishReason → String
  | stop => "stop"
  | toolCalls => "tool_calls"
  | length => "length"
  | contentFilter => "content_filter"
  | error => "error"
  | other s => s

/-- The finish reason that a text names. -/
def ofName (s : String) : FinishReason :=
  if s = "stop" then stop
  else if s = "tool_calls" then toolCalls
  else if s = "length" then length
  else if s = "content_filter" then contentFilter
  else if s = "error" then error
  else other s

/-- Whether a finish reason is one of the five. -/
def isKnown : FinishReason → Bool
  | other _ => false
  | _ => true

end FinishReason

/-- A complete response. -/
structure Response where
  message : Message
  finishReason : FinishReason
  usage : Option Usage := none
  model : Option String := none
  provider : Option String := none
  responseId : Option String := none
  /-- The finish reason in the words of the service. -/
  rawFinishReason : Option String := none
  deriving DecidableEq, Inhabited

/-- The text of a response. -/
def Response.text (r : Response) : String := r.message.content

/-- The calls that a response asks for. -/
def Response.toolCalls (r : Response) : List ToolCall := r.message.toolCalls

end ChatClient
