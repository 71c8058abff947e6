import ChatClient.Request

/-!
# What can be wrong with a request

A fault is a cause and the place where it was found. The place is a path into the request,
such as `messages[3].tool_call_id`; the cause has the wording.
-/

namespace ChatClient

/-- A place in a request. -/
inductive Place where
  | messages
  | role (message : Nat)
  | content (message : Nat)
  | toolCallId (message : Nat)
  | toolCalls (message : Nat)
  | callId (message call : Nat)
  | callName (message call : Nat)
  | toolName (tool : Nat)
  | parameters (tool : Nat)
  | description
  | toolChoice
  | setting (s : Setting)
  | stop
  deriving DecidableEq

namespace Place

/-- The position of the message that a place lies in. -/
def message? : Place → Option Nat
  | role i | content i | toolCallId i | toolCalls i | callId i _ | callName i _ => some i
  | _ => none

/-- The path of a place. -/
def path : Place → String
  | messages => "messages"
  | role i => s!"messages[{i}].role"
  | content i => s!"messages[{i}].content"
  | toolCallId i => s!"messages[{i}].tool_call_id"
  | toolCalls i => s!"messages[{i}].tool_calls"
  | callId i j => s!"messages[{i}].tool_calls[{j}].id"
  | callName i j => s!"messages[{i}].tool_calls[{j}].name"
  | toolName i => s!"tools[{i}].name"
  | parameters i => s!"tools[{i}].parameters"
  | description => "description"
  | toolChoice => "tool_choice"
  | setting s => s.name
  | stop => "stop"

end Place

/-- How many stop sequences a request may have. -/
def maxStopSequences : Nat := 4

/-- Why a request is refused. -/
inductive Refusal where
  | noMessages
  | unknownRole (role : Json)
  | contentNotText
  | lateSystemMessage
  | callsOutsideAssistant
  | answerOutsideTool
  | blankMessage (role : Role)
  | silentAssistant
  | callWithoutId
  | callWithoutName
  | repeatedCallId (id : Json)
  | answerWithoutId
  | strayAnswer
  | answeredTwice (id : Json)
  | unknownCall (id : Json)
  | badToolName (name : Json)
  | repeatedToolName (name : String)
  | parametersNotObject
  | choiceWithoutTools
  | unknownChoice (choice : Json)
  | settingNotNumber (s : Setting)
  | settingNotFinite (s : Setting)
  | settingOutOfRange (s : Setting) (value : Number)
  | tooManyStops
  | badStop
  | undocumentedTool (name : String)
  | unreadableArguments (id : Json)
  | argumentsNotObject (id : Json)

namespace Refusal

/-- A range with its brackets: an end that does not belong to it has a parenthesis. -/
def rangeText (s : Setting) : String :=
  (if s.lowIncluded then "[" else "(") ++ s.low.text ++ ", " ++
    (match s.high? with
      | some high => high.text
      | none => "inf") ++ "]"

/-- The wording of a cause. -/
def message : Refusal → String
  | noMessages => "Request has no messages"
  | unknownRole role => "Unknown role " ++ role.inner
  | contentNotText => "Message content must be a string"
  | lateSystemMessage => "System messages must precede all other messages"
  | callsOutsideAssistant => "Only assistant messages may carry tool calls"
  | answerOutsideTool => "Only tool messages may carry a tool_call_id"
  | blankMessage role => role.name ++ " message is empty"
  | silentAssistant => "Assistant message needs content or tool calls"
  | callWithoutId => "Tool call id is empty"
  | callWithoutName => "Tool call name is empty"
  | repeatedCallId id => "Duplicate tool call id " ++ id.inner
  | answerWithoutId => "Tool message requires tool_call_id"
  | strayAnswer => "Tool message must follow an assistant turn that requested tools"
  | answeredTwice id => "Tool call " ++ id.inner ++ " was already answered"
  | unknownCall id => "Tool call " ++ id.inner ++
      " does not match any call from the preceding assistant turn"
  | badToolName name => "Invalid tool name " ++ name.inner
  | repeatedToolName name => "Duplicate tool name " ++ Text.quoted name
  | parametersNotObject => "Tool parameters must be a JSON-schema object"
  | choiceWithoutTools => "tool_choice given without tools"
  | unknownChoice choice => "tool_choice names unknown tool " ++ choice.inner
  | settingNotNumber s => s.name ++ " has the wrong type"
  | settingNotFinite s => s.name ++ " must be a finite number"
  | settingOutOfRange s value => s.name ++ "=" ++ value.text ++ " is out of range " ++ rangeText s
  | tooManyStops => s!"At most {maxStopSequences} stop sequences are supported"
  | badStop => "Stop sequences must be non-empty strings"
  | undocumentedTool name => "Tool description is missing for tool " ++ Text.quoted name
  | unreadableArguments id => "Tool call " ++ id.inner ++ " arguments are not valid JSON"
  | argumentsNotObject id => "Tool call " ++ id.inner ++
      " arguments must be a JSON object for gemini"

/-- Advice that goes with a cause. -/
def hint? : Refusal → Option String
  | noMessages => some "Add at least one message."
  | badToolName _ => some "Use 1-64 characters from [A-Za-z0-9_-]."
  | _ => none

end Refusal

/-- A cause and where it was found. -/
structure RequestFault where
  place : Place
  cause : Refusal

/-- What stops a check: a fault, a value of a type that cannot be checked at all, or a text
that is nested too deep to be read. -/
inductive Objection where
  | fault (f : RequestFault)
  | wrongType
  | tooDeep

/-- Refuses a request. -/
def refuse {α : Type} (place : Place) (cause : Refusal) : Except Objection α :=
  .error (.fault ⟨place, cause⟩)

end ChatClient
