import ChatClient.Json.Reader

/-!
# Messages

A conversation is a list of messages. Who speaks is written as a text: the four roles are
the texts that validation lets through. An assistant message may ask for tool calls, and a
tool message answers one of them by its id.
-/

namespace ChatClient

/-- A tool call that the model asks for. Its arguments are a JSON text that nobody has read
yet. -/
structure ToolCall where
  id : String
  name : String
  arguments : String := "\x7b\x7d"
  deriving DecidableEq, Inhabited

/-- Arguments as a value; an empty text stands for no arguments. -/
def loadArguments? (arguments : String) : Option Json :=
  if arguments.isEmpty then some (.object []) else Json.read? arguments

theorem loadArguments?_of_ne {s : String} (hs : s ≠ "") : loadArguments? s = Json.read? s :=
  if_neg (by simpa using hs)

/-- The arguments of a call as a value. -/
def ToolCall.load? (call : ToolCall) : Option Json := loadArguments? call.arguments

/-- Who speaks. -/
inductive Role where
  | system
  | user
  | assistant
  | tool
  deriving DecidableEq

namespace Role

/-- The text of a role. -/
def name : Role → String
  | system => "system"
  | user => "user"
  | assistant => "assistant"
  | tool => "tool"

/-- The role that a text names. -/
def ofName? (s : String) : Option Role :=
  if s = "system" then some system
  else if s = "user" then some user
  else if s = "assistant" then some assistant
  else if s = "tool" then some tool
  else none

@[simp] theorem ofName?_name (r : Role) : ofName? r.name = some r := by
  cases r <;> simp [ofName?, name]

theorem name_of_ofName? {s : String} {r : Role} (h : ofName? s = some r) : r.name = s := by
  unfold ofName? at h
  split at h
  · next e => obtain rfl := Option.some.inj h; exact e.symm
  · split at h
    · next e => obtain rfl := Option.some.inj h; exact e.symm
    · split at h
      · next e => obtain rfl := Option.some.inj h; exact e.symm
      · split at h
        · next e => obtain rfl := Option.some.inj h; exact e.symm
        · simp at h

end Role

/-- One turn of a conversation. -/
structure Message where
  role : String
  content : String := ""
  /-- The call that a tool message answers. -/
  toolCallId : Option String := none
  /-- The calls that an assistant message asks for. -/
  toolCalls : List ToolCall := []
  deriving DecidableEq, Inhabited

namespace Message

/-- Instructions to the model. -/
def system (content : String) : Message := { role := Role.system.name, content }

/-- What the user says. -/
def user (content : String) : Message := { role := Role.user.name, content }

/-- What the model says, and the calls it asks for. -/
def assistant (content : String) (toolCalls : List ToolCall) : Message :=
  { role := Role.assistant.name, content, toolCalls }

/-- The result of a tool call. -/
def tool (toolCallId content : String) : Message :=
  { role := Role.tool.name, content, toolCallId := some toolCallId }

end Message

end ChatClient
