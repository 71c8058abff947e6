import ChatClient.Json.Nesting
import ChatClient.Message

/-!
# Requests

A request is a conversation, the tools that the model may call, and settings for
generation. Its values are kept as the caller gave them, of whatever type they are, so that a
request can be rendered without having been validated; validation lets only the right types
through. A message of a response becomes one of a request by `Message.toRequest`.
-/

namespace ChatClient

/-- A tool call that the model asked for. -/
structure RequestCall where
  id : Json
  name : Json
  arguments : Json := .text "\x7b\x7d"
  deriving Inhabited

/-- What reading the arguments of a call gives. -/
inductive Loaded where
  | value (v : Json)
  /-- The text is no JSON text. -/
  | unreadable
  /-- The text is nested too deep for the reader. -/
  | tooDeep
  /-- There is no text to read. -/
  | unusable

/-- Reads the arguments of a call with so much room; where none are given there are no
arguments. -/
def RequestCall.load (room : Nat) (c : RequestCall) : Loaded :=
  match c.arguments with
  | .text s =>
    match Json.bounded room loadArguments? s with
    | .ok v => .value v
    | .error .malformed => .unreadable
    | .error .tooDeep => .tooDeep
  | v => if v.isGiven then .unusable else .value (.object [])

/-- One turn of a conversation. -/
structure RequestMessage where
  role : Json
  content : Json := .text ""
  /-- The call that a tool message answers. -/
  toolCallId : Json := .null
  /-- The calls that an assistant message asks for. -/
  toolCalls : List RequestCall := []
  deriving Inhabited

/-- Whether someone in a role speaks. -/
def RequestMessage.isBy (m : RequestMessage) (r : Role) : Bool := m.role.text? == some r.name

/-- A call of a response in a request. -/
def ToolCall.toRequest (c : ToolCall) : RequestCall :=
  { id := .text c.id, name := .text c.name, arguments := .text c.arguments }

/-- A message of a response in a request. -/
def Message.toRequest (m : Message) : RequestMessage :=
  { role := .text m.role
    content := .text m.content
    toolCallId := .ofText? m.toolCallId
    toolCalls := m.toolCalls.map ToolCall.toRequest }

/-- A function the model may call, with a JSON schema for its arguments. -/
structure Tool where
  name : Json
  description : Json := .text ""
  parameters : Json := .object [("type", .text "object"), ("properties", .object [])]
  deriving Inhabited

/-- The settings that are numbers, in the order in which they are validated. -/
inductive Setting where
  | temperature
  | topP
  | topK
  | maxTokens
  | seed
  deriving DecidableEq

namespace Setting

/-- All settings, in the order of validation. -/
def all : List Setting := [temperature, topP, topK, maxTokens, seed]

/-- The name of a setting. -/
def name : Setting → String
  | temperature => "temperature"
  | topP => "top_p"
  | topK => "top_k"
  | maxTokens => "max_tokens"
  | seed => "seed"

/-- Whether only whole numbers are allowed. -/
def isIntegral : Setting → Bool
  | temperature | topP => false
  | topK | maxTokens | seed => true

/-- The lower end of the range. -/
def low : Setting → Number
  | temperature | topP => .float 0.0
  | topK | maxTokens => .int 1
  | seed => .int 0

/-- Whether the lower end belongs to the range. -/
def lowIncluded : Setting → Bool
  | topP => false
  | _ => true

/-- The upper end of the range, which belongs to it. -/
def high? : Setting → Option Number
  | temperature => some (.float 2.0)
  | topP => some (.float 1.0)
  | topK | maxTokens | seed => none

end Setting

/-- A request to a chat service. A setting that is null is not given. -/
structure Request where
  messages : List RequestMessage
  tools : List Tool := []
  toolChoice : Json := .null
  temperature : Json := .null
  maxTokens : Json := .null
  topP : Json := .null
  topK : Json := .null
  seed : Json := .null
  stop : Option (List Json) := none
  deriving Inhabited

/-- The value of a setting. -/
def Request.setting (r : Request) : Setting → Json
  | .temperature => r.temperature
  | .topP => r.topP
  | .topK => r.topK
  | .maxTokens => r.maxTokens
  | .seed => r.seed

/-- The entry of a body for a setting, if that is given. -/
def renderSetting (name : String) : Json → Entries
  | .null => []
  | v => [(name, v)]

end ChatClient
