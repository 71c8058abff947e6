import ChatClient.Request.Fault
import ChatClient.Text.Blank

/-!
# Validation of requests

`Request.validate` finds the first fault of a request: in the tools, the tool choice, the
settings, the stop sequences, and then message after message. The messages are checked in one
pass, which carries along what the messages so far mean for the next one: whether a turn other
than the system's has begun, which calls wait for an answer and which have one, and who spoke
last. A list or an object where one value is looked up among others ends the check without a
fault.
-/

namespace ChatClient

/-- Applies a check to each element in turn, with its position and what was learnt so far. -/
def checkEach {σ α ε : Type} (check : σ → Nat → α → Except ε σ) : σ → Nat → List α → Except ε σ
  | s, _, [] => .ok s
  | s, i, a :: as =>
    match check s i a with
    | .ok s => checkEach check s (i + 1) as
    | .error e => .error e

/-! ## Tools and settings -/

/-- The characters of tool names. -/
def isToolNameChar (c : Char) : Bool := c.isAlphanum || c == '_' || c == '-'

/-- Whether a text can name a tool. -/
def isToolName (s : String) : Bool :=
  let cs := s.toList
  0 < cs.length && cs.length ≤ 64 && cs.all isToolNameChar

/-- Whether a schema is an object that describes an object: its `type`, if there is one, is
`object`. -/
def isObjectSchema (schema : Json) : Bool :=
  schema.isObject &&
    match schema.field? "type" with
    | none => true
    | some (.text t) => t == "object"
    | some _ => false

/-- Checks one tool after tools with the given names. -/
def Tool.check (names : List String) (i : Nat) (tool : Tool) : Except Objection (List String) :=
  match tool.name with
  | .text name =>
    if !isToolName name then refuse (.toolName i) (.badToolName tool.name)
    else if name ∈ names then refuse (.toolName i) (.repeatedToolName name)
    else if !isObjectSchema tool.parameters then refuse (.parameters i) .parametersNotObject
    else .ok (names ++ [name])
  | name => refuse (.toolName i) (.badToolName name)

/-- The modes of tool choice that need tools. -/
def choiceModes : List String := ["auto", "none", "required"]

/-- Checks a tool choice against the names of the tools. -/
def checkToolChoice (choice : Json) (names : List String) : Except Objection Unit :=
  match choice with
  | .null | .text "none" => .ok ()
  | choice =>
    if names.isEmpty then refuse .toolChoice .choiceWithoutTools
    else if !choice.isKey then .error .wrongType
    else if choice.text?.any (· ∈ choiceModes ++ names) then .ok ()
    else refuse .toolChoice (.unknownChoice choice)

/-- Whether a number lies in the range of a setting. -/
def Setting.inRange (s : Setting) (x : Number) : Bool :=
  !(if s.lowIncluded then x.lt s.low else x.le s.low) &&
    match s.high? with
    | some high => !high.lt x
    | none => true

/-- The number that a setting was given, if it is of the right kind. -/
def Setting.number? (s : Setting) : Json → Option Number
  | .int n => some (.int n)
  | .float x => if s.isIntegral then none else some (.float x)
  | _ => none

/-- Checks the value of one setting. -/
def Setting.check (s : Setting) (value : Json) : Except Objection Unit :=
  match value with
  | .null => .ok ()
  | value =>
    match s.number? value with
    | none => refuse (.setting s) (.settingNotNumber s)
    | some x =>
      if !x.isFinite then refuse (.setting s) (.settingNotFinite s)
      else if s.inRange x then .ok ()
      else refuse (.setting s) (.settingOutOfRange s x)

/-- Checks the settings in their order. -/
def checkSettings (value : Setting → Json) : Except Objection Unit :=
  Setting.all.forM fun s => s.check (value s)

/-- Whether a value can be a stop sequence. -/
def isStop : Json → Bool
  | .text s => !s.isEmpty
  | _ => false

/-- Checks stop sequences. -/
def checkStops (stops : List Json) : Except Objection Unit :=
  if maxStopSequences < stops.length then refuse .stop .tooManyStops
  else if stops.all isStop then .ok ()
  else refuse .stop .badStop

/-! ## Messages -/

/-- What the messages so far mean for the next one. -/
structure Turn where
  /-- A message that is not the system's has been seen. -/
  begun : Bool := false
  /-- The ids of the calls that the last assistant message asked for. -/
  outstanding : List Json := []
  /-- Those of them that have been answered. -/
  answered : List Json := []
  /-- Who spoke last. -/
  previous : Option Role := none
  deriving Inhabited

/-- The role of message `i`. -/
def checkRole (i : Nat) (role : Json) : Except Objection Role :=
  if !role.isKey then .error .wrongType
  else
    match role.text?.bind Role.ofName? with
    | some r => .ok r
    | none => refuse (.role i) (.unknownRole role)

/-- The content of message `i`, which is a text. -/
def checkContent (i : Nat) (content : Json) : Except Objection String :=
  match content with
  | .text s => .ok s
  | _ => refuse (.content i) .contentNotText

/-- Checks one call of message `i` after calls with the given ids. -/
def RequestCall.check (i : Nat) (ids : List Json) (j : Nat) (call : RequestCall) :
    Except Objection (List Json) :=
  if !call.id.isGiven then refuse (.callId i j) .callWithoutId
  else if !call.name.isGiven then refuse (.callName i j) .callWithoutName
  else if !call.id.isKey then .error .wrongType
  else if call.id.isAmong ids then refuse (.callId i j) (.repeatedCallId call.id)
  else .ok (ids ++ [call.id])

/-- What an assistant message asks for. -/
def Turn.assistant (i : Nat) (content : String) (calls : List RequestCall) :
    Except Objection Turn :=
  if content.isEmpty ∧ calls.isEmpty then refuse (.content i) .silentAssistant
  else
    (checkEach (RequestCall.check i) [] 0 calls).map fun ids =>
      { begun := true, outstanding := ids, previous := some .assistant }

/-- What a tool message answers. -/
def Turn.tool (t : Turn) (i : Nat) (id : Json) : Except Objection Turn :=
  if !id.isGiven then refuse (.toolCallId i) .answerWithoutId
  else if t.previous ≠ some .assistant ∧ t.previous ≠ some .tool then
    refuse (.role i) .strayAnswer
  else if !id.isKey then .error .wrongType
  else if id.isAmong t.answered then refuse (.toolCallId i) (.answeredTwice id)
  else if !id.isAmong t.outstanding then refuse (.toolCallId i) (.unknownCall id)
  else .ok { t with begun := true, answered := id :: t.answered, previous := some .tool }

/-- Whether a message names a call that it answers. -/
def RequestMessage.namesCall (m : RequestMessage) : Bool :=
  match m.toolCallId with
  | .null => false
  | _ => true

/-- The checks that come before those of a role's own. -/
def Turn.common (t : Turn) (i : Nat) (role : Role) (content : String) (m : RequestMessage) :
    Except Objection Unit :=
  if role = .system ∧ t.begun then refuse (.role i) .lateSystemMessage
  else if !m.toolCalls.isEmpty ∧ role ≠ .assistant then
    refuse (.toolCalls i) .callsOutsideAssistant
  else if m.namesCall ∧ role ≠ .tool then refuse (.toolCallId i) .answerOutsideTool
  else if (role = .system ∨ role = .user) ∧ Text.isBlankText content then
    refuse (.content i) (.blankMessage role)
  else .ok ()

/-- Checks message `i` after the messages that `t` stands for. -/
def Turn.check (t : Turn) (i : Nat) (m : RequestMessage) : Except Objection Turn := do
  let role ← checkRole i m.role
  let content ← checkContent i m.content
  t.common i role content m
  match role with
  | .assistant => Turn.assistant i content m.toolCalls
  | .tool => t.tool i m.toolCallId
  | .user => return { begun := true, previous := some .user }
  | .system => return { begun := t.begun, previous := some .system }

/-- Checks the messages of a conversation. -/
def checkMessages (messages : List RequestMessage) : Except Objection Unit :=
  (checkEach Turn.check {} 0 messages).map fun _ => ()

/-! ## The whole request -/

/-- The first objection to a request, if there is one. -/
def Request.validate (r : Request) : Except Objection Unit := do
  if r.messages.isEmpty then refuse .messages .noMessages
  let names ← checkEach Tool.check [] 0 r.tools
  checkToolChoice r.toolChoice names
  checkSettings r.setting
  match r.stop with
  | none => pure ()
  | some stops => checkStops stops
  checkMessages r.messages

end ChatClient
