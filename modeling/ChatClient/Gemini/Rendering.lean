import ChatClient.Adapter
import ChatClient.Log
import ChatClient.Wire

/-!
# Writing requests for Gemini

A conversation becomes a list of contents, each a turn of the user or of the model. The
results of tool calls are a turn of the user, and consecutive ones share a turn. The system
messages become the system instruction; where there is no place for one, their text is
folded into the first turn in which the user speaks.
-/

namespace ChatClient.Gemini

/-- A part of a turn. -/
inductive Part where
  | text (v : Json)
  | call (id name : Json) (args : Entries)
  | result (id name : Json) (response : Entries)

/-- A turn: the user's, or the model's. -/
structure Turn where
  ofModel : Bool
  parts : List Part

/-- Whether a part is the result of a call. -/
def Part.isResult : Part → Bool
  | .result _ _ _ => true
  | _ => false

/-! ## The turns of a conversation -/

/-- The arguments of a call of message `i`, which must be an object. -/
def callArguments (room i : Nat) (c : RequestCall) : Except Objection Entries :=
  match c.load room with
  | .value (.object args) => .ok args
  | .value _ => refuse (.toolCalls i) (.argumentsNotObject c.id)
  | .unreadable => refuse (.toolCalls i) (.unreadableArguments c.id)
  | .tooDeep => .error .tooDeep
  | .unusable => .error .wrongType

/-- What a tool said, as an object: itself if it is one, else as a result. A text that is no
value is a result as well, but not one that is nested too deep. -/
def resultObject (room : Nat) (content : String) : Except Objection Entries :=
  match Json.bounded room Json.read? content with
  | .ok (.object es) => .ok es
  | .ok v => .ok [("result", v)]
  | .error .malformed => .ok [("result", .text content)]
  | .error .tooDeep => .error .tooDeep

/-- The conversation so far: the turns, last one first, the names of the calls by id, last
one first, and whether the last turn holds results. -/
structure Progress where
  turns : List Turn := []
  callNames : List (Json × Json) := []
  afterResult : Bool := false

/-- The name under which a result is reported. -/
def Progress.callName (p : Progress) (id : Json) : Json :=
  ((p.callNames.find? fun (known, _) => id.sameKey known).map (·.2)).getD (.text "unknown_tool")

/-- Adds the result of a call, to the last turn if that holds results. -/
def Progress.addResult (p : Progress) (part : Part) : Progress :=
  match p.afterResult, p.turns with
  | true, t :: ts => { p with turns := { t with parts := t.parts ++ [part] } :: ts }
  | _, ts => { p with turns := { ofModel := false, parts := [part] } :: ts, afterResult := true }

theorem Progress.callNames_addResult (p : Progress) (part : Part) :
    (p.addResult part).callNames = p.callNames := by
  unfold addResult
  split <;> rfl

/-- The id under which a tool message answers; an empty text if none is given. -/
def answerId (m : RequestMessage) : Json := if m.toolCallId.isGiven then m.toolCallId else .text ""

/-- What a tool message reports. -/
def Progress.resultPart (room : Nat) (p : Progress) (m : RequestMessage) : Except Objection Part :=
  if !(answerId m).isKey then .error .wrongType
  else
    match m.content with
    | .text content =>
      (resultObject room content).map (.result (answerId m) (p.callName (answerId m)) ·)
    | _ => .error .wrongType

/-- The calls of message `i` as parts. -/
def callParts (room i : Nat) : List RequestCall → Except Objection (List Part)
  | [] => .ok []
  | c :: cs => do
    if !c.id.isKey then throw .wrongType
    let args ← callArguments room i c
    let rest ← callParts room i cs
    return .call c.id c.name args :: rest

/-- Adds message `i`. -/
def Progress.add (room : Nat) (p : Progress) (i : Nat) (m : RequestMessage) :
    Except Objection Progress :=
  if m.isBy .system then .ok p
  else if m.isBy .tool then (p.resultPart room m).map p.addResult
  else
    (callParts room i m.toolCalls).map fun calls =>
      { turns :=
          { ofModel := m.isBy .assistant
            parts := (if m.content.isGiven then [.text m.content] else []) ++ calls } :: p.turns
        callNames := (m.toolCalls.map fun c => (c.id, c.name)).reverse ++ p.callNames
        afterResult := false }

/-- Adds messages from position `i` on. -/
def Progress.addAll (room : Nat) (p : Progress) :
    Nat → List RequestMessage → Except Objection Progress
  | _, [] => .ok p
  | i, m :: ms =>
    match p.add room i m with
    | .ok p => p.addAll room (i + 1) ms
    | .error e => .error e

/-- The turns of a conversation. -/
def turns (room : Nat) (messages : List RequestMessage) : Except Objection (List Turn) :=
  (Progress.addAll room {} 0 messages).map fun p => p.turns.reverse

/-! ## System messages -/

/-- The texts of the system messages, with an empty line between them. -/
def systemText? (messages : List RequestMessage) : Except Objection (Option String) :=
  match (messages.filter (·.isBy .system)).map (·.content) with
  | [] => .ok none
  | contents =>
    match contents.mapM Json.text? with
    | some texts => .ok (some (Text.joinWith "\n\n" texts))
    | none => .error .wrongType

/-- Whether the user speaks in a turn. -/
def Turn.isSpoken (t : Turn) : Bool := !t.ofModel && !t.parts.any Part.isResult

/-- Puts a text in front of the first turn in which the user speaks. -/
def foldInto? (system : String) : List Turn → Option (List Turn)
  | [] => none
  | t :: ts =>
    if t.isSpoken then some ({ t with parts := .text (.text (system ++ "\n\n")) :: t.parts } :: ts)
    else (foldInto? system ts).map (t :: ·)

/-- The turns with the system text folded in; without a turn of the user's it is one. -/
def foldSystem (system : String) (ts : List Turn) : List Turn :=
  (foldInto? system ts).getD ({ ofModel := false, parts := [.text (.text system)] } :: ts)

/-- Whether a text starts with another one. -/
def startsWith (s start : String) : Bool := (Text.after? start.toList s.toList).isSome

/-- A model's name without the path in front of it. -/
def bareModel (model : String) : String :=
  match Text.after? "models/".toList model.toList with
  | some rest => String.ofList rest
  | none => model

/-- Whether a model takes a system instruction. -/
def takesSystemInstruction (a : Adapter) (model : String) : Bool :=
  a.systemInstruction && !startsWith (bareModel model) "gemma-"

/-! ## The body -/

/-- A part as it is sent. -/
def Part.json : Part → Json
  | .text v => .object [("text", v)]
  | .call id name args => .object [("functionCall", .object [
      ("id", id), ("name", name), ("args", .object args)])]
  | .result id name response => .object [("functionResponse", .object [
      ("id", id), ("name", name), ("response", .object response)])]

/-- A turn as it is sent. -/
def Turn.json (t : Turn) : Json :=
  .object [
    ("role", .text (if t.ofModel then "model" else "user")),
    ("parts", .list (t.parts.map Part.json))]

/-- The declaration of a tool. -/
def renderTool (t : Tool) : Json :=
  .object [
    ("name", t.name), ("description", t.description), ("parameters", t.parameters)]

/-- How functions may be called: a mode, and for one that must be called its name. -/
def renderChoice (choice : Json) : Json :=
  let config :=
    match choice with
    | .text "auto" => [("mode", .text "AUTO")]
    | .text "none" => [("mode", .text "NONE")]
    | .text "required" => [("mode", .text "ANY")]
    | choice => [("mode", .text "ANY"), ("allowedFunctionNames", Json.list [choice])]
  .object [("functionCallingConfig", .object config)]

/-- The settings that are given. -/
def generationConfig (r : Request) : Entries :=
  renderSetting "temperature" r.temperature ++
  renderSetting "topP" r.topP ++
  renderSetting "topK" r.topK ++
  renderSetting "maxOutputTokens" r.maxTokens ++
  (match r.stop with
    | some stop => [("stopSequences", .list stop)]
    | none => []) ++
  renderSetting "seed" r.seed

/-- Whether the system text has to be folded into the turns. -/
def folds (a : Adapter) (model : String) (ts : List Turn) : Bool :=
  ts.isEmpty || !takesSystemInstruction a model

/-- The body of a request with the given system text and turns. -/
def renderBody (a : Adapter) (r : Request) (model : String) (system : Option String)
    (ts : List Turn) : Entries :=
  (match system with
    | none => [("contents", .list (ts.map Turn.json))]
    | some system =>
      if folds a model ts then [("contents", .list ((foldSystem system ts).map Turn.json))]
      else [
        ("contents", .list (ts.map Turn.json)),
        ("systemInstruction", .object [("parts", .list [(Part.text (.text system)).json])])]) ++
  (if r.tools.isEmpty then []
    else [("tools", .list [
      .object [("functionDeclarations", .list (r.tools.map renderTool))]])]) ++
  (match r.toolChoice with
    | .null => []
    | choice => [("toolConfig", renderChoice choice)]) ++
  (if (generationConfig r).isEmpty then []
    else [("generationConfig", .object (generationConfig r))])

/-- What the log says about folding. -/
def renderLogs (a : Adapter) (model : String) (system : Option String) (ts : List Turn) :
    List LogLine :=
  if system.isSome && folds a model ts then
    [{ level := .debug
       text := "Folding system instruction into first user turn for " ++ model }]
  else []

/-- The address of a model's method. -/
def methodUrl (a : Adapter) (model : String) (stream : Bool) : String :=
  let path := if startsWith model "models/" then model else "models/" ++ model
  let method := if stream then "streamGenerateContent" else "generateContent"
  a.baseUrl ++ "/" ++ path ++ ":" ++ method

/-- A request on the wire, and what is logged on the way. -/
def render (a : Adapter) (r : Request) (model : String) (stream : Bool) :
    Except Objection (WireRequest × List LogLine) := do
  let ts ← turns a.room r.messages
  let system ← systemText? r.messages
  return (
    { method := "POST"
      url := methodUrl a model stream
      headers := [
        ("x-goog-api-key", a.credential.secret), ("Content-Type", "application/json")]
      body := some (.object (renderBody a r model system ts))
      params := if stream then [("alt", .text "sse")] else [] },
    renderLogs a model system ts)

end ChatClient.Gemini
