import ChatClient.Adapter
import ChatClient.Log
import ChatClient.Request.Validation
import ChatClient.Wire

/-!
# Writing requests for Groq

A request becomes the body of a chat completion. Groq has no counterpart of `top_k`, which
is left out with a note in the log.
-/

namespace ChatClient.Groq

/-- A tool call as it was asked for. -/
def renderCall (c : RequestCall) : Json :=
  .object [
    ("id", c.id),
    ("type", .text "function"),
    ("function", .object [("name", c.name), ("arguments", c.arguments)])]

/-- A message. An assistant message with calls may be without content, and says so by null;
a tool message names the call it answers. -/
def renderMessage (m : RequestMessage) : Json :=
  let asks : Bool := m.isBy .assistant && !m.toolCalls.isEmpty
  let content : Json := if asks && !m.content.isGiven then .null else m.content
  .object (
    [("role", m.role), ("content", content)] ++
    (if asks then [("tool_calls", .list (m.toolCalls.map renderCall))] else []) ++
    (if m.isBy .tool then [("tool_call_id", m.toolCallId)] else []))

/-- The declaration of a tool. -/
def renderTool (t : Tool) : Json :=
  .object [
    ("type", .text "function"),
    ("function", .object [
      ("name", t.name), ("description", t.description), ("parameters", t.parameters)])]

/-- A tool choice: a mode, or the function that must be called. -/
def renderChoice (choice : Json) : Json :=
  if choice.text?.any (· ∈ choiceModes) then choice
  else .object [("type", .text "function"), ("function", .object [("name", choice)])]

/-- The body of a request. -/
def renderBody (r : Request) (model : String) (stream : Bool) : Entries :=
  [("model", .text model), ("messages", .list (r.messages.map renderMessage))] ++
  (if r.tools.isEmpty then [] else [("tools", .list (r.tools.map renderTool))]) ++
  (match r.toolChoice with
    | .null => []
    | choice => [("tool_choice", renderChoice choice)]) ++
  renderSetting "temperature" r.temperature ++
  renderSetting "max_completion_tokens" r.maxTokens ++
  renderSetting "top_p" r.topP ++
  (match r.stop with
    | some stop => [("stop", .list stop)]
    | none => []) ++
  renderSetting "seed" r.seed ++
  (if stream then [("stream", .bool true)] else [])

/-- What the log says about settings that are left out. -/
def renderLogs (r : Request) : List LogLine :=
  match r.topK with
  | .null => []
  | v => [{ level := .debug
            text := "groq does not support top_k; dropping top_k=" ++ v.shown }]

/-- A request on the wire. -/
def render (a : Adapter) (r : Request) (model : String) (stream : Bool) : WireRequest :=
  { method := "POST"
    url := a.baseUrl ++ "/chat/completions"
    headers := [
      ("Authorization", "Bearer " ++ a.credential.secret),
      ("Content-Type", "application/json"),
      ("Accept", if stream then "text/event-stream" else "application/json")]
    body := some (.object (renderBody r model stream)) }

end ChatClient.Groq
