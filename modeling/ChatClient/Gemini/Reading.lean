import ChatClient.Gemini.Payload
import ChatClient.Json.Printer
import ChatClient.Reading

/-!
# Reading Gemini's answers

The first candidate is the answer. Its texts are joined, thoughts are left out, and
function calls become tool calls whose arguments are written compactly. A response without
candidates may say why its prompt was blocked, which is an answer too.
-/

namespace ChatClient.Gemini

/-- What one part adds to the text and to the calls. -/
def PartPayload.read (p : PartPayload) : Reading (String × List ToolCall) :=
  match p.functionCall with
  | some f => do
    let id ← Reading.idOr f.id
    return ("", [{ id, name := f.name, arguments := (Json.object (f.args.getD [])).compact }])
  | none => pure (if p.thought.getD false then "" else p.text.getD "", [])

/-- The text and the calls of some parts. -/
def readParts (ps : List PartPayload) : Reading (String × List ToolCall) := do
  let read ← ps.mapM PartPayload.read
  return (String.join (read.map (·.1)), (read.map (·.2)).flatten)

/-- The answer that a blocked prompt is. -/
def Generated.blocked (g : Generated) (reason : String) : Answered :=
  { text := ""
    toolCalls := []
    finishReason := .contentFilter
    rawFinishReason := some reason
    usage := g.usage
    model := g.modelVersion
    responseId := g.responseId }

/-- The response of a payload. -/
def Generated.response (g : Generated) : Reading Response :=
  match g.candidates with
  | [] =>
    match g.blockReason? with
    | some reason => liftExcept ((g.blocked reason).response .gemini)
    | none => Reading.malformed .gemini "gemini response has no candidates"
  | c :: _ =>
    match c.finishReason with
    | none => Reading.malformed .gemini "gemini candidate has no finishReason"
    | some code => do
      let (text, toolCalls) ← readParts c.parts
      let reason ← Reading.finishReason .gemini code
      liftExcept <| Answered.response .gemini
        { text, toolCalls
          finishReason := reason
          rawFinishReason := some code
          usage := g.usage
          model := g.modelVersion
          responseId := g.responseId }

/-- Reads the body of a response. -/
def readResponse (body : List UInt8) : Reading Response := do
  let payload ← liftExcept (Reading.body (some Provider.gemini.name) body)
  let g ← Reading.decode .gemini generated payload
  g.response

/-- A call that arrives whole. -/
def wholeFragment (c : ToolCall) : CallFragment :=
  { callId := some c.id, name := some c.name, arguments := c.arguments }

/-- The chunk of an event, if it says anything. -/
def Generated.chunk? (g : Generated) : Reading (Option Chunk) :=
  match g.candidates with
  | [] => pure <|
    match g.blockReason? with
    | some reason => some
      { finishReason := some .contentFilter
        rawFinishReason := some reason
        usage := g.usage
        model := g.modelVersion
        responseId := g.responseId }
    | none => g.usage.map fun usage => { usage := some usage, model := g.modelVersion }
  | c :: _ => do
    let (text, calls) ← readParts c.parts
    let reason ← c.finishReason.mapM (Reading.finishReason .gemini)
    return some
      { text
        fragments := calls.map wholeFragment
        finishReason := reason
        rawFinishReason := c.finishReason
        usage := g.usage
        responseId := g.responseId
        model := g.modelVersion }

/-- Reads an event of a streamed response. -/
def readEvent (a : Adapter) (data : String) : Reading (Option Chunk) := do
  let payload ← Reading.event .gemini data
  match a.streamFailure? payload with
  | some failure => throw failure
  | none =>
    let g ← Reading.decode .gemini generated payload
    g.chunk?

end ChatClient.Gemini
