import ChatClient.Groq.Payload
import ChatClient.Reading

/-!
# Reading Groq's answers

A completion is read whole; of a streamed one each event gives a chunk, or none if it says
nothing. A call without an id gets one in a completion, and absent arguments are those of
no arguments.
-/

namespace ChatClient.Groq

/-- A call of a completion. -/
def Call.read (c : Call) : Reading ToolCall := do
  let id ← Reading.idOr c.id
  return { id, name := c.function.name, arguments := (given? c.function.arguments).getD "\x7b\x7d" }

/-- The response of a completion. -/
def Completion.response (c : Completion) : Reading Response := do
  let calls ← (c.choice.message.toolCalls.getD []).mapM Call.read
  let reason ← Reading.finishReason .groq c.choice.finishReason
  liftExcept <| Answered.response .groq
    { text := c.choice.message.content.getD ""
      toolCalls := calls
      finishReason := reason
      rawFinishReason := some c.choice.finishReason
      usage := c.usage
      model := c.model
      responseId := c.id }

/-- Reads the body of a completion. -/
def readResponse (body : List UInt8) : Reading Response := do
  let payload ← liftExcept (Reading.body (some Provider.groq.name) body)
  let c ← Reading.decode .groq completion payload
  c.response

/-- A fragment of a call. -/
def CallDelta.fragment (d : CallDelta) : CallFragment :=
  { index := some d.index
    callId := d.id
    name := d.function.bind (·.name)
    arguments := (d.function.bind (·.arguments)).getD "" }

/-- The chunk of an event, if it says anything. -/
def StreamEvent.chunk? (e : StreamEvent) : Reading (Option Chunk) :=
  match e.choices with
  | [] => pure (e.usage.map fun usage =>
      { usage := some usage, responseId := e.id, model := e.model })
  | c :: _ => do
    let reason ← c.finishReason.mapM (Reading.finishReason .groq)
    return some
      { text := c.delta.content.getD ""
        fragments := (c.delta.toolCalls.getD []).map CallDelta.fragment
        finishReason := reason
        rawFinishReason := c.finishReason
        usage := e.usage
        responseId := e.id
        model := e.model }

/-- The payload of the last event. -/
def lastEvent : String := "[DONE]"

/-- Reads an event of a streamed completion. -/
def readEvent (a : Adapter) (data : String) : Reading (Option Chunk) := do
  if Text.strip data = lastEvent then return some { done := true }
  let payload ← Reading.event .groq data
  match a.streamFailure? payload with
  | some failure => throw failure
  | none =>
    let e ← Reading.decode .groq streamEvent payload
    e.chunk?

end ChatClient.Groq
