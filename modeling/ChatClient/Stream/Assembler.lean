import ChatClient.Failure
import ChatClient.Stream.Chunk

/-!
# Assembling a response from chunks

The assembler folds chunks into one response. Calls are opened one after the other, and
only the call opened last may grow, so the fragments of a call stand together in the
stream. Two tables say where the call with an id, or with an index, stands among the open
ones. A chunk that breaks the rule is refused at the first offending fragment: its text
and the fragments before that one stay, the rest of the chunk is dropped.
-/

namespace ChatClient

/-- A call whose arguments are still arriving. -/
structure OpenCall where
  id : String
  name : String
  index : Option Int
  arguments : String := ""
  deriving DecidableEq, Inhabited

/-- The call with one more fragment of its arguments. -/
def OpenCall.grow (c : OpenCall) (more : String) : OpenCall :=
  { c with arguments := c.arguments ++ more }

/-- The call as far as it has arrived. -/
def OpenCall.call (c : OpenCall) : ToolCall :=
  { id := c.id, name := c.name, arguments := c.arguments }

/-- Why a stream is not a response. -/
inductive StreamFault where
  | reopened (id : String)
  | indexTaken (index : Int)
  | notOpened (key : String)
  | outOfOrder (id : String)
  | unterminated
  | noCalls
  deriving DecidableEq

namespace StreamFault

/-- The wording of a fault. -/
def message : StreamFault → String
  | reopened id => "Duplicate opening fragment for tool call " ++ Text.quoted id
  | indexTaken index => s!"Tool call index {index} was opened twice"
  | notOpened key => "Tool call fragment for " ++ key ++ " arrived before its opening fragment"
  | outOfOrder id => "Tool call fragment for " ++ Text.quoted id ++ " arrived out of order"
  | unterminated => "Stream ended without a terminal marker"
  | noCalls => "Stream reported tool_calls but no tool call was received"

/-- Advice that goes with a fault. -/
def hint? : StreamFault → Option String
  | unterminated => some "The connection was likely dropped; retry the request."
  | _ => none

/-- A stream fault as a failure. -/
def failure (f : StreamFault) : Failure := .interrupted f.message f.hint?

end StreamFault

/-- What has been folded so far. -/
structure Assembler where
  /-- The service that the response will name. -/
  provider : Option String := none
  text : String := ""
  /-- The calls in the order of their opening. -/
  calls : List OpenCall := []
  /-- Where the call with an id stands in `calls`. -/
  byId : List (String × Nat) := []
  /-- Where the call with an index stands in `calls`. -/
  byIndex : List (Int × Nat) := []
  finishReason : Option FinishReason := none
  rawFinishReason : Option String := none
  usage : Option Usage := none
  responseId : Option String := none
  model : Option String := none
  /-- A terminal chunk has been seen. -/
  terminated : Bool := false
  /-- The response has been asked for. -/
  finished : Bool := false
  deriving Inhabited

namespace Assembler

/-- Where the call that a continuation belongs to stands. -/
def target? (a : Assembler) (f : CallFragment) : Option Nat :=
  match f.callId with
  | some id => a.byId.lookup id
  | none => f.index.bind fun index => a.byIndex.lookup index

/-- How a continuation names its call. -/
def fragmentKey (f : CallFragment) : String :=
  match f.callId, f.index with
  | some id, _ => id
  | none, some index => s!"#{index}"
  | none, none => "#None"

/-- Adds a call, and enters it in the tables. -/
def addCall (a : Assembler) (c : OpenCall) : Assembler :=
  { a with
    calls := a.calls ++ [c]
    byId := (c.id, a.calls.length) :: a.byId
    byIndex := match c.index with
      | some index => (index, a.calls.length) :: a.byIndex
      | none => a.byIndex }

/-- Opens a call. -/
def openCall (a : Assembler) (id name : String) (f : CallFragment) :
    Except StreamFault Assembler :=
  if (a.byId.lookup id).isSome then .error (.reopened id)
  else
    match f.index.filter fun index => (a.byIndex.lookup index).isSome with
    | some index => .error (.indexTaken index)
    | none => .ok (a.addCall { id, name, index := f.index, arguments := f.arguments })

/-- Continues the call opened last. -/
def continueCall (a : Assembler) (f : CallFragment) : Except StreamFault Assembler :=
  match a.target? f with
  | none => .error (.notOpened (fragmentKey f))
  | some p =>
    if p + 1 = a.calls.length then
      .ok { a with calls := a.calls.modify p (·.grow f.arguments) }
    else .error (.outOfOrder ((a.calls[p]?.map (·.id)).getD ""))

/-- Folds one fragment of a call. -/
def feedFragment (a : Assembler) (f : CallFragment) : Except StreamFault Assembler :=
  match f.opening? with
  | some (id, name) => a.openCall id name f
  | none => a.continueCall f

/-- Folds fragments up to the first one that is refused. -/
def feedFragments (a : Assembler) : List CallFragment → Option StreamFault × Assembler
  | [] => (none, a)
  | f :: fs =>
    match a.feedFragment f with
    | .ok a => a.feedFragments fs
    | .error e => (some e, a)

/-- Adds the text of a chunk. -/
def addText (a : Assembler) (more : String) : Assembler := { a with text := a.text ++ more }

/-- What a chunk adds when its fragments have been folded. -/
def close (a : Assembler) (c : Chunk) : Assembler :=
  { a with
    finishReason := c.finishReason.or a.finishReason
    rawFinishReason := if c.finishReason.isSome then c.rawFinishReason else a.rawFinishReason
    usage := c.usage.or a.usage
    responseId := (given? c.responseId).or a.responseId
    model := (given? c.model).or a.model
    terminated := a.terminated || c.isTerminal }

/-- Folds a chunk, and says why it was refused if it was. -/
def feed (a : Assembler) (c : Chunk) : Option StreamFault × Assembler :=
  match (a.addText c.text).feedFragments c.fragments with
  | (none, a) => (none, a.close c)
  | (some e, a) => (some e, a)

/-- The finish reason of the response: calls turn a stop into a request for tool calls, and
a request for tool calls needs calls. -/
def finalReason (reason : Option FinishReason) (noCalls : Bool) :
    Except StreamFault FinishReason :=
  match reason, noCalls with
  | none, false | some .stop, false => .ok .toolCalls
  | none, true => .ok .stop
  | some .toolCalls, true => .error .noCalls
  | some reason, _ => .ok reason

/-- The response of the chunks folded so far. -/
def response (a : Assembler) : Except StreamFault Response :=
  if !a.terminated then .error .unterminated
  else
    (finalReason a.finishReason a.calls.isEmpty).map fun reason =>
      { message := .assistant a.text (a.calls.map OpenCall.call)
        finishReason := reason
        usage := a.usage
        model := a.model
        provider := a.provider
        responseId := a.responseId
        rawFinishReason := a.rawFinishReason }

/-- Asks for the response; no more chunks are taken after that. -/
def finish (a : Assembler) : Except StreamFault Response × Assembler :=
  (a.response, { a with finished := true })

/-- Folds a chunk unless the response has been asked for. -/
def accept (a : Assembler) (c : Chunk) : Except Failure Unit × Assembler :=
  if a.finished then (.error (.misuse .assemblerFinished), a)
  else
    match a.feed c with
    | (none, a) => (.ok (), a)
    | (some e, a) => (.error e.failure, a)

/-- Folds chunks up to the first one that is refused. -/
def acceptAll (a : Assembler) : List Chunk → Except Failure Unit × Assembler
  | [] => (.ok (), a)
  | c :: cs =>
    match a.accept c with
    | (.ok (), a) => a.acceptAll cs
    | (.error e, a) => (.error e, a)

/-- The response of some chunks. -/
def assemble (provider : Option String) (chunks : List Chunk) : Except Failure Response :=
  match ({ provider } : Assembler).acceptAll chunks with
  | (.error e, _) => .error e
  | (.ok (), a) => a.finish.1.mapError StreamFault.failure

end Assembler

end ChatClient
