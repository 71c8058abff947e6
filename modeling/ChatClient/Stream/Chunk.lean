import ChatClient.Response

/-!
# Chunks

A streamed response arrives as chunks: some text, fragments of tool calls, and what else is
known by then. The chunk that says why the response ended, or that it is done, is terminal.
-/

namespace ChatClient

/-- A fragment of a tool call. The opening fragment has an id and a name; a continuation
names its call by id or by index. -/
structure CallFragment where
  index : Option Int := none
  callId : Option String := none
  name : Option String := none
  arguments : String := ""
  deriving DecidableEq, Inhabited

/-- A text that is there and not empty. -/
def given? (s : Option String) : Option String := s.filter fun s => !s.isEmpty

theorem given?_eq_some {s : Option String} {t : String} :
    given? s = some t ↔ s = some t ∧ t ≠ "" := by
  simp [given?, Option.filter_eq_some_iff]

/-- The id and the name with which a fragment opens a call. -/
def CallFragment.opening? (f : CallFragment) : Option (String × String) :=
  match given? f.callId, given? f.name with
  | some id, some name => some (id, name)
  | _, _ => none

theorem CallFragment.opening?_eq_some {f : CallFragment} {id name : String} :
    f.opening? = some (id, name) ↔
      (f.callId = some id ∧ id ≠ "") ∧ f.name = some name ∧ name ≠ "" := by
  rw [← given?_eq_some, ← given?_eq_some, CallFragment.opening?]
  split
  · rename_i h1 h2
    simp [h1, h2]
  · rename_i h
    constructor
    · intro h'; simp at h'
    · rintro ⟨h1, h2⟩
      exact (h id name h1 h2).elim

/-- Whether a fragment opens a call. -/
def CallFragment.opensCall (f : CallFragment) : Bool := f.opening?.isSome

/-- One increment of a streamed response. -/
structure Chunk where
  text : String := ""
  fragments : List CallFragment := []
  finishReason : Option FinishReason := none
  rawFinishReason : Option String := none
  usage : Option Usage := none
  /-- The service says that nothing follows. -/
  done : Bool := false
  responseId : Option String := none
  model : Option String := none
  deriving DecidableEq, Inhabited

/-- Whether a chunk ends its response. -/
def Chunk.isTerminal (c : Chunk) : Bool := c.done || c.finishReason.isSome

end ChatClient
