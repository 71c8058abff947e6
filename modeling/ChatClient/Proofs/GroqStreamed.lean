import ChatClient.Dialect
import ChatClient.Proofs.Scalars
import ChatClient.Proofs.StreamRun

/-!
# Groq says the same in a stream

What Groq answers can be sent whole or cut into events, in many ways: the text in pieces, each
call as an opening with further pieces after it, the finish code in any one event, the token
counts in the last event that has them, in one of two places. Whichever way it is cut, the
stream comes to the response that the whole answer comes to.

Both sides are described by what is said, `Said`, and not by how it is written. A completion
has it in its fields; of a list of events each has a part of it.
-/

namespace ChatClient.Groq

open Payload Reading

/-- What one answer says. -/
structure Said where
  id : String
  model : String
  content : String
  calls : List ToolCall
  finishCode : String
  usage : Option Usage

namespace Said

/-- An answer under a name, from a model with a name, with calls that can be told apart. -/
structure Proper (s : Said) : Prop where
  id : s.id ≠ ""
  model : s.model ≠ ""
  ids : ∀ c ∈ s.calls, c.id ≠ ""
  names : ∀ c ∈ s.calls, c.name ≠ ""
  arguments : ∀ c ∈ s.calls, c.arguments ≠ ""
  apart : (s.calls.map (·.id)).Nodup

/-- The finish reason that the service reports. -/
def reported (s : Said) : FinishReason := (Provider.groq.finishReason? s.finishCode).getD .error

/-- Calls are asked for, and there are none. -/
def LacksCalls (s : Said) : Prop := s.reported = .toolCalls ∧ s.calls = []

instance (s : Said) : Decidable s.LacksCalls := by
  unfold LacksCalls
  exact inferInstance

/-- The response that an answer is. -/
def response (s : Said) : Response :=
  { message := .assistant s.content s.calls
    finishReason := settledReason (some s.reported) s.calls
    usage := s.usage
    model := some s.model
    provider := some Provider.groq.name
    responseId := some s.id
    rawFinishReason := some s.finishCode }

end Said

/-! ## Whole -/

/-- A call of a completion, with everything in it. -/
def Call.of (c : ToolCall) : Call :=
  { id := some c.id, function := { name := c.name, arguments := some c.arguments } }

/-- A completion says `s`. -/
structure Completion.Says (c : Completion) (s : Said) : Prop where
  id : c.id = some s.id
  model : c.model = some s.model
  content : c.choice.message.content.getD "" = s.content
  calls : c.choice.message.toolCalls.getD [] = s.calls.map Call.of
  finishCode : c.choice.finishReason = s.finishCode
  usage : c.usage = s.usage

theorem leads_read {c : ToolCall} (hid : c.id ≠ "") (hargs : c.arguments ≠ "") (n : Nat) :
    Leads (Call.of c).read n (.ok c) n := by
  have hidAt : idAt n (some c.id) = (c.id, n) := by
    rw [idAt, given?_eq_some.mpr ⟨rfl, hid⟩]
  have hgiven : given? (some c.arguments) = some c.arguments := given?_eq_some.mpr ⟨rfl, hargs⟩
  have hread := leads_idOr (some c.id) n
  rw [hidAt] at hread
  refine hread.bind ?_
  simp only [Call.of, hgiven]
  exact leads_pure c n

theorem leads_calls {cs : List ToolCall} (hids : ∀ c ∈ cs, c.id ≠ "")
    (hargs : ∀ c ∈ cs, c.arguments ≠ "") (n : Nat) :
    Leads ((cs.map Call.of).mapM Call.read) n (.ok cs) n := by
  induction cs with
  | nil => exact leads_pure [] n
  | cons c cs ih =>
      obtain ⟨hid, hids⟩ := List.forall_mem_cons.mp hids
      obtain ⟨harg, hargs⟩ := List.forall_mem_cons.mp hargs
      exact leads_mapM_cons (leads_read hid harg n) (ih hids hargs)

/-- What is made of a completion. -/
theorem Completion.Says.leads {c : Completion} {s : Said} (h : c.Says s) (hs : s.Proper) (n : Nat) :
    Leads c.response n
      (if s.LacksCalls then
        .error (.malformed "groq reported tool_calls but returned none" (some "groq") none)
      else .ok s.response) n := by
  unfold Completion.response
  rw [h.calls, h.finishCode, h.content, h.usage, h.model, h.id]
  refine (leads_calls hs.ids hs.arguments n).bind ?_
  refine (leads_finishReason .groq s.finishCode n).bind ?_
  rw [Answered.response_of_named .groq hs.names]
  exact leads_liftExcept _ n

theorem leads_readResponse {body : List UInt8} {v : Json} {c : Completion}
    (hbody : Json.readBytes? body = some v) (hv : IsCompletion v c) {n n' : Nat}
    {r : Except Failure Response} (h : Leads c.response n r n') :
    Leads (readResponse body) n r n' :=
  (leads_body hbody n).bind ((leads_decode ((accepts_completion v c).mpr hv) n).bind h)

/-! ## In a stream -/

namespace StreamEvent

/-- The text that an event adds. -/
def content (e : StreamEvent) : String := (e.choices.head?.bind (·.delta.content)).getD ""

/-- The fragments of calls that an event adds. -/
def deltas (e : StreamEvent) : List CallDelta :=
  (e.choices.head?.bind (·.delta.toolCalls)).getD []

/-- The finish code of an event that has one. -/
def finishCode? (e : StreamEvent) : Option String := e.choices.head?.bind (·.finishReason)

end StreamEvent

/-- Some events say `s`: the texts are pieces of the content, the fragments spell out the calls
one after the other under indexes of their own, one event has the finish code, and the last
one with token counts has those of the answer. -/
structure Streams (es : List StreamEvent) (s : Said) : Prop where
  id : ∀ e ∈ es, e.id = some s.id
  model : ∀ e ∈ es, e.model = some s.model
  content : String.join (es.map StreamEvent.content) = s.content
  calls : ∃ (ss : List Spelling) (indexes : List Int),
    ss.map Spelling.call = s.calls ∧ ss.map (·.index) = indexes.map some ∧ indexes.Nodup ∧
      es.flatMap (fun e => e.deltas.map CallDelta.fragment) = ss.flatMap Spelling.fragments
  finishCode : es.filterMap StreamEvent.finishCode? = [s.finishCode]
  usage : (es.filterMap StreamEvent.usage).getLast? = s.usage

/-! ### The mark of the end is no value -/

theorem not_blank_of_digit {c : Char} (h : Text.isAsciiDigit c = true) :
    Text.isBlank c = false := by
  have hrange : 48 ≤ c.toNat ∧ c.toNat ≤ 57 := by
    simpa [Text.isAsciiDigit, Char.le_def, UInt32.le_iff_toNat_le] using h
  simp only [Text.isBlank, Bool.or_eq_false_iff, Bool.and_eq_false_iff, decide_eq_false_iff_not,
    beq_eq_false_iff_ne]
  omega

/-- No value starts with a blank. -/
theorem not_blank_of_value? {fuel : Nat} {c : Char} {cs : List Char} {r : Json × List Char}
    (h : Json.value? fuel (c :: cs) = some r) : Text.isBlank c = false := by
  by_contra hblank
  have hne {d : Char} (hd : Text.isBlank d = false) : c ≠ d := fun heq => hblank (heq ▸ hd)
  have hnone : Json.scalar? (c :: cs) = none := by
    have hwords : c ∉ ['n', 't', 'f', 'N', 'I', '-'] := by
      simp only [List.mem_cons, List.not_mem_nil, or_false, not_or]
      exact ⟨hne (by decide), hne (by decide), hne (by decide), hne (by decide), hne (by decide),
        hne (by decide)⟩
    have hdigit : ¬ Text.isAsciiDigit c = true := fun hd => hblank (not_blank_of_digit hd)
    rw [Json.scalar?_of_notMem hwords, Json.unsigned?, Json.whole?, if_neg (hne (by decide)),
      if_neg hdigit, Option.bind_none]
  unfold Json.value? at h
  split at h
  · exact absurd h (by simp)
  · next heq => exact hne (by decide) (List.cons.inj heq).1
  · next heq => exact hne (by decide) (List.cons.inj heq).1
  · next heq => exact hne (by decide) (List.cons.inj heq).1
  · exact absurd (h.symm.trans hnone) (by simp)

/-- The mark of the end starts no value: its bracket would be that of a list. -/
theorem value?_lastEvent (fuel : Nat) (tail : List Char) :
    Json.value? fuel ('[' :: 'D' :: tail) = none := by
  have hword : ∀ n, Json.value? n ('D' :: tail) = none := by
    intro n
    cases n <;> rfl
  have hitems : ∀ n, Json.items? n ('D' :: tail) = none := by
    intro n
    cases n with
    | zero => rfl
    | succ n => rw [Json.items?, hword]
  cases fuel with
  | zero => rfl
  | succ n =>
      show (Json.items? n ('D' :: tail)).map _ = _
      rw [hitems, Option.map_none]

theorem dropWhile_blank {cs cs' : List Char} {c : Char} (h : Json.skipSpace cs = c :: cs')
    (hc : Text.isBlank c = false) : Text.trimStart cs = c :: cs' := by
  induction cs with
  | nil => exact absurd h (by simp [Json.skipSpace])
  | cons d ds ih =>
      by_cases hd : Json.isSpace d = true
      · have hblank : Text.isBlank d = true := by
          simp only [Json.isSpace, Bool.or_eq_true, beq_iff_eq] at hd
          rcases hd with ((rfl | rfl) | rfl) | rfl <;> decide
        rw [Json.skipSpace, List.dropWhile_cons_of_pos hd] at h
        rw [Text.trimStart, List.dropWhile_cons_of_pos hblank]
        exact ih h
      · rw [Json.skipSpace, List.dropWhile_cons_of_neg hd] at h
        obtain ⟨rfl, rfl⟩ := List.cons.inj h
        rw [Text.trimStart, List.dropWhile_cons_of_neg (by simp [hc])]

/-- The text of a value is not the mark of the end. -/
theorem strip_ne_lastEvent_of_read? {data : String} {v : Json} (h : Json.read? data = some v) :
    Text.strip data ≠ lastEvent := by
  intro hlast
  unfold Json.read? Json.ofChars? at h
  split at h
  · next w rest hvalue =>
    cases hcs : Json.skipSpace data.toList with
    | nil =>
        rw [hcs] at hvalue
        exact absurd hvalue (by simp [Json.value?, Json.scalar?, Json.unsigned?, Json.whole?])
    | cons c cs =>
        rw [hcs] at hvalue
        have hstart := dropWhile_blank hcs (not_blank_of_value? hvalue)
        have hlist := congrArg String.toList hlast
        rw [Text.strip, String.toList_ofList, Text.trim, hstart] at hlist
        -- so the text starts with the mark
        obtain ⟨tail, htail⟩ : lastEvent.toList <+: c :: cs := by
          rw [← hlist, Text.dropEndWhile, ← List.reverse_suffix, List.reverse_reverse]
          exact List.dropWhile_suffix _
        have hmark : lastEvent.toList = '[' :: 'D' :: "ONE]".toList := by simp [lastEvent]
        rw [← htail, hmark, List.cons_append, List.cons_append, value?_lastEvent] at hvalue
        exact absurd hvalue (by simp)
  · exact absurd h (by simp)

/-- The text of an event is not the mark of the end. -/
theorem strip_ne_lastEvent {data : String} {e : StreamEvent} (h : Carries IsStreamEvent data e) :
    Text.strip data ≠ lastEvent := by
  obtain ⟨v, hread, -, -⟩ := h
  exact strip_ne_lastEvent_of_read? hread

/-! ### Chunks -/

namespace StreamEvent

/-- The chunk of an event. -/
def said? (e : StreamEvent) : Option Chunk :=
  match e.choices with
  | [] => e.usage.map fun usage => { usage := some usage, responseId := e.id, model := e.model }
  | c :: _ => some
      { text := c.delta.content.getD ""
        fragments := (c.delta.toolCalls.getD []).map CallDelta.fragment
        finishReason := c.finishReason.map fun code =>
          (Provider.groq.finishReason? code).getD .error
        rawFinishReason := c.finishReason
        usage := e.usage
        responseId := e.id
        model := e.model }

theorem leads_chunk? (e : StreamEvent) (n : Nat) : Leads e.chunk? n (.ok e.said?) n := by
  unfold chunk? said?
  cases e.choices with
  | nil => exact leads_pure _ n
  | cons c _ => exact (leads_finishReasons .groq c.finishReason n).bind (leads_pure _ n)

end StreamEvent

theorem leads_readEvent {a : Adapter} {data : String} {e : StreamEvent}
    (h : Carries IsStreamEvent data e) (n : Nat) : Leads (readEvent a data) n (.ok e.said?) n := by
  unfold readEvent
  rw [if_neg (strip_ne_lastEvent h)]
  exact h.leads accepts_streamEvent (e.leads_chunk? n)

theorem gives_events {a : Adapter} (ha : a.provider = .groq) {events : List String}
    {es : List StreamEvent} (h : List.Forall₂ (Carries IsStreamEvent) events es) (n : Nat) :
    a.Gives n events (es.filterMap StreamEvent.said?) n := by
  have hread : a.readEvent = readEvent a := by
    funext data
    rw [Adapter.readEvent, ha]
  induction h with
  | nil => exact .nil n
  | @cons data e events es he _ ih =>
      have hfirst : Leads (a.readEvent data) n (.ok e.said?) n := by
        rw [hread]
        exact leads_readEvent he n
      have hchunks : (e :: es).filterMap StreamEvent.said? =
          e.said?.toList ++ es.filterMap StreamEvent.said? := by
        rw [List.filterMap_cons]
        cases e.said? <;> rfl
      rw [hchunks]
      exact .cons hfirst ih

section Chunks

variable (e : StreamEvent) (es : List StreamEvent)

theorem said?_text : (e.said?.map (·.text)).getD "" = e.content := by
  unfold StreamEvent.said? StreamEvent.content
  cases e.choices with
  | nil => cases e.usage <;> rfl
  | cons c _ => rfl

theorem said?_fragments :
    (e.said?.map (·.fragments)).getD [] = e.deltas.map CallDelta.fragment := by
  unfold StreamEvent.said? StreamEvent.deltas
  cases e.choices with
  | nil => cases e.usage <;> rfl
  | cons c _ => rfl

theorem said?_finish : e.said?.bind Chunk.finish? = e.finishCode?.map fun code =>
    ((Provider.groq.finishReason? code).getD .error, some code) := by
  unfold StreamEvent.said? StreamEvent.finishCode?
  cases e.choices with
  | nil => cases e.usage <;> rfl
  | cons c _ =>
      show Chunk.finish? _ = _
      cases h : c.finishReason <;> simp [Chunk.finish?, h]

theorem said?_usage : e.said?.bind (·.usage) = e.usage := by
  unfold StreamEvent.said?
  cases e.choices with
  | nil => cases h : e.usage <;> simp
  | cons c _ => rfl

theorem said?_names {c : Chunk} (h : e.said? = some c) :
    c.responseId = e.id ∧ c.model = e.model ∧ c.done = false := by
  unfold StreamEvent.said? at h
  split at h
  · obtain ⟨u, -, rfl⟩ := Option.map_eq_some_iff.mp h
    exact ⟨rfl, rfl, rfl⟩
  · obtain rfl := Option.some.inj h
    exact ⟨rfl, rfl, rfl⟩

theorem not_done_said? : ∀ c ∈ es.filterMap StreamEvent.said?, c.done = false := by
  intro c hc
  obtain ⟨e, -, hsaid⟩ := List.mem_filterMap.mp hc
  exact (said?_names e hsaid).2.2

theorem join_text : String.join ((es.filterMap StreamEvent.said?).map (·.text)) =
    String.join (es.map StreamEvent.content) := by
  induction es with
  | nil => rfl
  | cons e es ih =>
      rw [List.filterMap_cons, List.map_cons, ← said?_text e]
      cases e.said? with
      | none => simpa using ih
      | some c => simpa using ih

theorem fragmentsOf_said? : fragmentsOf (es.filterMap StreamEvent.said?) =
    es.flatMap fun e => e.deltas.map CallDelta.fragment := by
  induction es with
  | nil => rfl
  | cons e es ih =>
      rw [List.filterMap_cons, List.flatMap_cons, ← said?_fragments e, ← ih]
      cases e.said? <;> rfl

end Chunks

/-! ## The agreement -/

/-- The fragments of the events spell out the calls. -/
theorem Streams.spells {es : List StreamEvent} {s : Said} (h : Streams es s) (hs : s.Proper) :
    ∃ ss : List Spelling, ss.map Spelling.call = s.calls ∧
      Spells (fragmentsOf (es.filterMap StreamEvent.said?)) ss := by
  obtain ⟨ss, indexes, hcalls, hindexes, hdistinct, hfragments⟩ := h.calls
  refine ⟨ss, hcalls, ?_⟩
  have hindex : ∀ t ∈ ss, t.index ≠ none := by
    intro t ht hnone
    have hmem : t.index ∈ indexes.map some := hindexes ▸ List.mem_map_of_mem ht
    rw [hnone] at hmem
    exact absurd hmem (by simp)
  have hsound : ∀ t ∈ ss, t.Sound := by
    intro t ht
    have hmem : t.call ∈ s.calls := hcalls ▸ List.mem_map_of_mem ht
    exact ⟨hs.ids _ hmem, hs.names _ hmem, Or.inr (hindex t ht)⟩
  have hids : ss.Pairwise fun t u => t.id ≠ u.id := by
    have hnodup := hs.apart
    rw [← hcalls, List.map_map] at hnodup
    exact List.pairwise_map.mp hnodup
  have hkeys : ss.Pairwise fun t u => t.index ≠ u.index := by
    refine List.pairwise_map.mp ?_
    rw [hindexes]
    exact List.pairwise_map.mpr (hdistinct.imp fun hne he => hne (Option.some.inj he))
  rw [fragmentsOf_said?, hfragments]
  exact spells_flatMap hsound ((hids.and hkeys).imp fun hne => ⟨hne.1, Or.inr hne.2⟩)

/-- The chunk of the last event. -/
def lastChunk : Chunk := { done := true }

/-- The mark of the end is the last chunk. -/
theorem leads_lastEvent {a : Adapter} (ha : a.provider = .groq) {last : String}
    (hlast : Text.strip last = lastEvent) (n : Nat) :
    Leads (a.readEvent last) n (.ok (some lastChunk)) n := by
  rw [Adapter.readEvent, ha]
  unfold readEvent
  rw [if_pos hlast]
  exact leads_pure _ n

/-- What is made of the chunks of the events, and of the one that says that they are over. -/
theorem Streams.assemble {es : List StreamEvent} {s : Said} (h : Streams es s) (hs : s.Proper) :
    Assembler.assemble (some Provider.groq.name)
        (es.filterMap StreamEvent.said? ++ [lastChunk]) =
      if s.LacksCalls then .error StreamFault.noCalls.failure else .ok s.response := by
  obtain ⟨ss, hcalls, hspells⟩ := h.spells hs
  have hfinish : lastGiven Chunk.finish? (es.filterMap StreamEvent.said?) =
      some (s.reported, some s.finishCode) := by
    have heach : es.filterMap (fun e => e.said?.bind Chunk.finish?) =
        (es.filterMap StreamEvent.finishCode?).map fun code =>
          ((Provider.groq.finishReason? code).getD .error, some code) := by
      rw [List.map_filterMap]
      exact congrArg (List.filterMap · es) (funext said?_finish)
    rw [lastGiven, List.filterMap_filterMap, heach, h.finishCode]
    rfl
  have husage : lastGiven (·.usage) (es.filterMap StreamEvent.said?) = s.usage := by
    rw [lastGiven, List.filterMap_filterMap, ← h.usage]
    exact congrArg (fun give => (List.filterMap give es).getLast?) (funext said?_usage)
  have hsome : es.filterMap StreamEvent.said? ≠ [] := by
    intro hnil
    rw [hnil] at hfinish
    exact absurd hfinish (by simp [lastGiven])
  have hnames : ∀ c ∈ es.filterMap StreamEvent.said?,
      given? c.responseId = some s.id ∧ given? c.model = some s.model := by
    intro c hc
    obtain ⟨e, he, hsaid⟩ := List.mem_filterMap.mp hc
    obtain ⟨hid, hmodel, -⟩ := said?_names e hsaid
    rw [hid, hmodel, h.id e he, h.model e he]
    exact ⟨given?_eq_some.mpr ⟨rfl, hs.id⟩, given?_eq_some.mpr ⟨rfl, hs.model⟩⟩
  have hid := lastGiven_of_forall hsome fun c hc => (hnames c hc).1
  have hmodel := lastGiven_of_forall hsome fun c hc => (hnames c hc).2
  have hend : (es.filterMap StreamEvent.said? ++ [lastChunk]).any (·.isTerminal) = true := by
    rw [List.any_append, List.any_cons]
    exact Bool.or_true _
  have hfragments : Spells (fragmentsOf (es.filterMap StreamEvent.said? ++ [lastChunk])) ss := by
    rw [fragmentsOf_snoc]
    exact (List.append_nil _).symm ▸ hspells
  have htext : String.join
      ((es.filterMap StreamEvent.said? ++ [lastChunk]).map (·.text)) = s.content := by
    rw [List.map_append, String.join_append, join_text, h.content]
    exact String.append_empty
  rw [Assembler.assemble_spelled hfragments hend, htext, hcalls]
  simp only [lastGiven_snoc]
  rw [hfinish, husage, hid, hmodel]
  by_cases hlacks : s.LacksCalls
  · rw [if_pos hlacks]
    exact if_pos ⟨congrArg some hlacks.1, hlacks.2⟩
  · rw [if_neg hlacks]
    exact if_neg fun hnone => hlacks ⟨Option.some.inj hnone.1, hnone.2⟩

/--
**A streamed completion comes to the same response as a whole one.**

Where calls are asked for and there are none, neither comes to a response.
-/
theorem streamed_completion_agrees (a : Adapter) (ha : a.provider = .groq) {s : Said} (hs : s.Proper)
    {body : List UInt8} {v : Json} {c : Completion} (hbody : Json.readBytes? body = some v)
    (hv : IsCompletion v c) (hc : c.Says s) {events : List String} {es : List StreamEvent}
    (hevents : List.Forall₂ (Carries IsStreamEvent) events es) (hes : Streams es s) {last : String}
    (hlast : Text.strip last = lastEvent) (l l' : Ledger) :
    let whole := ((a.readResponse body).run l).1
    let streamed := ((a.chunksOf (.ok ()) (events ++ [last]) l').assemble (some a.name)).result
    (¬ s.LacksCalls → whole = .ok s.response ∧ streamed = .ok s.response) ∧
      (s.LacksCalls →
        whole = .error (.malformed "groq reported tool_calls but returned none" (some "groq") none) ∧
          streamed = .error StreamFault.noCalls.failure) := by
  intro whole streamed
  have hwhole : whole = if s.LacksCalls then
      .error (.malformed "groq reported tool_calls but returned none" (some "groq") none)
    else .ok s.response := by
    have hread : a.readResponse body = readResponse body := by rw [Adapter.readResponse, ha]
    obtain ⟨l₁, hrun, -⟩ := leads_readResponse hbody hv (hc.leads hs l.callIds) l rfl
    rw [← hread] at hrun
    exact congrArg Prod.fst hrun
  have hstreamed : streamed =
      if s.LacksCalls then .error StreamFault.noCalls.failure else .ok s.response := by
    have hdone : ∀ c ∈ es.filterMap StreamEvent.said?, c.done = false := by
      intro c hc
      obtain ⟨e, -, hsaid⟩ := List.mem_filterMap.mp hc
      exact (said?_names e hsaid).2.2
    have hend : Leads (a.readEvent last) l'.callIds (.ok (some lastChunk)) l'.callIds := by
      rw [Adapter.readEvent, ha]
      unfold readEvent
      rw [if_pos hlast]
      exact leads_pure _ _
    have hname : a.name = Provider.groq.name := congrArg Provider.name ha
    rw [← hes.assemble hs, ← hname]
    exact (gives_events ha hevents l'.callIds).assembled_done hdone hend rfl rfl (some a.name)
  rw [hwhole, hstreamed]
  by_cases hlacks : s.LacksCalls
  · exact ⟨fun h => absurd hlacks h, fun _ => ⟨if_pos hlacks, if_pos hlacks⟩⟩
  · exact ⟨fun _ => ⟨if_neg hlacks, if_neg hlacks⟩, fun h => absurd h hlacks⟩

/-- A greeting with a call. -/
def greeting : Said where
  id := "r"
  model := "m"
  content := "Hi"
  calls := [{ id := "a", name := "f", arguments := "[1]" }]
  finishCode := "stop"
  usage := some {}

/-- The greeting as a completion. -/
def greetingText : String :=
  "\x7b\"id\":\"r\",\"model\":\"m\",\"usage\":\x7b\x7d,\"choices\":[\x7b\"message\":\x7b\"content\":\"Hi\",\"tool_calls\":[" ++
    "\x7b\"id\":\"a\",\"function\":\x7b\"name\":\"f\",\"arguments\":\"[1]\"\x7d\x7d]\x7d,\"finish_reason\":\"stop\"\x7d]\x7d"

/-- The value that the completion is. -/
def greetingValue : Json := .object [("id", .text "r"), ("model", .text "m"),
  ("usage", .object []), ("choices", .list [.object [
    ("message", .object [("content", .text "Hi"), ("tool_calls", .list [.object [("id", .text "a"),
      ("function", .object [("name", .text "f"), ("arguments", .text "[1]")])]])]),
    ("finish_reason", .text "stop")]])]

/-- The greeting as events: the text in two pieces, the arguments too, and token counts at the
end. -/
def greetingEvents : List String := [
  "\x7b\"id\":\"r\",\"model\":\"m\",\"choices\":[\x7b\"delta\":\x7b\"content\":\"H\",\"tool_calls\":[" ++
    "\x7b\"id\":\"a\",\"function\":\x7b\"name\":\"f\",\"arguments\":\"[\"\x7d\x7d]\x7d\x7d]\x7d",
  "\x7b\"id\":\"r\",\"model\":\"m\",\"choices\":[\x7b\"delta\":\x7b\"content\":\"i\",\"tool_calls\":[" ++
    "\x7b\"function\":\x7b\"arguments\":\"1]\"\x7d\x7d]\x7d,\"finish_reason\":\"stop\"\x7d]\x7d",
  "\x7b\"id\":\"r\",\"model\":\"m\",\"x_groq\":\x7b\"usage\":\x7b\x7d\x7d\x7d"]

/-- The values that the events are. -/
def greetingValues : List Json := [
  .object [("id", .text "r"), ("model", .text "m"), ("choices", .list [.object [("delta", .object [
    ("content", .text "H"), ("tool_calls", .list [.object [("id", .text "a"),
      ("function", .object [("name", .text "f"), ("arguments", .text "[")])]])])]])],
  .object [("id", .text "r"), ("model", .text "m"), ("choices", .list [.object [("delta", .object [
    ("content", .text "i"), ("tool_calls", .list [.object [
      ("function", .object [("arguments", .text "1]")])]])]), ("finish_reason", .text "stop")]])],
  .object [("id", .text "r"), ("model", .text "m"), ("x_groq", .object [("usage", .object [])])]]

theorem readBytes_greetingText :
    Json.readBytes? (Text.Utf8.encode greetingText) = some greetingValue :=
  readBytes?_encode
    (toList_joined String.toList_ofList String.toList_ofList)
    (by cbv) (by decide +kernel)

theorem read_greetingEvents :
    List.Forall₂ (fun data v => Json.read? data = some v) greetingEvents greetingValues := by
  refine .cons (read?_of_chars (toList_joined String.toList_ofList String.toList_ofList) ?_) (.cons
    (read?_of_chars (toList_joined String.toList_ofList String.toList_ofList) ?_) (.cons
    (read?_of_chars String.toList_ofList ?_) .nil))
  all_goals cbv

/-- The events say what the completion says. -/
theorem streams_greetingEvents :
    ∃ es, List.Forall₂ (Carries IsStreamEvent) greetingEvents es ∧ Streams es greeting := by
  obtain _ | ⟨hfirst, _ | ⟨hsecond, _ | ⟨hthird, -⟩⟩⟩ := read_greetingEvents
  refine ⟨_, .cons ⟨_, hfirst, rfl, (accepts_streamEvent _ _).mp rfl⟩
    (.cons ⟨_, hsecond, rfl, (accepts_streamEvent _ _).mp rfl⟩
      (.cons ⟨_, hthird, rfl, (accepts_streamEvent _ _).mp rfl⟩ .nil)), ?_⟩
  refine {
    id := by simp [greeting]
    model := by simp [greeting]
    content := rfl
    calls := ⟨[{ index := some 0, id := "a", name := "f", first := "[", more := ["1]"] }], [0],
      rfl, rfl, by simp, rfl⟩
    finishCode := rfl
    usage := rfl }

/-- The greeting is the same both ways. -/
theorem streamed_completion_agrees_greeting :
    let a : Adapter :=
      { provider := .groq, credential := { provider := "groq", secret := "k" }, baseUrl := "" }
    ((a.readResponse (Text.Utf8.encode greetingText)).run {}).1 = .ok greeting.response ∧
      ((a.chunksOf (.ok ()) (greetingEvents ++ ["[DONE]"]) {}).assemble (some a.name)).result =
        .ok greeting.response := by
  intro a
  have hproper : greeting.Proper := by
    constructor <;> decide
  obtain ⟨c, hcompletion, hsays⟩ : ∃ c, completion greetingValue = .ok c ∧ c.Says greeting := by
    refine ⟨_, rfl, ?_⟩
    constructor <;> rfl
  obtain ⟨es, hevents, hstreams⟩ := streams_greetingEvents
  exact (streamed_completion_agrees a rfl hproper readBytes_greetingText
    ((accepts_completion _ _).mp hcompletion) hsays hevents hstreams (by decide) {} {}).1 (by decide)

end ChatClient.Groq
