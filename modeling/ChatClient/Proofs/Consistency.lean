import ChatClient.Chat.Streaming
import ChatClient.Proofs.CallOrder
import ChatClient.Proofs.Readings

/-!
# Responses are consistent

Whatever a service sends, what comes of it is a response whose finish reason agrees with its
calls, or one of the failures that say that the service did not send one. There are two ways
to a response, and each settles the finish reason by itself: a body is read whole, and a
stream is read event by event and assembled.

On the second way the assembler must be given known finish reasons only, and its calls must
have ids and names whatever the fragments were. `Assembler.Ready` carries both from chunk to
chunk.
-/

namespace ChatClient

open Reading

/-! ## Whole bodies -/

/-- What comes of a body: a consistent response whose calls have arguments. -/
def ReadsWell (p : Provider) (m : Reading Response) : Prop :=
  m.Gives (IsMalformed p) fun r => r.Consistent ∧ ∀ c ∈ r.toolCalls, c.arguments ≠ ""

theorem Groq.call_usable {E : Failure → Prop} (c : Groq.Call) :
    Gives E ToolCall.Usable c.read := by
  refine (gives_idOr c.id).bind fun id hid => gives_pure ⟨hid, ?_⟩
  show (given? c.function.arguments).getD "\x7b\x7d" ≠ ""
  cases h : given? c.function.arguments with
  | none => decide
  | some s => exact (given?_eq_some.mp h).2

theorem Groq.completion_readsWell (c : Groq.Completion) : ReadsWell .groq c.response := by
  refine (gives_mapM Groq.call_usable _).bind fun calls hcalls => ?_
  refine (gives_finishReason .groq _).bind fun reason hreason => ?_
  exact Answered.gives_response .groq hreason hcalls

theorem Groq.readResponse_readsWell (bs : List UInt8) : ReadsWell .groq (Groq.readResponse bs) := by
  refine (gives_body .groq bs).bind fun v _ => ?_
  refine (gives_decode .groq _ v).bind fun c _ => ?_
  exact Groq.completion_readsWell c

theorem Json.compact_object_ne_empty (es : Entries) : (Json.object es).compact ≠ "" := by
  intro h
  have hlist := congrArg String.toList h
  rw [Json.compact, Json.write, String.toList_ofList] at hlist
  exact absurd hlist (by simp)

/-- The calls of a part of a content. -/
theorem Gemini.part_usable {E : Failure → Prop} (p : Gemini.PartPayload) :
    Gives E (fun r => ∀ c ∈ r.2, ToolCall.Usable c) p.read := by
  unfold Gemini.PartPayload.read
  cases p.functionCall with
  | none => exact gives_pure (fun c hc => absurd hc List.not_mem_nil)
  | some f =>
      refine (gives_idOr f.id).bind fun id hid => gives_pure fun c hc => ?_
      obtain rfl := List.mem_singleton.mp hc
      exact ⟨hid, Json.compact_object_ne_empty _⟩

theorem Gemini.parts_usable {E : Failure → Prop} (ps : List Gemini.PartPayload) :
    Gives E (fun r => ∀ c ∈ r.2, ToolCall.Usable c) (Gemini.readParts ps) := by
  refine (gives_mapM Gemini.part_usable ps).bind fun read hread => gives_pure fun c hc => ?_
  obtain ⟨calls, hcalls, hc⟩ := List.mem_flatten.mp hc
  obtain ⟨r, hr, rfl⟩ := List.mem_map.mp hcalls
  exact hread r hr c hc

theorem Gemini.generated_readsWell (g : Gemini.Generated) : ReadsWell .gemini g.response := by
  unfold Gemini.Generated.response
  cases g.candidates with
  | nil =>
      cases g.blockReason? with
      | none => exact gives_malformed .gemini _
      | some reason =>
          refine Answered.gives_response .gemini rfl fun c hc => ?_
          exact absurd hc List.not_mem_nil
  | cons c _ =>
      cases hreason : c.finishReason with
      | none => simp only [hreason]; exact gives_malformed .gemini _
      | some code =>
          simp only [hreason]
          refine (Gemini.parts_usable c.parts).bind fun read hcalls => ?_
          refine (gives_finishReason .gemini code).bind fun reason hknown => ?_
          exact Answered.gives_response .gemini hknown hcalls

theorem Gemini.readResponse_readsWell (bs : List UInt8) :
    ReadsWell .gemini (Gemini.readResponse bs) := by
  refine (gives_body .gemini bs).bind fun v _ => ?_
  refine (gives_decode .gemini _ v).bind fun g _ => ?_
  exact Gemini.generated_readsWell g

theorem readResponse_readsWell (a : Adapter) (bs : List UInt8) :
    ReadsWell a.provider (a.readResponse bs) := by
  unfold Adapter.readResponse
  cases a.provider with
  | groq => exact Groq.readResponse_readsWell bs
  | gemini => exact Gemini.readResponse_readsWell bs

/-! ## Events -/

/-- The service sent something else than a response, or the stream did not come to its end. -/
def IsBroken (p : Provider) (f : Failure) : Prop :=
  IsMalformed p f ∨ ∃ message hint, f = .interrupted message hint

theorem Reading.Gives.broken {α : Type} {p : Provider} {P : α → Prop} {m : Reading α}
    (h : m.Gives (IsMalformed p) P) : m.Gives (IsBroken p) P :=
  h.weaken fun _ => Or.inl

/-- A chunk that gives no finish reason but the five. -/
def Chunk.Known (c : Chunk) : Prop := ∀ r, c.finishReason = some r → r.isKnown = true

/-- What comes of an event: a chunk without other finish reasons, or none. -/
def ReadsKnown (p : Provider) (m : Reading (Option Chunk)) : Prop :=
  m.Gives (IsBroken p) fun o => ∀ c, o = some c → c.Known

/-- What is made of a completion's part: no finish reason but the five, and no mark that it is the
last one. -/
theorem Groq.chunk?_known {E : Failure → Prop} (e : Groq.StreamEvent) :
    Gives E (fun o => ∀ c, o = some c → c.Known ∧ c.done = false) e.chunk? := by
  unfold Groq.StreamEvent.chunk?
  cases e.choices with
  | nil =>
      refine gives_pure fun c hc => ?_
      obtain ⟨usage, -, rfl⟩ := Option.map_eq_some_iff.mp hc
      exact ⟨fun r hr => absurd hr (by simp), rfl⟩
  | cons c _ =>
      refine (gives_optionMapM (gives_finishReason .groq) _).bind fun reason hknown => ?_
      refine gives_pure fun d hd => ?_
      obtain rfl := Option.some.inj hd
      exact ⟨hknown, rfl⟩

/-- A failure that the stream reports about itself, or else what comes of the event. -/
theorem gives_reported {a : Adapter} {v : Json} {E : Failure → Prop} {P : Option Chunk → Prop}
    {m : Reading (Option Chunk)} (hE : ∀ message, E (.interrupted message none))
    (hm : m.Gives E P) :
    Gives E P (match a.streamFailure? v with
      | some failure => throw failure
      | none => m) := by
  cases hf : a.streamFailure? v with
  | none => exact hm
  | some f =>
      unfold Adapter.streamFailure? at hf
      dsimp only at hf
      split at hf
      · exact absurd hf (by simp)
      · obtain rfl := Option.some.inj hf
        exact gives_throw (hE _)

theorem isBroken_interrupted (p : Provider) (message : String) :
    IsBroken p (.interrupted message none) := .inr ⟨message, none, rfl⟩

theorem Groq.readEvent_readsKnown (a : Adapter) (data : String) :
    ReadsKnown .groq (Groq.readEvent a data) := by
  unfold Groq.readEvent
  by_cases hdone : Text.strip data = Groq.lastEvent
  · rw [if_pos hdone]
    refine gives_pure fun c hc r hr => ?_
    obtain rfl := Option.some.inj hc
    exact absurd hr (by simp)
  · rw [if_neg hdone]
    refine (gives_event .groq data).broken.bind fun v _ => ?_
    refine gives_reported (isBroken_interrupted .groq) ?_
    refine (gives_decode .groq _ v).broken.bind fun e _ => ?_
    exact (Groq.chunk?_known e).imp fun o ho c hc => (ho c hc).1

theorem Gemini.chunk?_known {E : Failure → Prop} (g : Gemini.Generated) :
    Gives E (fun o => ∀ c, o = some c → c.Known ∧ c.done = false) g.chunk? := by
  unfold Gemini.Generated.chunk?
  cases g.candidates with
  | nil =>
      refine gives_pure fun c hc => ?_
      cases hb : g.blockReason? with
      | some reason =>
          rw [hb] at hc
          obtain rfl := Option.some.inj hc
          refine ⟨fun r hr => ?_, rfl⟩
          obtain rfl := Option.some.inj hr
          rfl
      | none =>
          rw [hb] at hc
          obtain ⟨usage, -, rfl⟩ := Option.map_eq_some_iff.mp hc
          exact ⟨fun r hr => absurd hr (by simp), rfl⟩
  | cons c _ =>
      refine (Gemini.parts_usable c.parts).bind fun read _ => ?_
      refine (gives_optionMapM (gives_finishReason .gemini) _).bind fun reason hknown => ?_
      refine gives_pure fun d hd => ?_
      obtain rfl := Option.some.inj hd
      exact ⟨hknown, rfl⟩

theorem Gemini.readEvent_readsKnown (a : Adapter) (data : String) :
    ReadsKnown .gemini (Gemini.readEvent a data) := by
  unfold Gemini.readEvent
  refine (gives_event .gemini data).broken.bind fun v _ => ?_
  refine gives_reported (isBroken_interrupted .gemini) ?_
  refine (gives_decode .gemini _ v).broken.bind fun g _ => ?_
  exact (Gemini.chunk?_known g).imp fun o ho c hc => (ho c hc).1

theorem readEvent_readsKnown (a : Adapter) (data : String) :
    ReadsKnown a.provider (a.readEvent data) := by
  unfold Adapter.readEvent
  cases a.provider with
  | groq => exact Groq.readEvent_readsKnown a data
  | gemini => exact Gemini.readEvent_readsKnown a data

/-- What comes of the events of a stream: chunks without other finish reasons, and an end
that is no failure of the program. -/
theorem chunksOf_spec (a : Adapter) (events : List String) (l : Ledger) :
    (∀ e ∈ (a.chunksOf (.ok ()) events l).items, e.1.Known) ∧
      ∀ f, (a.chunksOf (.ok ()) events l).result = .error f → IsBroken a.provider f := by
  induction events generalizing l with
  | nil =>
      constructor
      · intro e he
        exact absurd he List.not_mem_nil
      · intro f hf
        exact absurd hf (by simp [Adapter.chunksOf])
  | cons event events ih =>
      have hread := readEvent_readsKnown a event l
      rw [Adapter.chunksOf]
      cases hr : (a.readEvent event).run l with
      | mk r l' =>
          rw [hr] at hread
          cases r with
          | error f =>
              constructor
              · intro e he
                exact absurd he List.not_mem_nil
              · intro g hg
                obtain rfl := Except.error.inj hg
                exact hread
          | ok o =>
              cases o with
              | none => exact ih l'
              | some c =>
                  have hc := hread c rfl
                  obtain ⟨hitems, hresult⟩ := ih l'
                  by_cases hdone : c.done = true
                  · -- nothing is read after a chunk that says it is the last
                    simp only [if_pos hdone]
                    constructor
                    · intro e he
                      obtain rfl := List.mem_singleton.mp he
                      exact hc
                    · intro f hf
                      exact absurd hf (by simp)
                  · simp only [if_neg hdone]
                    exact ⟨List.forall_mem_cons.mpr ⟨hc, hitems⟩, hresult⟩

/-! ## Assembling -/

/-- An assembler that can be asked for a consistent response. -/
structure Assembler.Ready (as : Assembler) : Prop where
  lawful : as.Lawful
  known : ∀ r, as.finishReason = some r → r.isKnown = true
  unfinished : as.finished = false

namespace Assembler

variable {as : Assembler}

theorem ready_fresh (provider : Option String) : ({ provider } : Assembler).Ready where
  lawful := lawful_fresh provider
  known := fun _ h => absurd h (by simp)
  unfinished := rfl

/-- A chunk is taken, or it shows that the stream is broken. -/
theorem Ready.accept (h : as.Ready) {c : Chunk} (hc : c.Known) :
    match as.accept c with
    | (.ok (), as') => as'.Ready
    | (.error f, _) => ∃ fault : StreamFault, f = fault.failure := by
  have hlawful := h.lawful.accept c
  have hcalls := feedFragments_callsOnly (as.addText c.text) c.fragments
  rw [accept_eq h.unfinished] at hlawful ⊢
  cases hfed : (as.addText c.text).feedFragments c.fragments with
  | mk fault b =>
      rw [hfed] at hlawful hcalls
      obtain ⟨calls, byId, byIndex, rfl⟩ := hcalls
      cases fault with
      | some fault => exact ⟨fault, rfl⟩
      | none =>
          refine ⟨hlawful, ?_, h.unfinished⟩
          intro r hr
          rcases Option.or_eq_some_iff.mp hr with hr | ⟨-, hr⟩
          · exact hc r hr
          · exact h.known r hr

/-- The final finish reason is a known one that agrees with whether there are calls. -/
theorem finalReason_spec {given : Option FinishReason} {noCalls : Bool} {reason : FinishReason}
    (hgiven : ∀ r, given = some r → r.isKnown = true)
    (h : finalReason given noCalls = .ok reason) :
    reason.isKnown = true ∧ (reason = .toolCalls → noCalls = false) ∧
      (reason = .stop → noCalls = true) := by
  unfold finalReason at h
  split at h
  · obtain rfl := Except.ok.inj h
    exact ⟨rfl, fun _ => rfl, fun h => FinishReason.noConfusion h⟩
  · obtain rfl := Except.ok.inj h
    exact ⟨rfl, fun _ => rfl, fun h => FinishReason.noConfusion h⟩
  · obtain rfl := Except.ok.inj h
    exact ⟨rfl, fun h => FinishReason.noConfusion h, fun _ => rfl⟩
  · exact absurd h (by simp)
  · next given' hnotStop hnotCalls =>
      -- a stop with calls and a request without them have been dealt with above
      obtain rfl := Except.ok.inj h
      refine ⟨hgiven _ rfl, ?_, ?_⟩
      · intro he
        exact eq_false_of_ne_true fun hnone => hnotCalls hnone he
      · intro he
        exact eq_true_of_ne_false fun hsome => hnotStop hsome he

theorem Ready.finish (h : as.Ready) {r : Response} (hr : as.finish.1 = .ok r) : r.Consistent := by
  unfold Assembler.finish response at hr
  split at hr
  · exact absurd hr (by simp)
  · cases hreason : finalReason as.finishReason as.calls.isEmpty with
    | error fault =>
        rw [hreason] at hr
        exact absurd hr (by simp [Except.map])
    | ok reason =>
        rw [hreason] at hr
        obtain rfl := Except.ok.inj hr
        obtain ⟨hknown, hasks, hstops⟩ := finalReason_spec h.known hreason
        refine ⟨hknown, ?_, ?_, ?_⟩
        · intro he hnone
          have hsome := List.isEmpty_eq_false_iff.mp (hasks he)
          exact hsome (List.map_eq_nil_iff.mp hnone)
        · intro he
          exact List.map_eq_nil_iff.mpr (List.isEmpty_iff.mp (hstops he))
        · intro c hc
          obtain ⟨d, hd, rfl⟩ := List.mem_map.mp hc
          exact h.lawful.named d hd

end Assembler

/-- What comes of the chunks of a stream. -/
theorem follow_spec {p : Provider} {ending : Except Failure Unit} {l : Ledger}
    {as : Assembler} {items : List (Chunk × Ledger)} (h : as.Ready)
    (hitems : ∀ e ∈ items, e.1.Known) (hending : ∀ f, ending = .error f → IsBroken p f) :
    match (Assembler.follow ending l as items).result with
    | .ok r => r.Consistent
    | .error f => IsBroken p f := by
  induction items generalizing as with
  | nil =>
      cases ending with
      | error f => exact hending f rfl
      | ok _ =>
          show match as.finish.1.mapError StreamFault.failure with
            | .ok r => r.Consistent
            | .error f => IsBroken p f
          cases hfinish : as.finish.1 with
          | ok r => exact h.finish hfinish
          | error fault => exact Or.inr ⟨_, _, rfl⟩
  | cons e items ih =>
      obtain ⟨he, hrest⟩ := List.forall_mem_cons.mp hitems
      have haccept := h.accept he
      rw [Assembler.follow]
      cases hr : as.accept e.1 with
      | mk r as' =>
          rw [hr] at haccept
          cases r with
          | ok _ => exact ih haccept hrest
          | error f =>
              obtain ⟨fault, rfl⟩ := haccept
              exact Or.inr ⟨_, _, rfl⟩

/--
**What a service sends comes to a consistent response or to one of its failures.**

A body comes to a response that is consistent and has arguments in all its calls, or it is
malformed. A stream comes to a consistent response, or an event is malformed, or the stream
is interrupted.
-/
theorem adapter_consistent (a : Adapter) :
    (∀ (body : List UInt8) (l : Ledger), match ((a.readResponse body).run l).1 with
      | .ok r => r.Consistent ∧ ∀ c ∈ r.toolCalls, c.arguments ≠ ""
      | .error f => ∃ message, f = .malformed message (some a.name) none) ∧
    ∀ (provider : Option String) (events : List String) (l : Ledger),
      match ((a.chunksOf (.ok ()) events l).assemble provider).result with
      | .ok r => r.Consistent
      | .error f => (∃ message, f = .malformed message (some a.name) none) ∨
          ∃ message hint, f = .interrupted message hint := by
  constructor
  · intro body l
    have hread := readResponse_readsWell a body l
    generalize ((a.readResponse body).run l).1 = r at hread ⊢
    cases r with
    | ok r => exact hread
    | error f => exact hread
  · intro provider events l
    obtain ⟨hitems, hending⟩ := chunksOf_spec a events l
    have hend := follow_spec (l := (a.chunksOf (.ok ()) events l).ledger)
      (Assembler.ready_fresh provider) hitems hending
    rw [← Yields.assemble] at hend
    generalize ((a.chunksOf (.ok ()) events l).assemble provider).result = r at hend ⊢
    cases r with
    | ok r => exact hend
    | error f => exact hend

end ChatClient
