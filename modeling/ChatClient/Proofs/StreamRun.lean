import ChatClient.Chat.Streaming
import ChatClient.Proofs.Assembly
import ChatClient.Proofs.Payloads
import ChatClient.Proofs.Readings

/-!
# What a stream that comes to its end comes to

A service spells a call out: an opening with the first piece of the arguments, and then the
other pieces. Calls that are spelled out one after the other, under keys of their own, are
taken by an assembler, and the calls that it has are the ones spelled.

Between the texts of the events and the assembler stands the reading of the events, which
makes ids as it goes. Only their number matters for what is read, so a run over the events is
described by the chunks it gives and by how many ids have been made before and after it.
-/

namespace ChatClient

open Reading

/-! ## Calls spelled out -/

/-- A call as it is spelled out in a stream. -/
structure Spelling where
  index : Option Int
  id : String
  name : String
  /-- The piece of the arguments that comes with the opening. -/
  first : String
  /-- The pieces after it. -/
  more : List String := []

namespace Spelling

/-- The fragment that opens the call. -/
def opening (s : Spelling) : CallFragment :=
  { index := s.index, callId := some s.id, name := some s.name, arguments := s.first }

/-- A fragment with one more piece. -/
def continuation (s : Spelling) (piece : String) : CallFragment :=
  { index := s.index, arguments := piece }

/-- All fragments of the call, in order. -/
def fragments (s : Spelling) : List CallFragment := s.opening :: s.more.map s.continuation

/-- The call that is spelled. -/
def call (s : Spelling) : ToolCall :=
  { id := s.id, name := s.name, arguments := s.first ++ String.join s.more }

/-- The call that is spelled, as an assembler keeps it. -/
def openCall (s : Spelling) : OpenCall :=
  { id := s.id, name := s.name, index := s.index, arguments := s.first ++ String.join s.more }

/-- The spelling with one more piece. -/
def extend (s : Spelling) (piece : String) : Spelling := { s with more := s.more ++ [piece] }

/-- A spelling opens a call, and what comes after the opening can be told to belong to it. -/
structure Sound (s : Spelling) : Prop where
  id : s.id ≠ ""
  name : s.name ≠ ""
  index : s.more = [] ∨ s.index ≠ none

/-- `t` may be spelled out after `s`. -/
def Apart (s t : Spelling) : Prop := s.id ≠ t.id ∧ (t.index = none ∨ s.index ≠ t.index)

theorem opening?_opening {s : Spelling} (h : s.Sound) :
    s.opening.opening? = some (s.id, s.name) :=
  CallFragment.opening?_eq_some.mpr ⟨⟨rfl, h.id⟩, rfl, h.name⟩

theorem opensCall_opening {s : Spelling} (h : s.Sound) : s.opening.opensCall = true := by
  rw [CallFragment.opensCall, opening?_opening h]
  rfl

end Spelling

/-- The fragments `fs` are in order, and spell out `ss`. -/
structure Spells (fs : List CallFragment) (ss : List Spelling) : Prop where
  orderly : Orderly fs
  openings : openings fs = ss.map Spelling.opening
  calls : openedCalls fs = ss.map Spelling.openCall

namespace Spells

variable {fs : List CallFragment} {s : Spelling} {ss : List Spelling}

theorem nil : Spells [] [] := ⟨orderly_nil, rfl, rfl⟩

/-- An opening under new keys begins one more call. -/
theorem opened (h : Spells fs ss) (hs : s.Sound) (hnew : ∀ t ∈ ss, t.Apart s) :
    Spells (fs ++ [s.opening]) (ss ++ [{ s with more := [] }]) := by
  have hopens := Spelling.opensCall_opening hs
  have hanew : OpensAnew fs s.opening := by
    refine ⟨hopens, fun g hg => ?_, ?_⟩
    · rw [h.openings] at hg
      obtain ⟨t, ht, rfl⟩ := List.mem_map.mp hg
      exact fun he => (hnew t ht).1 (Option.some.inj he)
    · rw [h.openings]
      by_cases hnone : s.index = none
      · exact Or.inl hnone
      · refine Or.inr fun g hg => ?_
        obtain ⟨t, ht, rfl⟩ := List.mem_map.mp hg
        exact (hnew t ht).2.resolve_left hnone
  refine ⟨orderly_snoc.mpr ⟨h.orderly, Or.inl hanew⟩, ?_, ?_⟩
  · rw [openings_snoc, if_pos hopens, h.openings, List.map_append]
    rfl
  · rw [openedCalls_opensAnew h.orderly hanew (Spelling.opening?_opening hs), h.calls,
      List.map_append]
    simp [Spelling.openCall, Spelling.opening]

/-- One more piece of the last call. -/
theorem extended (h : Spells fs (ss ++ [s])) (hindex : s.index ≠ none) (piece : String) :
    Spells (fs ++ [s.continuation piece]) (ss ++ [s.extend piece]) := by
  have hlast : (ChatClient.openings fs).getLast? = some s.opening := by
    rw [h.openings, List.map_append]
    simp
  have hcont : (s.continuation piece).continues s.opening :=
    ⟨rfl, Option.isSome_iff_ne_none.mpr hindex, rfl⟩
  have hlength : ss.length + 1 = (openedCalls fs).length := by
    rw [h.calls]
    simp
  refine ⟨orderly_snoc.mpr ⟨h.orderly, Or.inr ⟨_, hlast, hcont⟩⟩, ?_, ?_⟩
  · rw [openings_snoc, hcont.1, h.openings, List.map_append, List.map_append]
    exact List.append_nil _
  · rw [openedCalls_continuesLast h.orderly ⟨_, hlast, hcont⟩ hlength, h.calls, List.map_append,
      List.map_append, List.map_singleton, modify_concat (List.length_map _).symm]
    simp [Spelling.openCall, Spelling.extend, OpenCall.grow, Spelling.continuation,
      String.append_assoc]

/-- All the other pieces of the last call. -/
theorem completed (h : Spells fs (ss ++ [s])) (hindex : s.index ≠ none) (pieces : List String) :
    Spells (fs ++ pieces.map s.continuation) (ss ++ [{ s with more := s.more ++ pieces }]) := by
  induction pieces generalizing fs s with
  | nil => simpa using h
  | cons piece pieces ih =>
      have hrest := ih (h.extended hindex piece) hindex
      have hsame : (s.extend piece).continuation = s.continuation := rfl
      rw [hsame, List.append_assoc] at hrest
      simpa [Spelling.extend] using hrest

end Spells

/-- **Calls that are spelled out one after the other are taken as they are.** -/
theorem spells_flatMap {ss : List Spelling} (hsound : ∀ s ∈ ss, s.Sound)
    (hapart : ss.Pairwise Spelling.Apart) : Spells (ss.flatMap Spelling.fragments) ss := by
  induction ss using List.reverseRecOn with
  | nil => exact Spells.nil
  | append_singleton ss s ih =>
      obtain ⟨hss, -, hnew⟩ := List.pairwise_append.mp hapart
      have hs := hsound s (by simp)
      have hbefore := ih (fun t ht => hsound t (List.mem_append_left _ ht)) hss
      have hopened := hbefore.opened hs fun t ht => hnew t ht s (List.mem_singleton.mpr rfl)
      have hfragments : (ss ++ [s]).flatMap Spelling.fragments =
          (ss.flatMap Spelling.fragments ++ [s.opening]) ++ s.more.map s.continuation := by
        simp [Spelling.fragments]
      rw [hfragments]
      rcases hs.index with hmore | hindex
      · -- nothing follows the opening
        rw [hmore, List.map_nil, List.append_nil]
        obtain ⟨index, id, name, first, more⟩ := s
        obtain rfl : more = [] := hmore
        exact hopened
      · exact hopened.completed hindex s.more

/-- The arguments of a call that is spelled out. -/
theorem Spells.toolCalls {fs : List CallFragment} {ss : List Spelling} (h : Spells fs ss) :
    (openedCalls fs).map OpenCall.call = ss.map Spelling.call := by
  rw [h.calls, List.map_map]
  rfl

/-! ## Chunks that are all taken -/

/-- What the chunks of one response give, when all of them are taken and one is terminal. -/
theorem Assembler.assemble_spelled {provider : Option String} {cs : List Chunk}
    {ss : List Spelling} (hfs : Spells (fragmentsOf cs) ss) (hend : cs.any (·.isTerminal) = true) :
    let last := lastGiven Chunk.finish? cs
    let calls := ss.map Spelling.call
    assemble provider cs =
      if last.map (·.1) = some .toolCalls ∧ calls = [] then .error StreamFault.noCalls.failure
      else .ok
        { message := .assistant (String.join (cs.map (·.text))) calls
          finishReason := settledReason (last.map (·.1)) calls
          rawFinishReason := last.bind (·.2)
          usage := lastGiven (·.usage) cs
          model := lastGiven (given? ·.model) cs
          responseId := lastGiven (given? ·.responseId) cs
          provider } := by
  intro last calls
  obtain ⟨horder, hsums⟩ := (Sums.fresh provider).acceptAll cs
  unfold assemble
  cases hrun : ({ provider } : Assembler).acceptAll cs with
  | mk result a =>
      rw [hrun] at horder hsums
      obtain rfl : result = .ok () := horder.mp hfs.orderly
      have h : a.Sums provider cs := hsums rfl
      have hcalls : a.calls.map OpenCall.call = calls := by
        rw [h.holds.calls]
        exact hfs.toolCalls
      have hempty : a.calls.isEmpty = calls.isEmpty := by rw [← hcalls, List.isEmpty_map]
      have hterminated : a.terminated = true := h.terminated.trans hend
      show a.response.mapError StreamFault.failure = _
      rw [response, hterminated, hempty, hcalls, finalReason_eq, h.finishReason, h.text, h.usage,
        h.model, h.responseId, h.provider, h.rawFinishReason]
      by_cases hnone : last.map (·.1) = some .toolCalls ∧ calls = []
      · rw [if_pos hnone, if_pos hnone]
        rfl
      · rw [if_neg hnone, if_neg hnone]
        rfl

/-- Feeding chunks as they come is feeding them all at once, where the stream comes to its
end. -/
theorem Assembler.follow_result (a : Assembler) (last : Ledger) (items : List (Chunk × Ledger)) :
    (follow (.ok ()) last a items).result =
      match a.acceptAll (items.map (·.1)) with
      | (.error e, _) => .error e
      | (.ok (), a) => a.finish.1.mapError StreamFault.failure := by
  induction items generalizing a with
  | nil => rfl
  | cons item items ih =>
      rw [follow, List.map_cons, acceptAll]
      cases a.accept item.1 with
      | mk result b =>
          cases result with
          | error e => rfl
          | ok u => exact ih b

theorem Yields.assemble_result {y : Yields Chunk} (h : y.result = .ok ())
    (provider : Option String) :
    (y.assemble provider).result = Assembler.assemble provider (y.items.map (·.1)) := by
  rw [Yields.assemble, h, Assembler.follow_result]
  rfl

/-! ## Answers that are read whole -/

/-- The response of an answer of which all calls have names. -/
theorem Answered.response_of_named (p : Provider) {a : Answered}
    (hnames : ∀ c ∈ a.toolCalls, c.name ≠ "") :
    a.response p =
      if a.finishReason = .toolCalls ∧ a.toolCalls = [] then
        .error (.malformed (p.name ++ " reported tool_calls but returned none") (some p.name) none)
      else .ok
        { message := .assistant a.text a.toolCalls
          finishReason := settledReason (some a.finishReason) a.toolCalls
          usage := a.usage
          model := a.model
          provider := some p.name
          responseId := a.responseId
          rawFinishReason := a.rawFinishReason } := by
  have hnamed : a.toolCalls.any (·.name.isEmpty) = false := by
    rw [List.any_eq_false]
    exact fun c hc he => hnames c hc (String.isEmpty_iff.mp he)
  have hreason : (if !a.toolCalls.isEmpty ∧ a.finishReason = .stop then FinishReason.toolCalls
      else a.finishReason) = settledReason (some a.finishReason) a.toolCalls := by
    cases a.toolCalls <;> simp [settledReason]
  unfold response
  simp only [hnamed, hreason, List.isEmpty_iff]
  by_cases hnone : a.finishReason = .toolCalls ∧ a.toolCalls = []
  · rw [if_pos hnone, if_neg Bool.false_ne_true, if_pos]
    exact ⟨by rw [hnone.1, hnone.2]; rfl, hnone.2⟩
  · rw [if_neg hnone, if_neg Bool.false_ne_true, if_neg]
    intro h
    obtain ⟨hsettled, hempty⟩ := h
    refine hnone ⟨?_, hempty⟩
    rw [hempty] at hsettled
    simpa [settledReason] using hsettled

/-! ## Events that are all read -/

theorem streamFailure?_eq_none {a : Adapter} {v : Json} (h : errorObject v = []) :
    a.streamFailure? v = none := by
  unfold Adapter.streamFailure?
  rw [h]
  rfl

/-- The text of an event that says `e`, and not that the stream has failed. -/
def Carries {α : Type} (P : Json → α → Prop) (data : String) (e : α) : Prop :=
  ∃ v, Json.read? data = some v ∧ errorObject v = [] ∧ P v e

/-- What an event says is read, and then gone on with. -/
theorem Carries.leads {α β : Type} {P : Json → α → Prop} {data : String} {e : α}
    (h : Carries P data e) {d : Payload.Decoder α} (hd : Payload.Accepts d P) {a : Adapter}
    {p : Provider} {next : α → Reading β} {n n' : Nat} {r : Except Failure β}
    (hnext : Leads (next e) n r n') :
    Leads (do
      let payload ← event p data
      match a.streamFailure? payload with
      | some failure => throw failure
      | none =>
        let e ← decode p d payload
        next e) n r n' := by
  obtain ⟨v, hread, hunreported, hv⟩ := h
  refine (leads_event hread n).bind ?_
  rw [streamFailure?_eq_none hunreported]
  exact (leads_decode ((hd v e).mpr hv) n).bind hnext

/-- The events `ps` lead to the chunks `cs`, where `n` ids have been made before and `n'` after
them. An event may give no chunk. -/
inductive Adapter.Gives (a : Adapter) : Nat → List String → List Chunk → Nat → Prop
  | nil (n : Nat) : Gives a n [] [] n
  | cons {n n₁ n₂ : Nat} {p : String} {ps : List String} {o : Option Chunk} {cs : List Chunk}
      (first : Leads (a.readEvent p) n (.ok o) n₁) (rest : Gives a n₁ ps cs n₂) :
      Gives a n (p :: ps) (o.toList ++ cs) n₂

namespace Adapter

variable {a : Adapter} {n n' : Nat} {ps : List String} {cs : List Chunk}

/-- Events of which none says that it is the last: the chunks of what follows come after
theirs. -/
theorem Gives.chunksOf (h : a.Gives n ps cs n') (hdone : ∀ c ∈ cs, c.done = false)
    (ending : Except Failure Unit) (qs : List String) (l : Ledger) (hl : l.callIds = n) :
    ∃ (items : List (Chunk × Ledger)) (l' : Ledger), items.map (·.1) = cs ∧ l'.callIds = n' ∧
      a.chunksOf ending (ps ++ qs) l =
        { a.chunksOf ending qs l' with items := items ++ (a.chunksOf ending qs l').items } := by
  induction h generalizing l with
  | nil n => exact ⟨[], l, rfl, hl, rfl⟩
  | @cons n n₁ n₂ p ps o cs first rest ih =>
      obtain ⟨l₁, hrun, hl₁⟩ := first l hl
      obtain ⟨hfirst, hrest⟩ := List.forall_mem_append.mp hdone
      obtain ⟨items, l', hitems, hl', hchunks⟩ := ih hrest l₁ hl₁
      cases o with
      | none =>
          refine ⟨items, l', hitems, hl', ?_⟩
          rw [List.cons_append, Adapter.chunksOf, hrun]
          exact hchunks
      | some c =>
          have hc : c.done = false := hfirst c (by simp)
          refine ⟨(c, l₁) :: items, l', congrArg (c :: ·) hitems, hl', ?_⟩
          rw [List.cons_append, Adapter.chunksOf, hrun]
          simp only [hc, hchunks]
          rfl

/-- Events after which nothing comes. -/
theorem Gives.assembled (h : a.Gives n ps cs n') (hdone : ∀ c ∈ cs, c.done = false) {l : Ledger}
    (hl : l.callIds = n) (provider : Option String) :
    ((a.chunksOf (.ok ()) ps l).assemble provider).result = Assembler.assemble provider cs := by
  obtain ⟨items, l', hitems, -, hchunks⟩ := h.chunksOf hdone (.ok ()) [] l hl
  rw [List.append_nil] at hchunks
  rw [hchunks, Yields.assemble_result rfl, ← hitems]
  exact congrArg _ (congrArg _ (List.append_nil _))

/-- Events that end with one that says so. What would come after it is not looked at. -/
theorem Gives.assembled_done (h : a.Gives n ps cs n') (hdone : ∀ c ∈ cs, c.done = false)
    {last : String} {c : Chunk} (hlast : Leads (a.readEvent last) n' (.ok (some c)) n')
    (hc : c.done = true) {l : Ledger} (hl : l.callIds = n) (provider : Option String) :
    ((a.chunksOf (.ok ()) (ps ++ [last]) l).assemble provider).result =
      Assembler.assemble provider (cs ++ [c]) := by
  obtain ⟨items, l', hitems, hl', hchunks⟩ := h.chunksOf hdone (.ok ()) [last] l hl
  obtain ⟨l₁, hrun, -⟩ := hlast l' hl'
  have hend : a.chunksOf (.ok ()) [last] l' = { items := [(c, l₁)], result := .ok (), ledger := l₁ } := by
    rw [Adapter.chunksOf, hrun]
    simp only [hc]
    rfl
  rw [hchunks, hend, Yields.assemble_result rfl, ← hitems, List.map_append]
  rfl

end Adapter

/-! ## What the last chunk that says it says -/

theorem lastGiven_of_forall {α : Type} {give : Chunk → Option α} {cs : List Chunk} {x : α}
    (hne : cs ≠ []) (h : ∀ c ∈ cs, give c = some x) : lastGiven give cs = some x := by
  obtain ⟨before, c, hcs⟩ := (List.eq_nil_or_concat cs).resolve_left hne
  rw [List.concat_eq_append] at hcs
  rw [hcs, lastGiven_snoc, h c (by simp [hcs])]
  rfl

end ChatClient
