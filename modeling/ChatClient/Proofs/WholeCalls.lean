import ChatClient.Proofs.GroqStreamed
import ChatClient.Proofs.Received

/-!
# Calls that Groq sends whole

A tool call of a completion may come without an id, and is then given one that is made for it. In a
stream a call can be sent in one piece too, as one delta with all that it has, but there the id is
what tells an opening fragment from a continuation. So a whole call without an id opens nothing, and
is refused as the continuation of a call that has not been opened.

Calls that have ids come to a response both ways, with the same calls in it as far as they came with
arguments.
-/

namespace ChatClient

/-! ## The fragment that is refused -/

section Refused

variable {a : Assembler} {fs before after : List CallFragment} {f : CallFragment}
  {fault : StreamFault} {provider : Option String} {taken cs : List Chunk}

/-- A fragment without an id, and with an index under which nothing has been opened, is taken for
the continuation of a call that is missing. -/
theorem Assembler.Holds.feedFragment_unopened (h : a.Holds fs) (hid : f.callId = none) {i : Int}
    (hindex : f.index = some i) (hnew : ∀ g ∈ openings fs, g.index ≠ some i) :
    a.feedFragment f = .error (.notOpened s!"#{i}") := by
  have hopening : f.opening? = none := by
    rw [CallFragment.opening?, hid]
    rfl
  have hlookup : a.byIndex.lookup i = none :=
    (h.lookup_eq_none h.lawful.byIndex fun g _ => rfl).mpr hnew
  have htarget : a.target? f = none := by
    rw [target?, hid, hindex]
    exact hlookup
  rw [Assembler.feedFragment, hopening]
  show a.continueCall f = _
  rw [continueCall, htarget, fragmentKey, hid, hindex]

/-- The fragments before one that is refused are taken. -/
theorem Assembler.Holds.feedFragments_refused (h : a.Holds fs) (horder : Orderly (fs ++ before))
    (hfault : ∀ b : Assembler, b.Holds (fs ++ before) → b.feedFragment f = .error fault) :
    (a.feedFragments (before ++ f :: after)).1 = some fault := by
  rcases h.feedFragments before with ⟨b, hfed, hb⟩ | ⟨_, _, done, g, rest, -, hbefore, hg, -⟩
  · rw [feedFragments_append, hfed]
    simp only [Assembler.feedFragments, hfault b hb]
  · exact absurd (horder (fs ++ done) g rest (by rw [hbefore, List.append_assoc])) hg

/-- The chunks before the one with such a fragment are taken too, however the fragments are
distributed. -/
theorem Assembler.Sums.acceptAll_refused (h : a.Sums provider taken)
    (hcs : fragmentsOf cs = before ++ f :: after) (horder : Orderly (fragmentsOf taken ++ before))
    (hfault : ∀ b : Assembler, b.Holds (fragmentsOf taken ++ before) →
      b.feedFragment f = .error fault) : (a.acceptAll cs).1 = .error fault.failure := by
  induction cs generalizing a taken before with
  | nil => exact absurd hcs (by simp [fragmentsOf])
  | cons c cs ih =>
      have hsplit : c.fragments ++ fragmentsOf cs = before ++ f :: after := hcs
      have hlaterChunk : ∀ later, before = c.fragments ++ later →
          fragmentsOf cs = later ++ f :: after →
          (a.acceptAll (c :: cs)).1 = .error fault.failure := by
        intro later hbefore hlater
        have hfollows : fragmentsOf taken ++ before = fragmentsOf (taken ++ [c]) ++ later := by
          rw [fragmentsOf_snoc, hbefore, List.append_assoc]
        rw [hfollows] at horder hfault
        obtain ⟨haccept, hsums⟩ := h.accept c
        have hok := haccept.mp horder.of_append
        rw [Assembler.acceptAll, show a.accept c = (.ok (), (a.accept c).2) from Prod.ext hok rfl]
        exact ih (hsums hok) hlater horder hfault
      -- the refused fragment is in this chunk or in a later one
      rcases List.append_eq_append_iff.mp hsplit with ⟨later, hbefore, hlater⟩ | ⟨own, hown, hrest⟩
      · exact hlaterChunk later hbefore hlater
      · cases own with
        | nil =>
            refine hlaterChunk [] ?_ hrest.symm
            rw [hown, List.append_nil, List.append_nil]
        | cons g own =>
            obtain ⟨rfl, -⟩ := List.cons.inj hrest
            have hheld : (a.addText c.text).Holds (fragmentsOf taken) :=
              ⟨h.holds.lawful.congr rfl rfl rfl, h.holds.orderly, h.holds.calls⟩
            have hfed : ((a.addText c.text).feedFragments c.fragments).1 = some fault := by
              rw [hown]
              exact hheld.feedFragments_refused horder hfault
            rw [Assembler.acceptAll, accept_eq h.finished]
            cases hrun : (a.addText c.text).feedFragments c.fragments with
            | mk result b =>
                rw [hrun] at hfed
                obtain rfl : result = some fault := hfed
                rfl

end Refused

namespace Groq

open Payload Reading

/-! ## The calls -/

/-- A call and the index that it has in a stream. -/
structure IndexedCall extends Call where
  index : Int

namespace IndexedCall

/-- The delta that has all of a call. -/
def delta (w : IndexedCall) : CallDelta :=
  { index := w.index, id := w.id
    function := some { name := some w.function.name, arguments := w.function.arguments } }

/-- The call with an id of its own, as it is in the response of a completion. -/
def whole (w : IndexedCall) : ToolCall :=
  { id := w.id.getD "", name := w.function.name, arguments := w.toCall.arguments }

/-- The call with an id of its own, as it is in the response of a stream. -/
def streamed (w : IndexedCall) : ToolCall :=
  { id := w.id.getD "", name := w.function.name, arguments := w.function.arguments.getD "" }

/-- The spelling of a call in one piece. -/
def spelling (w : IndexedCall) : Spelling :=
  { index := some w.index, id := w.id.getD "", name := w.function.name
    first := w.function.arguments.getD "" }

variable {w : IndexedCall}

theorem opening_spelling (hid : w.id ≠ none) : w.spelling.opening = w.delta.fragment := by
  obtain ⟨id, hid⟩ := Option.ne_none_iff_exists'.mp hid
  simp [Spelling.opening, spelling, delta, CallDelta.fragment, hid]

/-- Both ways come to the same call if it came with arguments. -/
theorem streamed_eq_whole (h : given? w.function.arguments ≠ none) : w.streamed = w.whole := by
  obtain ⟨s, hs⟩ := Option.ne_none_iff_exists'.mp h
  rw [streamed, whole, Call.arguments, hs, (given?_eq_some.mp hs).1]
  rfl

end IndexedCall

/-- Calls with names, under indexes of their own, of which those with an id can be told apart. -/
structure Distinct (ws : List IndexedCall) : Prop where
  names : ∀ w ∈ ws, w.function.name ≠ ""
  ids : ∀ w ∈ ws, w.id ≠ some ""
  apart : (ws.filterMap (·.id)).Nodup
  indexes : (ws.map (·.index)).Nodup

section Calls

variable {ws before after : List IndexedCall} {w : IndexedCall}

theorem Distinct.of_append (h : Distinct (before ++ after)) : Distinct before where
  names := fun u hu => h.names u (List.mem_append_left _ hu)
  ids := fun u hu => h.ids u (List.mem_append_left _ hu)
  apart := by
    have happart := h.apart
    rw [List.filterMap_append] at happart
    exact happart.of_append_left
  indexes := by
    have hindexes := h.indexes
    rw [List.map_append] at hindexes
    exact hindexes.of_append_left

theorem Distinct.given (h : Distinct ws) (hids : ∀ w ∈ ws, w.id ≠ none) :
    ∀ w ∈ ws, ∃ id, w.id = some id ∧ id ≠ "" := by
  intro w hw
  obtain ⟨id, hid⟩ := Option.ne_none_iff_exists'.mp (hids w hw)
  exact ⟨id, hid, fun he => h.ids w hw (hid.trans (congrArg some he))⟩

/-- Calls that all have ids are spelled out, each in one piece. -/
theorem Distinct.spells (h : Distinct ws) (hids : ∀ w ∈ ws, w.id ≠ none) :
    Spells (ws.map fun w => w.delta.fragment) (ws.map IndexedCall.spelling) := by
  have hfragments : ws.map (fun w => w.delta.fragment) =
      (ws.map IndexedCall.spelling).flatMap Spelling.fragments := by
    rw [List.flatMap_map]
    refine Eq.trans ?_ List.map_eq_flatMap
    exact List.map_congr_left fun w hw => (IndexedCall.opening_spelling (hids w hw)).symm
  rw [hfragments]
  refine spells_flatMap ?_ (List.pairwise_map.mpr ?_)
  · intro t ht
    obtain ⟨w, hw, rfl⟩ := List.mem_map.mp ht
    obtain ⟨id, hid, hne⟩ := h.given hids w hw
    refine ⟨?_, h.names w hw, .inl rfl⟩
    show w.id.getD "" ≠ ""
    rwa [hid]
  · -- two calls have different ids, and different indexes too
    have hapart := List.pairwise_filterMap.mp h.apart
    have hindexes := List.pairwise_map.mp h.indexes
    refine (hapart.and hindexes).imp_of_mem fun {u w} hu hw huw => ⟨?_, .inr ?_⟩
    · obtain ⟨id, hid, -⟩ := h.given hids u hu
      obtain ⟨id', hid', -⟩ := h.given hids w hw
      show u.id.getD "" ≠ w.id.getD ""
      rw [hid, hid']
      exact huw.1 id hid id' hid'
    · exact fun he => huw.2 (Option.some.inj he)

end Calls

/-! ## Whole -/

section Whole

variable {ws : List IndexedCall} {c : Completion}

/-- A call that is made of one with an id is what that one is. -/
theorem IndexedCall.eq_whole {w : IndexedCall} {t : ToolCall} (h : w.toCall.Made t) {id : String}
    (hid : w.id = some id) (hne : id ≠ "") : t = w.whole := by
  obtain ⟨-, hsame, hname, harguments⟩ := h
  have hsame := hsame id (given?_eq_some.mpr ⟨hid, hne⟩)
  obtain ⟨tid, tname, targuments⟩ := t
  rw [whole, hid]
  exact ToolCall.mk.injEq .. ▸ ⟨hsame, hname, harguments⟩

theorem Distinct.eq_whole (h : Distinct ws) (hids : ∀ w ∈ ws, w.id ≠ none) {calls : List ToolCall}
    (hmade : List.Forall₂ Call.Made (ws.map (·.toCall)) calls) :
    calls = ws.map IndexedCall.whole := by
  have hgiven := h.given hids
  have hmade' := List.forall₂_map_left_iff.mp hmade
  clear h hids hmade
  induction hmade' with
  | nil => rfl
  | cons hw _ ih =>
      obtain ⟨⟨id, hid, hne⟩, hgiven⟩ := List.forall_mem_cons.mp hgiven
      rw [List.map_cons, ← ih hgiven, IndexedCall.eq_whole hw hid hne]

theorem names_of_made {ks : List Call} {ts : List ToolCall} (h : List.Forall₂ Call.Made ks ts)
    (hnames : ∀ k ∈ ks, k.function.name ≠ "") : ∀ t ∈ ts, t.name ≠ "" := by
  induction h with
  | nil => simp
  | cons hk _ ih =>
      obtain ⟨hname, hnames⟩ := List.forall_mem_cons.mp hnames
      exact List.forall_mem_cons.mpr ⟨hk.name ▸ hname, ih hnames⟩

/-- Calls of which none lacks a name come to a response. -/
theorem Completion.gives_named (hnames : ∀ k ∈ c.calls, k.function.name ≠ "")
    (hne : c.calls ≠ []) : c.response.Gives (fun _ => False) c.Made := by
  refine (gives_forall₂ Call.gives_made c.calls).bind fun calls hcalls => ?_
  refine (gives_finishReason .groq _).bind fun reason _ => ?_
  have hsome : calls ≠ [] := by
    rintro rfl
    exact hne (List.forall₂_nil_right_iff.mp hcalls)
  rw [Answered.response_of_named .groq (names_of_made hcalls hnames),
    if_neg fun hlacks => hsome hlacks.2]
  exact gives_pure ⟨rfl, hcalls⟩

theorem readResponse_eq {body : List UInt8} {v : Json} (hbody : Json.readBytes? body = some v)
    (hv : IsCompletion v c) : readResponse body = c.response := by
  rw [readResponse, Reading.body, hbody]
  show Reading.decode .groq completion v >>= Completion.response = _
  rw [Reading.decode, (accepts_completion v c).mpr hv]
  rfl

end Whole

/-! ## In a stream -/

/-- What comes after some events at the end of a stream: the mark of the end, or nothing where one
of the events has a finish code. -/
inductive Ends (es : List StreamEvent) : List String → Prop
  | code {e : StreamEvent} (he : e ∈ es) (hcode : e.finishCode? ≠ none) : Ends es []
  | mark {last : String} (hlast : Text.strip last = lastEvent) : Ends es [last]

section Streamed

variable {a : Adapter} {events tail : List String} {es : List StreamEvent} {ws : List IndexedCall}

/-- Events and what marks their end are assembled to the last, and one of the chunks is terminal. -/
theorem Ends.assembled (h : Ends es tail) (ha : a.provider = .groq)
    (hevents : List.Forall₂ (Carries IsStreamEvent) events es) (l : Ledger) :
    ∃ cs, fragmentsOf cs = (es.flatMap StreamEvent.deltas).map CallDelta.fragment ∧
      cs.any (·.isTerminal) = true ∧
      ((a.chunksOf (.ok ()) (events ++ tail) l).assemble (some a.name)).result =
        Assembler.assemble (some a.name) cs := by
  have hgives := gives_events ha hevents l.callIds
  have hdone := not_done_said? es
  have hfragments : fragmentsOf (es.filterMap StreamEvent.said?) =
      (es.flatMap StreamEvent.deltas).map CallDelta.fragment := by
    rw [fragmentsOf_said?, List.map_flatMap]
  cases h with
  | @code e he hcode =>
      refine ⟨_, hfragments, ?_, ?_⟩
      · -- the event with the code makes the chunk that is terminal
        obtain ⟨code, hcode⟩ := Option.ne_none_iff_exists'.mp hcode
        have hfinish := said?_finish e
        rw [hcode] at hfinish
        obtain ⟨c, hsaid, hc⟩ := Option.bind_eq_some_iff.mp hfinish
        obtain ⟨reason, hreason, -⟩ := Option.map_eq_some_iff.mp hc
        refine List.any_eq_true.mpr ⟨c, List.mem_filterMap.mpr ⟨e, he, hsaid⟩, ?_⟩
        rw [Chunk.isTerminal, hreason]
        exact Bool.or_true _
      · rw [List.append_nil]
        exact hgives.assembled hdone rfl _
  | @mark last hlast =>
      have hend := leads_lastEvent ha hlast l.callIds
      refine ⟨_, ?_, ?_, hgives.assembled_done hdone hend rfl rfl _⟩
      · rw [fragmentsOf_snoc, hfragments]
        exact List.append_nil _
      · rw [List.any_append, List.any_cons]
        exact Bool.or_true _

/-- Calls that all have ids arrive as they were sent, with an empty text for arguments that were
not. -/
theorem Ends.streamed (h : Ends es tail) (ha : a.provider = .groq)
    (hevents : List.Forall₂ (Carries IsStreamEvent) events es) (hws : Distinct ws)
    (hes : es.flatMap StreamEvent.deltas = ws.map IndexedCall.delta)
    (hids : ∀ w ∈ ws, w.id ≠ none) (l : Ledger) :
    let result := ((a.chunksOf (.ok ()) (events ++ tail) l).assemble (some a.name)).result
    (∀ r, result = .ok r → r.toolCalls = ws.map IndexedCall.streamed) ∧
      (ws ≠ [] → ∃ r, result = .ok r) := by
  intro result
  obtain ⟨cs, hfragments, hend, hresult⟩ := h.assembled ha hevents l
  have hspells : Spells (fragmentsOf cs) (ws.map IndexedCall.spelling) := by
    rw [hfragments, hes, List.map_map]
    exact hws.spells hids
  have hcalls : (ws.map IndexedCall.spelling).map Spelling.call = ws.map IndexedCall.streamed := by
    rw [List.map_map]
    refine List.map_congr_left fun w _ => ?_
    exact congrArg (ToolCall.mk _ _) String.append_empty
  have hassembled := @Assembler.assemble_spelled (some a.name) _ _ hspells hend
  rw [hcalls, ← hresult] at hassembled
  dsimp only at hassembled
  constructor
  · intro r hr
    rw [show result = _ from hassembled] at hr
    split at hr
    · exact absurd hr (by simp)
    · obtain rfl := Except.ok.inj hr
      rfl
  · intro hne
    rw [if_neg fun hlacks => hne (List.map_eq_nil_iff.mp hlacks.2)] at hassembled
    exact ⟨_, hassembled⟩

/-- The first call without an id is refused, as a fragment of a call that has not been opened. -/
theorem Ends.refused (h : Ends es tail) (ha : a.provider = .groq)
    (hevents : List.Forall₂ (Carries IsStreamEvent) events es) {before after : List IndexedCall}
    {w : IndexedCall} (hws : Distinct (before ++ w :: after))
    (hes : es.flatMap StreamEvent.deltas = (before ++ w :: after).map IndexedCall.delta)
    (hids : ∀ u ∈ before, u.id ≠ none) (hid : w.id = none) (l : Ledger) :
    ((a.chunksOf (.ok ()) (events ++ tail) l).assemble (some a.name)).result =
      .error (StreamFault.notOpened s!"#{w.index}").failure := by
  obtain ⟨cs, hfragments, -, hresult⟩ := h.assembled ha hevents l
  rw [hes, List.map_map, List.map_append, List.map_cons] at hfragments
  have hspells := hws.of_append.spells hids
  have hunopened : ∀ b : Assembler, b.Holds (before.map fun u => u.delta.fragment) →
      b.feedFragment w.delta.fragment = .error (.notOpened s!"#{w.index}") := by
    intro b hb
    refine hb.feedFragment_unopened hid rfl fun g hg he => ?_
    -- an index that was opened before belongs to another call
    rw [hspells.openings, List.map_map] at hg
    obtain ⟨u, hu, rfl⟩ := List.mem_map.mp hg
    have hindexes := hws.indexes
    rw [List.map_append] at hindexes
    refine (List.nodup_append.mp hindexes).2.2 u.index (List.mem_map_of_mem hu) w.index ?_ ?_
    · exact List.mem_map_of_mem List.mem_cons_self
    · exact Option.some.inj he
  have hrefused := (Assembler.Sums.fresh (some a.name)).acceptAll_refused hfragments
    hspells.orderly hunopened
  rw [hresult, Assembler.assemble]
  cases hrun : ({ provider := some a.name } : Assembler).acceptAll cs with
  | mk result b =>
      rw [hrun] at hrefused
      obtain rfl : result = .error _ := hrefused
      rfl

end Streamed

/-- Calls that came by two ways are the same, their arguments as far as they were sent. -/
structure SameCalls (ws : List IndexedCall) (ts ts' : List ToolCall) : Prop where
  length : ts.length = ws.length
  length' : ts'.length = ws.length
  ids : ts'.map (·.id) = ts.map (·.id)
  names : ts'.map (·.name) = ts.map (·.name)
  each : ∀ (i : Nat) w, ws[i]? = some w → given? w.function.arguments ≠ none → ts'[i]? = ts[i]?

theorem SameCalls.of_given (ws : List IndexedCall) :
    SameCalls ws (ws.map IndexedCall.whole) (ws.map IndexedCall.streamed) where
  length := List.length_map _
  length' := List.length_map _
  ids := by
    rw [List.map_map, List.map_map]
    rfl
  names := by
    rw [List.map_map, List.map_map]
    rfl
  each := by
    intro i w hi hgiven
    rw [List.getElem?_map, List.getElem?_map, hi, Option.map_some, Option.map_some,
      IndexedCall.streamed_eq_whole hgiven]

/-- **What becomes of calls that are sent whole.** In a completion each of them gets what it lacks,
and as soon as there is one there is a response. In a stream, where each is one delta of some event,
the first that lacks an id stops the assembling. Where none does there is a response too, with the
same calls. -/
theorem whole_calls_streamed (a : Adapter) (ha : a.provider = .groq) {ws : List IndexedCall}
    (hws : Distinct ws) {body : List UInt8} {v : Json} {c : Completion}
    (hbody : Json.readBytes? body = some v) (hv : IsCompletion v c)
    (hc : c.calls = ws.map (·.toCall)) {events tail : List String} {es : List StreamEvent}
    (hevents : List.Forall₂ (Carries IsStreamEvent) events es)
    (hes : es.flatMap StreamEvent.deltas = ws.map IndexedCall.delta) (htail : Ends es tail)
    (l l' : Ledger) :
    let whole := ((a.readResponse body).run l).1
    let streamed := ((a.chunksOf (.ok ()) (events ++ tail) l').assemble (some a.name)).result
    ((∀ r, whole = .ok r → List.Forall₂ Call.Made c.calls r.toolCalls) ∧
      (ws ≠ [] → ∃ r, whole = .ok r)) ∧
    (∀ before w after, ws = before ++ w :: after → (∀ u ∈ before, u.id ≠ none) → w.id = none →
      streamed = .error (StreamFault.notOpened s!"#{w.index}").failure) ∧
    ((∀ w ∈ ws, w.id ≠ none) →
      (∀ r r', whole = .ok r → streamed = .ok r' → SameCalls ws r.toolCalls r'.toolCalls) ∧
        (ws ≠ [] → ∃ r', streamed = .ok r')) := by
  intro whole streamed
  have hread : a.readResponse body = c.response := by
    rw [Adapter.readResponse, ha]
    exact readResponse_eq hbody hv
  have hmade : ∀ r, whole = .ok r → List.Forall₂ Call.Made c.calls r.toolCalls := by
    intro r hr
    have hgives := c.gives_made l
    rw [← hread, show ((a.readResponse body).run l).1 = .ok r from hr] at hgives
    exact hgives.calls
  have hwhole : ws ≠ [] → ∃ r, whole = .ok r := by
    intro hne
    have hnames : ∀ k ∈ c.calls, k.function.name ≠ "" := by
      rw [hc]
      exact List.forall_mem_map.mpr hws.names
    have hgives := c.gives_named hnames (by rwa [hc, Ne, List.map_eq_nil_iff]) l
    rw [← hread] at hgives
    cases hr : whole with
    | ok r => exact ⟨r, rfl⟩
    | error f =>
        rw [show ((a.readResponse body).run l).1 = .error f from hr] at hgives
        exact hgives.elim
  refine ⟨⟨hmade, hwhole⟩, ?_, fun hids => ?_⟩
  · rintro before w after rfl hids hid
    exact htail.refused ha hevents hws hes hids hid l'
  · obtain ⟨hcalls, hstreamed⟩ := htail.streamed ha hevents hws hes hids l'
    refine ⟨fun r r' hr hr' => ?_, hstreamed⟩
    have hmade := hmade r hr
    rw [hc] at hmade
    rw [hws.eq_whole hids hmade, hcalls r' hr']
    exact SameCalls.of_given ws

/-- The call of the greeting, sent in one piece. -/
theorem whole_calls_streamed_greeting :
    let a : Adapter :=
      { provider := .groq, credential := ⟨"groq", "k"⟩, baseUrl := "https://x" }
    let event := "\x7b\"choices\":[\x7b\"delta\":\x7b\"tool_calls\":[\x7b\"index\":0," ++
      ("\"id\":\"a\",\"function\":\x7b\"name\":\"f\",\"arguments\":\"[1]\"\x7d\x7d]\x7d," ++
        "\"finish_reason\":\"stop\"\x7d]\x7d")
    ∃ r r', ((a.readResponse (Text.Utf8.encode greetingText)).run {}).1 = .ok r ∧
      ((a.chunksOf (.ok ()) [event] {}).assemble (some a.name)).result = .ok r' ∧
      r'.toolCalls.length = 1 ∧ r'.toolCalls[0]? = r.toolCalls[0]? := by
  intro a event
  let w : IndexedCall :=
    { id := some "a", function := { name := "f", arguments := some "[1]" }, index := 0 }
  have hws : Distinct [w] := by
    constructor <;> decide
  obtain ⟨c, hcompletion, hcalls⟩ :
      ∃ c, completion greetingValue = .ok c ∧ c.calls = [w].map (·.toCall) := ⟨_, rfl, rfl⟩
  let v : Json := .object [("choices", .list [.object [
    ("delta", .object [("tool_calls", .list [.object [("index", .int 0), ("id", .text "a"),
      ("function", .object [("name", .text "f"), ("arguments", .text "[1]")])]])]),
    ("finish_reason", .text "stop")]])]
  have hread : Json.read? event = some v :=
    read?_of_chars (toList_joined String.toList_ofList
      (toList_joined String.toList_ofList String.toList_ofList)) (by cbv)
  obtain ⟨e, hevent, hdeltas, hcode⟩ :
      ∃ e, streamEvent v = .ok e ∧ [e].flatMap StreamEvent.deltas = [w.delta] ∧
        e.finishCode? ≠ none := ⟨_, rfl, rfl, by decide⟩
  have hends : Ends [e] [] := .code (List.mem_singleton_self e) hcode
  obtain ⟨⟨-, hwhole⟩, -, hsame⟩ := whole_calls_streamed a rfl hws readBytes_greetingText
    ((accepts_completion _ _).mp hcompletion) hcalls
    (.cons ⟨v, hread, rfl, (accepts_streamEvent _ _).mp hevent⟩ .nil) hdeltas hends {} {}
  obtain ⟨r, hr⟩ := hwhole (by simp)
  obtain ⟨hsame, hstreamed⟩ := hsame (by decide)
  obtain ⟨r', hr'⟩ := hstreamed (by simp)
  have hsame := hsame r r' hr hr'
  exact ⟨r, r', hr, hr', hsame.length', hsame.each 0 w rfl (by decide)⟩

/-- A call that has no id gets one in a completion, and is refused in a stream. -/
theorem whole_call_lacks_id :
    let a : Adapter := { provider := .groq, credential := ⟨"groq", "k"⟩, baseUrl := "https://x" }
    let w : IndexedCall :=
      { id := none, function := { name := "f", arguments := some "[1]" }, index := 0 }
    let rest := "\"function\":\x7b\"name\":\"f\",\"arguments\":\"[1]\"\x7d\x7d]\x7d," ++
      "\"finish_reason\":\"tool_calls\"\x7d]\x7d"
    let body := "\x7b\"choices\":[\x7b\"message\":\x7b\"tool_calls\":[\x7b" ++ rest
    let event := "\x7b\"choices\":[\x7b\"delta\":\x7b\"tool_calls\":[\x7b\"index\":0," ++ rest
    Distinct [w] ∧
      (∃ v c, Json.readBytes? (Text.Utf8.encode body) = some v ∧ IsCompletion v c ∧
        c.calls = [w].map (·.toCall)) ∧
      (∃ e, Carries IsStreamEvent event e ∧ e.deltas = [w.delta]) ∧
      (∃ r, ((a.readResponse (Text.Utf8.encode body)).run {}).1 = .ok r ∧
        r.toolCalls = [{ id := "call_000000000001", name := "f", arguments := "[1]" }]) ∧
      ((a.chunksOf (.ok ()) [event] {}).assemble (some a.name)).result =
        .error (.interrupted
          "Tool call fragment for #0 arrived before its opening fragment" none) := by
  intro a w rest body event
  let v : Json := .object [("choices", .list [.object [
    ("message", .object [("tool_calls", .list [.object [
      ("function", .object [("name", .text "f"), ("arguments", .text "[1]")])]])]),
    ("finish_reason", .text "tool_calls")]])]
  let v' : Json := .object [("choices", .list [.object [
    ("delta", .object [("tool_calls", .list [.object [("index", .int 0),
      ("function", .object [("name", .text "f"), ("arguments", .text "[1]")])]])]),
    ("finish_reason", .text "tool_calls")]])]
  have hws : Distinct ([] ++ w :: []) := by
    constructor <;> decide
  have hbody : Json.readBytes? (Text.Utf8.encode body) = some v :=
    readBytes?_encode (toList_joined String.toList_ofList
      (toList_joined String.toList_ofList String.toList_ofList)) (by cbv) (by decide +kernel)
  have hread : Json.read? event = some v' :=
    read?_of_chars (toList_joined String.toList_ofList
      (toList_joined String.toList_ofList String.toList_ofList)) (by cbv)
  obtain ⟨c, hcompletion, hcalls, hresponse⟩ :
      ∃ c, completion v = .ok c ∧ c.calls = [w].map (·.toCall) ∧
        ∃ r, (c.response.run {}).1 = .ok r ∧
          r.toolCalls = [{ id := "call_000000000001", name := "f", arguments := "[1]" }] :=
    ⟨_, rfl, rfl, _, rfl, by decide⟩
  obtain ⟨e, hevent, hdeltas, hcode⟩ :
      ∃ e, streamEvent v' = .ok e ∧ e.deltas = [w.delta] ∧ e.finishCode? ≠ none :=
    ⟨_, rfl, rfl, by decide⟩
  have hv := (accepts_completion _ _).mp hcompletion
  have hcarries : Carries IsStreamEvent event e :=
    ⟨v', hread, rfl, (accepts_streamEvent _ _).mp hevent⟩
  have hends : Ends [e] [] := .code (List.mem_singleton_self e) hcode
  refine ⟨hws, ⟨v, c, hbody, hv, hcalls⟩, ⟨e, hcarries, hdeltas⟩, ?_, ?_⟩
  · have hread : a.readResponse (Text.Utf8.encode body) = c.response := readResponse_eq hbody hv
    rwa [hread]
  · exact hends.refused (a := a) rfl (.cons hcarries .nil) hws (by simpa using hdeltas)
      (by simp) rfl {}

end Groq

end ChatClient
