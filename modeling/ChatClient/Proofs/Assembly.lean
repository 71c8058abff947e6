import ChatClient.Proofs.CallOrder

/-!
# What an assembler makes of its chunks

`CallOrder` says which fragments can be assembled, and which calls they describe, without
an assembler. Here the assembler meets that description: it takes a fragment exactly when
the fragment may follow those before it, and its calls are then the ones described. Over
whole runs this decides which lists of chunks are taken and what response they give.
-/

namespace ChatClient

variable {a a' : Assembler} {fs : List CallFragment} {f : CallFragment}

/-! ## The described calls, one fragment later -/

theorem opening_keys {g : CallFragment} (hg : g.opensCall = true) :
    ∃ id name, g.opening? = some (id, name) ∧ g.callId = some id ∧ g.name = some name := by
  obtain ⟨⟨id, name⟩, ho⟩ := Option.isSome_iff_exists.mp hg
  obtain ⟨⟨hid, -⟩, hname, -⟩ := CallFragment.opening?_eq_some.mp ho
  exact ⟨id, name, ho, hid, hname⟩

/-- A fragment that opens a call goes on with none. -/
theorem not_continues_of_opens {g : CallFragment} (hf : f.opensCall = true) :
    ¬ f.continues g := by
  intro h
  exact absurd h.1 (by simp [hf])

/-- No fragment of an orderly list goes on with a call that is opened anew after it. -/
theorem argumentsOf_opensAnew (h : Orderly fs) (hf : OpensAnew fs f) :
    argumentsOf fs f = f.arguments := by
  have hnone : fs.filter (fun g => g.continues f) = [] := by
    rw [List.filter_eq_nil_iff]
    intro g hg hcont
    have hcont : g.continues f := of_decide_eq_true hcont
    obtain ⟨k, hk, hgk⟩ := continues_opening h hg hcont.1
    -- `g` names both `f` and the older opening `k`, so these share a key
    cases hid : g.callId with
    | some id =>
        rw [CallFragment.continues, hid] at hcont hgk
        exact hf.id k hk (hgk.2.trans hcont.2.symm)
    | none =>
        rw [CallFragment.continues, hid] at hcont hgk
        rcases hf.index with hi | hi
        · rw [hi] at hcont
          exact absurd hcont.2.1 (by simp [← hcont.2.2])
        · exact hi k hk (hgk.2.2.trans hcont.2.2.symm)
  rw [argumentsOf, hnone]
  simp

theorem openedCalls_opensAnew (h : Orderly fs) (hf : OpensAnew fs f) {id name : String}
    (ho : f.opening? = some (id, name)) :
    openedCalls (fs ++ [f]) =
      openedCalls fs ++ [{ id, name, index := f.index, arguments := f.arguments }] := by
  obtain ⟨⟨hid, _⟩, hname, _⟩ := CallFragment.opening?_eq_some.mp ho
  have hsame : describedCall (fs ++ [f]) = describedCall fs := by
    funext g
    rw [describedCall, argumentsOf_snoc, if_neg (not_continues_of_opens hf.opens),
      String.append_empty, describedCall]
  rw [openedCalls, hsame, openings_snoc, if_pos hf.opens, List.map_append, openedCalls]
  refine congrArg _ (congrArg (fun c => [c]) ?_)
  rw [describedCall, hid, hname, argumentsOf_opensAnew h hf]
  rfl

/-- A continuation of the call opened last goes on with no other call. -/
theorem continues_last_only (h : Orderly fs) {gs : List CallFragment} {g k : CallFragment}
    (hgs : openings fs = gs ++ [g]) (hk : k ∈ gs) (hf : f.continues g) : ¬ f.continues k := by
  intro hfk
  have hpair := openings_pairwise h
  rw [hgs, List.pairwise_append] at hpair
  obtain ⟨hid, hindex⟩ := hpair.2.2 k hk g (List.mem_singleton.mpr rfl)
  cases hc : f.callId with
  | some id =>
      rw [CallFragment.continues, hc] at hf hfk
      exact hid (hfk.2.trans hf.2.symm)
  | none =>
      rw [CallFragment.continues, hc] at hf hfk
      rcases hindex with hi | hi
      · rw [hi] at hf
        exact absurd hf.2.1 (by simp [← hf.2.2])
      · exact hi (hfk.2.2.trans hf.2.2.symm)

theorem modify_concat {α : Type} {xs : List α} {x : α} {g : α → α} {n : Nat}
    (hn : n = xs.length) : (xs ++ [x]).modify n g = xs ++ [g x] := by
  subst hn
  induction xs with
  | nil => rfl
  | cons y ys ih => simp [ih]

theorem openedCalls_continuesLast (h : Orderly fs) (hf : ContinuesLast fs f) {p : Nat}
    (hp : p + 1 = (openedCalls fs).length) :
    openedCalls (fs ++ [f]) = (openedCalls fs).modify p (·.grow f.arguments) := by
  obtain ⟨g, hlast, hcont⟩ := hf
  obtain ⟨gs, hgs⟩ := List.getLast?_eq_some_iff.mp hlast
  have hopen : openings (fs ++ [f]) = gs ++ [g] := by
    rw [openings_snoc, hcont.1, hgs]
    simp
  have hlen : p = (gs.map (describedCall fs)).length := by
    rw [openedCalls, hgs, List.length_map, List.length_append, List.length_singleton] at hp
    rw [List.length_map]
    omega
  -- the fragment counts for the last call and for none before it
  have hothers : ∀ k ∈ gs, describedCall (fs ++ [f]) k = describedCall fs k := by
    intro k hk
    rw [describedCall, argumentsOf_snoc, if_neg (continues_last_only h hgs hk hcont),
      String.append_empty, describedCall]
  have hgrown : describedCall (fs ++ [f]) g = (describedCall fs g).grow f.arguments := by
    rw [describedCall, argumentsOf_snoc, if_pos hcont]
    rfl
  rw [openedCalls, hopen, List.map_append, List.map_congr_left hothers, openedCalls, hgs,
    List.map_append, List.map_singleton, List.map_singleton, modify_concat hlen, hgrown]

/-! ## Taking a fragment is following the fragments before it -/

theorem described_id {g : CallFragment} (hg : g ∈ openings fs) :
    some (describedCall fs g).id = g.callId := by
  obtain ⟨id, _, _, hid, _⟩ := opening_keys (mem_openings.mp hg).2
  rw [describedCall, hid]
  rfl

/-- What an assembler is after the fragments `fs`, all of them taken. -/
structure Assembler.Holds (a : Assembler) (fs : List CallFragment) : Prop where
  lawful : a.Lawful
  orderly : Orderly fs
  calls : a.calls = openedCalls fs

namespace Assembler.Holds

theorem fresh (provider : Option String) : ({ provider } : Assembler).Holds [] where
  lawful := lawful_fresh provider
  orderly := orderly_nil
  calls := rfl

section Keys

variable {κ : Type} [BEq κ] {table : List (κ × Nat)} {key : OpenCall → Option κ}
  {own : CallFragment → Option κ} {k : κ} {p : Nat}

/-- A key is not in its table exactly when no opening has it. -/
theorem lookup_eq_none (h : a.Holds fs) (ht : Locates table key a.calls)
    (hkey : ∀ g ∈ openings fs, key (describedCall fs g) = own g) :
    table.lookup k = none ↔ ∀ g ∈ openings fs, own g ≠ some k := by
  rw [ht.eq_none_iff, h.calls, openedCalls, List.forall_mem_map]
  exact forall₂_congr fun g hg => by rw [hkey g hg]

/-- A table gives the last position for the key of the last opening only. -/
theorem lookup_eq_last (h : a.Holds fs) (ht : Locates table key a.calls)
    (hkey : ∀ g ∈ openings fs, key (describedCall fs g) = own g) (hp : p + 1 = a.calls.length) :
    table.lookup k = some p ↔ ∃ g, (openings fs).getLast? = some g ∧ own g = some k := by
  rw [ht.lookup_last hp, h.calls, openedCalls, List.getLast?_map]
  constructor
  · intro h'
    obtain ⟨c, hc, hk⟩ := h'
    obtain ⟨g, hg, rfl⟩ := Option.map_eq_some_iff.mp hc
    exact ⟨g, hg, (hkey g (List.mem_of_getLast? hg)).symm.trans hk⟩
  · intro h'
    obtain ⟨g, hg, hk⟩ := h'
    exact ⟨_, by rw [hg]; rfl, (hkey g (List.mem_of_getLast? hg)).trans hk⟩

end Keys

theorem opensAnew_iff (h : a.Holds fs) {id name : String} (ho : f.opening? = some (id, name)) :
    OpensAnew fs f ↔
      a.byId.lookup id = none ∧ ∀ i, f.index = some i → a.byIndex.lookup i = none := by
  obtain ⟨⟨hid, _⟩, _⟩ := CallFragment.opening?_eq_some.mp ho
  have hids := h.lookup_eq_none (k := id) h.lawful.byId fun g => described_id
  have hindexes := fun i => h.lookup_eq_none (k := i) h.lawful.byIndex fun g _ => rfl
  constructor
  · intro hf
    refine ⟨hids.mpr (hid ▸ hf.id), fun i hi => (hindexes i).mpr ?_⟩
    rcases hf.index with hn | hn
    · exact absurd (hi.symm.trans hn) (by simp)
    · rwa [hi] at hn
  · intro h'
    obtain ⟨hnewId, hnewIndex⟩ := h'
    refine ⟨by rw [CallFragment.opensCall, ho]; rfl, hid ▸ hids.mp hnewId, ?_⟩
    cases hi : f.index with
    | none => exact Or.inl rfl
    | some i => exact Or.inr ((hindexes i).mp (hnewIndex i hi))

theorem continuesLast_iff (h : a.Holds fs) (ho : f.opening? = none) :
    ContinuesLast fs f ↔ ∃ p, a.target? f = some p ∧ p + 1 = a.calls.length := by
  have hopens : f.opensCall = false := by rw [CallFragment.opensCall, ho]; rfl
  have hpos : ∀ g, (openings fs).getLast? = some g → a.calls.length - 1 + 1 = a.calls.length := by
    intro g hg
    have := List.length_pos_of_mem (List.mem_of_getLast? hg)
    rw [h.calls, openedCalls, List.length_map]
    omega
  unfold ContinuesLast CallFragment.continues target?
  cases hc : f.callId with
  | some id =>
      have hids := fun p => h.lookup_eq_last (k := id) (p := p) h.lawful.byId fun g => described_id
      constructor
      · intro h'
        obtain ⟨g, hg, -, hk⟩ := h'
        exact ⟨_, (hids _ (hpos g hg)).mpr ⟨g, hg, hk⟩, hpos g hg⟩
      · intro h'
        obtain ⟨p, ht, hp⟩ := h'
        obtain ⟨g, hg, hk⟩ := (hids p hp).mp ht
        exact ⟨g, hg, hopens, hk⟩
  | none =>
      cases hi : f.index with
      | none => simp
      | some i =>
          have hindexes := fun p =>
            h.lookup_eq_last (k := i) (p := p) h.lawful.byIndex fun g _ => rfl
          constructor
          · intro h'
            obtain ⟨g, hg, -, -, hk⟩ := h'
            exact ⟨_, (hindexes _ (hpos g hg)).mpr ⟨g, hg, hk⟩, hpos g hg⟩
          · intro h'
            obtain ⟨p, ht, hp⟩ := h'
            obtain ⟨g, hg, hk⟩ := (hindexes p hp).mp ht
            exact ⟨g, hg, hopens, rfl, hk⟩

/-- **A fragment is taken exactly when it may follow those before it**, and the calls are
then those of the longer list. -/
theorem feedFragment (h : a.Holds fs) (f : CallFragment) :
    (MayFollow fs f → ∃ a', a.feedFragment f = .ok a') ∧
      ∀ a', a.feedFragment f = .ok a' → a'.Holds (fs ++ [f]) := by
  constructor
  · intro hf
    cases ho : f.opening? with
    | some key =>
        obtain ⟨id, name⟩ := key
        rcases hf with hf | ⟨_, _, hf, _⟩
        · obtain ⟨hid, hindex⟩ := (h.opensAnew_iff ho).mp hf
          exact ⟨_, feedFragment_eq_ok.mpr (Or.inl ⟨id, name, ho, hid, hindex, rfl⟩)⟩
        · rw [CallFragment.opensCall, ho] at hf
          exact absurd hf (by simp)
    | none =>
        rcases hf with hf | hf
        · have := hf.opens
          rw [CallFragment.opensCall, ho] at this
          exact absurd this (by simp)
        · obtain ⟨p, ht, hp⟩ := (h.continuesLast_iff ho).mp hf
          exact ⟨_, feedFragment_eq_ok.mpr (Or.inr ⟨ho, p, ht, hp, rfl⟩)⟩
  · intro a' hok
    have hlawful := h.lawful.feedFragment hok
    rcases feedFragment_eq_ok.mp hok with ⟨id, name, ho, hid, hindex, rfl⟩ | ⟨ho, p, ht, hp, rfl⟩
    · have hf := (h.opensAnew_iff ho).mpr ⟨hid, hindex⟩
      refine ⟨hlawful, orderly_snoc.mpr ⟨h.orderly, Or.inl hf⟩, ?_⟩
      rw [openedCalls_opensAnew h.orderly hf ho, ← h.calls]
      rfl
    · have hf := (h.continuesLast_iff ho).mpr ⟨p, ht, hp⟩
      refine ⟨hlawful, orderly_snoc.mpr ⟨h.orderly, Or.inr hf⟩, ?_⟩
      rw [openedCalls_continuesLast h.orderly hf (h.calls ▸ hp), ← h.calls]

/-- The same over a list of fragments: it is taken whole exactly when it keeps the order, and
otherwise up to the first fragment that may not follow those before it. -/
theorem feedFragments (h : a.Holds fs) (gs : List CallFragment) :
    (∃ b, a.feedFragments gs = (none, b) ∧ b.Holds (fs ++ gs)) ∨
      ∃ e b before f after, a.feedFragments gs = (some e, b) ∧ gs = before ++ f :: after ∧
        ¬ MayFollow (fs ++ before) f ∧ b.Holds (fs ++ before) := by
  induction gs generalizing a fs with
  | nil => exact .inl ⟨a, rfl, by rwa [List.append_nil]⟩
  | cons g gs ih =>
      unfold Assembler.feedFragments
      cases hg : a.feedFragment g with
      | ok a' =>
          rw [List.append_cons]
          rcases ih ((h.feedFragment g).2 a' hg) with
            hall | ⟨e, b, before, f, after, hfed, rfl, hf, hb⟩
          · exact .inl hall
          · refine .inr ⟨e, b, g :: before, f, after, hfed, rfl, ?_, ?_⟩
            · rwa [List.append_cons]
            · rwa [List.append_cons]
      | error e =>
          refine .inr ⟨e, a, [], g, gs, rfl, rfl, fun hmay => ?_, by rwa [List.append_nil]⟩
          rw [List.append_nil] at hmay
          obtain ⟨a', ha'⟩ := (h.feedFragment g).1 hmay
          rw [hg] at ha'
          exact absurd ha' (by simp)

end Assembler.Holds

/-! ## Chunks -/

/-- The fragments of some chunks, in order. -/
def fragmentsOf (cs : List Chunk) : List CallFragment := cs.flatMap (·.fragments)

/-- What the last of the chunks that give it gives. -/
def lastGiven {α : Type} (give : Chunk → Option α) (cs : List Chunk) : Option α :=
  (cs.filterMap give).getLast?

/-- The finish reason of a chunk that has one, with the words of the service for it. -/
def Chunk.finish? (c : Chunk) : Option (FinishReason × Option String) :=
  c.finishReason.map fun reason => (reason, c.rawFinishReason)

theorem fragmentsOf_snoc (cs : List Chunk) (c : Chunk) :
    fragmentsOf (cs ++ [c]) = fragmentsOf cs ++ c.fragments := by
  simp [fragmentsOf]

theorem lastGiven_snoc {α : Type} (give : Chunk → Option α) (cs : List Chunk) (c : Chunk) :
    lastGiven give (cs ++ [c]) = (give c).or (lastGiven give cs) := by
  cases h : give c <;> simp [lastGiven, List.filterMap_append, h]

/-- What an assembler is after the chunks `offered`, of which it has taken the chunks `taken` and
the fragments `fs`. Only text counts also where a chunk is refused. -/
structure Assembler.Keeps (a : Assembler) (provider : Option String) (offered taken : List Chunk)
    (fs : List CallFragment) : Prop where
  holds : a.Holds fs
  provider : a.provider = provider
  text : a.text = String.join (offered.map (·.text))
  finishReason : a.finishReason = (lastGiven Chunk.finish? taken).map (·.1)
  rawFinishReason : a.rawFinishReason = (lastGiven Chunk.finish? taken).bind (·.2)
  usage : a.usage = lastGiven (·.usage) taken
  responseId : a.responseId = lastGiven (given? ·.responseId) taken
  model : a.model = lastGiven (given? ·.model) taken
  terminated : a.terminated = taken.any (·.isTerminal)
  finished : a.finished = false

namespace Assembler.Keeps

variable {provider : Option String} {offered taken : List Chunk}

theorem fresh (provider : Option String) : ({ provider } : Assembler).Keeps provider [] [] [] := by
  constructor <;> first | exact Holds.fresh provider | rfl

/-- A chunk counts as a whole once its text and its fragments have been taken. -/
theorem close (h : a.Keeps provider offered taken fs) {c : Chunk} {b : Assembler}
    (hb : (a.addText c.text).CallsOnly b) (hf : b.Holds (fs ++ c.fragments)) :
    (b.close c).Keeps provider (offered ++ [c]) (taken ++ [c]) (fs ++ c.fragments) := by
  obtain ⟨calls, byId, byIndex, rfl⟩ := hb
  refine {
    holds := ⟨hf.lawful.congr rfl rfl rfl, hf.orderly, hf.calls⟩
    provider := h.provider
    text := ?_
    finishReason := ?_
    rawFinishReason := ?_
    usage := ?_
    responseId := ?_
    model := ?_
    terminated := ?_
    finished := h.finished }
  · show a.text ++ c.text = _
    rw [h.text]; simp
  · show c.finishReason.or a.finishReason = _
    rw [h.finishReason, lastGiven_snoc, Chunk.finish?]
    cases c.finishReason <;> rfl
  · show (if c.finishReason.isSome then c.rawFinishReason else a.rawFinishReason) = _
    rw [h.rawFinishReason, lastGiven_snoc, Chunk.finish?]
    cases c.finishReason <;> rfl
  · show c.usage.or a.usage = _
    rw [h.usage, lastGiven_snoc]
  · show (given? c.responseId).or a.responseId = _
    rw [h.responseId, lastGiven_snoc]
  · show (given? c.model).or a.model = _
    rw [h.model, lastGiven_snoc]
  · show (a.terminated || c.isTerminal) = _
    rw [h.terminated]; simp

/-- Of a chunk that is refused the text counts, and the fragments that were taken. -/
theorem refuse (h : a.Keeps provider offered taken fs) {c : Chunk} {b : Assembler}
    (hb : (a.addText c.text).CallsOnly b) {gs : List CallFragment} (hf : b.Holds gs) :
    b.Keeps provider (offered ++ [c]) taken gs := by
  obtain ⟨calls, byId, byIndex, rfl⟩ := hb
  exact {
    holds := hf
    provider := h.provider
    text := by
      show a.text ++ c.text = _
      rw [h.text]; simp
    finishReason := h.finishReason
    rawFinishReason := h.rawFinishReason
    usage := h.usage
    responseId := h.responseId
    model := h.model
    terminated := h.terminated
    finished := h.finished }

/-- **One chunk**: it is taken and counts where its fragments may follow those before them. It is
refused otherwise, and counts up to the first fragment that may not follow. -/
theorem accept (h : a.Keeps provider offered taken fs) (c : Chunk) :
    (∃ b, a.accept c = (.ok (), b) ∧
      b.Keeps provider (offered ++ [c]) (taken ++ [c]) (fs ++ c.fragments)) ∨
    ∃ (e : StreamFault) (b : Assembler) (before : List CallFragment) (f : CallFragment)
      (after : List CallFragment), a.accept c = (.error e.failure, b) ∧
        c.fragments = before ++ f :: after ∧ ¬ MayFollow (fs ++ before) f ∧
        b.Keeps provider (offered ++ [c]) taken (fs ++ before) := by
  have hheld : (a.addText c.text).Holds fs :=
    ⟨h.holds.lawful.congr rfl rfl rfl, h.holds.orderly, h.holds.calls⟩
  have hcalls := feedFragments_callsOnly (a.addText c.text) c.fragments
  rw [accept_eq h.finished]
  rcases hheld.feedFragments c.fragments with
    ⟨b, hfed, hb⟩ | ⟨e, b, before, f, after, hfed, hc, hf, hb⟩
  · rw [hfed] at hcalls ⊢
    exact .inl ⟨b.close c, rfl, h.close hcalls hb⟩
  · rw [hfed] at hcalls ⊢
    exact .inr ⟨e, b, before, f, after, rfl, hc, hf, h.refuse hcalls hb⟩

end Assembler.Keeps

/-- What an assembler is after the chunks `cs`, all of them taken. -/
def Assembler.Sums (a : Assembler) (provider : Option String) (cs : List Chunk) : Prop :=
  a.Keeps provider cs cs (fragmentsOf cs)

namespace Assembler.Sums

variable {provider : Option String} {cs : List Chunk}

theorem fresh (provider : Option String) : ({ provider } : Assembler).Sums provider [] :=
  Keeps.fresh provider

/-- **One chunk**: it is taken exactly when the fragments so far and its own are in order,
and then it counts. -/
theorem accept (h : a.Sums provider cs) (c : Chunk) :
    (Orderly (fragmentsOf (cs ++ [c])) ↔ (a.accept c).1 = .ok ()) ∧
      ((a.accept c).1 = .ok () → (a.accept c).2.Sums provider (cs ++ [c])) := by
  unfold Sums
  rw [fragmentsOf_snoc]
  rcases Keeps.accept h c with ⟨b, haccept, hb⟩ | ⟨e, b, before, f, after, haccept, hc, hf, -⟩
  · rw [haccept]
    exact ⟨iff_of_true hb.holds.orderly rfl, fun _ => hb⟩
  · -- the chunk is refused for its fragments, which no order of chunks can mend
    rw [haccept, hc]
    refine ⟨iff_of_false (fun ho => ?_) (by simp), fun he => absurd he (by simp)⟩
    exact hf (ho (fragmentsOf cs ++ before) f after (List.append_assoc ..).symm)

/-- **A run**: chunks are taken to the last exactly when all their fragments are in
order. -/
theorem acceptAll (h : a.Sums provider cs) (ds : List Chunk) :
    (Orderly (fragmentsOf (cs ++ ds)) ↔ (a.acceptAll ds).1 = .ok ()) ∧
      ((a.acceptAll ds).1 = .ok () → (a.acceptAll ds).2.Sums provider (cs ++ ds)) := by
  induction ds generalizing a cs with
  | nil =>
      rw [List.append_nil]
      exact ⟨⟨fun _ => rfl, fun _ => h.holds.orderly⟩, fun _ => h⟩
  | cons d ds ih =>
      obtain ⟨horder, hsums⟩ := h.accept d
      rw [List.append_cons]
      unfold Assembler.acceptAll
      cases hd : a.accept d with
      | mk result b =>
          rw [hd] at horder hsums
          cases result with
          | ok u => exact ih (hsums rfl)
          | error e =>
              refine ⟨⟨fun ho => ?_, fun he => absurd he (by simp)⟩, fun he => absurd he (by simp)⟩
              -- the chunks after `d` are not looked at, but they cannot mend the order either
              have hprefix : Orderly (fragmentsOf (cs ++ [d])) := by
                rw [fragmentsOf, List.flatMap_append] at ho
                exact ho.of_append
              exact absurd (horder.mp hprefix) (by simp)

end Assembler.Sums

/-! ## The response -/

/-- The finish reason of a response, given the last one reported: calls make a request for
tool calls of a stop, and of no reason at all. -/
def settledReason (last : Option FinishReason) (calls : List ToolCall) : FinishReason :=
  if calls ≠ [] ∧ (last = none ∨ last = some .stop) then .toolCalls else last.getD .stop

theorem finalReason_eq (last : Option FinishReason) (calls : List ToolCall) :
    Assembler.finalReason last calls.isEmpty =
      if last = some .toolCalls ∧ calls = [] then .error .noCalls
      else .ok (settledReason last calls) := by
  cases calls with
  | nil =>
      cases last with
      | none => rfl
      | some reason => cases reason <;> rfl
  | cons c cs =>
      cases last with
      | none => rfl
      | some reason => cases reason <;> rfl

/-- What is answered when the response is asked for. -/
theorem Assembler.Keeps.finish {provider : Option String} {offered taken : List Chunk}
    (h : a.Keeps provider offered taken fs) :
    let last := lastGiven Chunk.finish? taken
    let calls := (openedCalls fs).map OpenCall.call
    a.finish.1 =
      if ∀ c ∈ taken, c.isTerminal = false then .error .unterminated
      else if last.map (·.1) = some .toolCalls ∧ calls = [] then .error .noCalls
      else .ok
        { message := .assistant (String.join (offered.map (·.text))) calls
          finishReason := settledReason (last.map (·.1)) calls
          rawFinishReason := last.bind (·.2)
          usage := lastGiven (·.usage) taken
          model := lastGiven (given? ·.model) taken
          responseId := lastGiven (given? ·.responseId) taken
          provider } := by
  intro last calls
  have hcalls : a.calls.map OpenCall.call = calls := by rw [h.holds.calls]
  have hempty : a.calls.isEmpty = calls.isEmpty := by rw [← hcalls, List.isEmpty_map]
  have hterminal : (∀ c ∈ taken, c.isTerminal = false) ↔ a.terminated = false := by
    rw [h.terminated, List.any_eq_false]
    exact forall₂_congr fun c _ => by rw [Bool.not_eq_true]
  unfold Assembler.finish Assembler.response
  by_cases hend : ∀ c ∈ taken, c.isTerminal = false
  · rw [if_pos hend, hterminal.mp hend]
    rfl
  · have hterminated : a.terminated = true := by
      rw [hterminal] at hend
      exact eq_true_of_ne_false hend
    rw [if_neg hend, hterminated, hempty, hcalls, finalReason_eq, h.finishReason, h.text,
      h.usage, h.model, h.responseId, h.provider, h.rawFinishReason]
    by_cases hnone : last.map (·.1) = some .toolCalls ∧ calls = []
    · rw [if_pos hnone, if_pos hnone]
      rfl
    · rw [if_neg hnone, if_neg hnone]
      rfl

/--
**What is taken, and what comes of it.**

Chunks are taken to the last exactly when their fragments are in order. The response then
needs a terminal chunk, and calls where the last finish reason asks for them; it has the
text of all chunks, one call for each opening, and of everything else what the last chunk
that has it says.
-/
theorem acceptAll_exact (provider : Option String) (cs : List Chunk) :
    let run := ({ provider } : Assembler).acceptAll cs
    let fs := fragmentsOf cs
    let last := lastGiven Chunk.finish? cs
    let calls := (openings fs).map fun g : CallFragment =>
      ({ id := g.callId.getD "", name := g.name.getD "", arguments := argumentsOf fs g } : ToolCall)
    (run.1 = .ok () ↔ Orderly fs) ∧
      (run.1 = .ok () → run.2.finish.1.mapError StreamFault.failure =
        if ∀ c ∈ cs, c.isTerminal = false then .error StreamFault.unterminated.failure
        else if last.map (·.1) = some .toolCalls ∧ calls = [] then
          .error StreamFault.noCalls.failure
        else .ok
          { message := .assistant (String.join (cs.map (·.text))) calls
            finishReason := settledReason (last.map (·.1)) calls
            rawFinishReason := last.bind (·.2)
            usage := lastGiven (·.usage) cs
            model := lastGiven (given? ·.model) cs
            responseId := lastGiven (given? ·.responseId) cs
            provider }) := by
  intro run fs last calls
  obtain ⟨horder, hsums⟩ := (Assembler.Sums.fresh provider).acceptAll cs
  refine ⟨horder.symm, fun hok => ?_⟩
  have hcalls : (openedCalls fs).map OpenCall.call = calls := by
    rw [openedCalls, List.map_map]
    rfl
  have h : run.2.Sums provider cs := hsums hok
  rw [Assembler.Keeps.finish h, hcalls]
  split
  · rfl
  · split <;> rfl

/-- Two calls, the first continued by its index and the second by its id, and a stop that
the calls turn into a request for them. -/
def twoCalls : List Chunk := [
  { text := "On ", responseId := some "r1" },
  { text := "it", fragments := [
      { index := some 0, callId := some "a", name := some "find", arguments := "\x7b" },
      { index := some 0, arguments := "\x7d" },
      { callId := some "b", name := some "sum", arguments := "[" }] },
  { fragments := [{ index := some 7, callId := some "b", arguments := "]" }]
    finishReason := some .stop, rawFinishReason := some "stop", responseId := some "" },
  { usage := some { totalTokens := some 9 }, done := true }]

theorem acceptAll_exact_twoCalls :
    (({ provider := some "groq" } : Assembler).acceptAll twoCalls).1 = .ok () ∧
      (({ provider := some "groq" } : Assembler).acceptAll twoCalls).2.finish.1.mapError
        StreamFault.failure = .ok
          { message := .assistant "On it" [
              { id := "a", name := "find", arguments := "\x7b\x7d" },
              { id := "b", name := "sum", arguments := "[]" }]
            finishReason := .toolCalls
            rawFinishReason := some "stop"
            usage := some { totalTokens := some 9 }
            provider := some "groq"
            responseId := some "r1" } := by
  have htaken : (({ provider := some "groq" } : Assembler).acceptAll twoCalls).1 = .ok () := by
    rfl
  refine ⟨htaken, ((acceptAll_exact (some "groq") twoCalls).2 htaken).trans ?_⟩
  rfl

end ChatClient
