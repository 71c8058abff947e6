import ChatClient.Proofs.Refusals

/-!
# The books of an assembler

An assembler finds its calls again by two tables, and a chunk may change all three before one of
its fragments is refused. What holds of them is therefore said of every moment of a run: after any
chunks, taken or refused, and in the middle of the next one.

Between two such moments `Assembler.LeadsTo` says what has not changed. Its part about the
arguments of a call looks at the earlier moment only: there another call had been opened after it,
so nothing is added to it any more.
-/

namespace ChatClient

/-! ## Keys that differ -/

section Keys

variable {κ : Type} [BEq κ] {table : List (κ × Nat)} {key : OpenCall → Option κ}
  {calls : List OpenCall}

/-- A table has one place for a key, so no two calls have the same one. -/
theorem Locates.nodup (h : Locates table key calls) : (calls.filterMap key).Nodup := by
  rw [List.Nodup, List.pairwise_filterMap, List.pairwise_iff_getElem]
  intro p q hp hq hpq k hk l hl heq
  subst heq
  have hatp := (h k p).mpr ⟨calls[p], List.getElem?_eq_getElem hp, hk⟩
  have hatq := (h k q).mpr ⟨calls[q], List.getElem?_eq_getElem hq, hl⟩
  exact absurd (Option.some.inj (hatp.symm.trans hatq)) (Nat.ne_of_lt hpq)

end Keys

/-- The calls have ids, names and keys of their own, and the tables have exactly these keys. -/
structure Assembler.InBooks (a : Assembler) : Prop extends a.Lawful where
  ids : (a.calls.map (·.id)).Nodup
  indexes : (a.calls.filterMap (·.index)).Nodup

theorem Assembler.Lawful.inBooks {a : Assembler} (h : a.Lawful) : a.InBooks where
  toLawful := h
  ids := by
    have hids := h.byId.nodup
    rwa [← Function.comp_def, List.filterMap_eq_map] at hids
  indexes := h.byIndex.nodup

/-! ## What stays -/

@[simp]
theorem OpenCall.grow_empty (c : OpenCall) : c.grow "" = c := by
  rw [OpenCall.grow, String.append_empty]

@[simp]
theorem OpenCall.grow_grow (c : OpenCall) (s t : String) : (c.grow s).grow t = c.grow (s ++ t) := by
  rw [OpenCall.grow, OpenCall.grow, OpenCall.grow, String.append_assoc]

/-- What is still so in `b`, which `a` has come to be: the calls stand where they stood, and only
the one opened last may have got more arguments. The end of the stream is not forgotten. -/
structure Assembler.LeadsTo (a b : Assembler) : Prop where
  calls : ∀ p c, a.calls[p]? = some c →
    ∃ more, b.calls[p]? = some (c.grow more) ∧ (p + 1 < a.calls.length → more = "")
  terminated : a.terminated = true → b.terminated = true

namespace Assembler

variable {a b c : Assembler} {f : CallFragment}

namespace LeadsTo

/-- What leaves the calls alone keeps the end of the stream in mind. -/
theorem of_calls (hc : b.calls = a.calls) (ht : a.terminated = true → b.terminated = true) :
    a.LeadsTo b where
  calls := by
    intro p d hd
    exact ⟨"", by rw [hc, hd, OpenCall.grow_empty], fun _ => rfl⟩
  terminated := ht

theorem refl (a : Assembler) : a.LeadsTo a := of_calls rfl id

/-- No call is closed. -/
theorem lt_length (h : a.LeadsTo b) {p : Nat} (hp : p < a.calls.length) : p < b.calls.length := by
  obtain ⟨more, hmore, -⟩ := h.calls p _ (List.getElem?_eq_getElem hp)
  exact (List.getElem?_eq_some_iff.mp hmore).1

theorem trans (hab : a.LeadsTo b) (hbc : b.LeadsTo c) : a.LeadsTo c where
  calls := by
    intro p d hd
    obtain ⟨s, hs, hslast⟩ := hab.calls p d hd
    obtain ⟨t, ht, htlast⟩ := hbc.calls p _ hs
    refine ⟨s ++ t, by rw [ht, OpenCall.grow_grow], fun hp => ?_⟩
    -- a call after this one has been opened, so it is not the last one later either
    rw [hslast hp, htlast (hab.lt_length hp), String.append_empty]
  terminated := fun h => hbc.terminated (hab.terminated h)

/-- **One fragment**: it opens a call after the others, or it is for the last of them. -/
theorem feedFragment (h : a.feedFragment f = .ok b) : a.LeadsTo b := by
  rcases feedFragment_eq_ok.mp h with ⟨id, name, -, -, -, rfl⟩ | ⟨-, q, -, hq, rfl⟩
  · refine ⟨fun p d hd => ⟨"", ?_, fun _ => rfl⟩, fun h => h⟩
    have hp : p < a.calls.length := (List.getElem?_eq_some_iff.mp hd).1
    rw [addCall, List.getElem?_append_left hp, hd, OpenCall.grow_empty]
  · refine ⟨fun p d hd => ?_, fun h => h⟩
    rw [List.getElem?_modify, hd]
    by_cases hqp : q = p
    · exact ⟨f.arguments, by simp [hqp], fun hp => absurd hq (by omega)⟩
    · exact ⟨"", by simp [hqp], fun _ => rfl⟩

theorem feedFragments (a : Assembler) (fs : List CallFragment) :
    a.LeadsTo (a.feedFragments fs).2 :=
  feedFragments_rel (R := LeadsTo) refl (fun hf => (feedFragment hf).trans) a fs

theorem addText (a : Assembler) (more : String) : a.LeadsTo (a.addText more) := of_calls rfl id

theorem close (a : Assembler) (c : Chunk) : a.LeadsTo (a.close c) :=
  of_calls rfl fun h => by rw [Assembler.close, h, Bool.true_or]

end LeadsTo

/-! ## In the middle of a chunk -/

/-- Of fragments that are not all taken, those before the refused one are. -/
theorem feedFragments_refused {fs : List CallFragment} {e : StreamFault}
    (h : a.feedFragments fs = (some e, b)) :
    ∃ before g after, fs = before ++ g :: after ∧ a.feedFragments before = (none, b) ∧
      b.feedFragment g = .error e := by
  induction fs generalizing a with
  | nil => exact absurd h (by simp [feedFragments])
  | cons f fs ih =>
      rw [feedFragments] at h
      cases hf : a.feedFragment f with
      | ok d =>
          simp only [hf] at h
          obtain ⟨before, g, after, rfl, hbefore, hg⟩ := ih h
          refine ⟨f :: before, g, after, rfl, ?_, hg⟩
          rw [feedFragments, hf]
          exact hbefore
      | error e' =>
          simp only [hf, Prod.mk.injEq, Option.some.injEq] at h
          obtain ⟨rfl, rfl⟩ := h
          exact ⟨[], f, fs, rfl, rfl, hf⟩

/-- What an assembler is after the text of a chunk and some of its fragments. -/
def midway (a : Assembler) (c : Chunk) (fs : List CallFragment) : Assembler :=
  ((a.addText c.text).feedFragments fs).2

theorem Lawful.midway (h : a.Lawful) (c : Chunk) (fs : List CallFragment) :
    (a.midway c fs).Lawful :=
  (h.congr (b := a.addText c.text) rfl rfl rfl).feedFragments fs

theorem LeadsTo.midway (a : Assembler) (c : Chunk) (fs : List CallFragment) :
    a.LeadsTo (a.midway c fs) :=
  (LeadsTo.addText a c.text).trans (LeadsTo.feedFragments _ fs)

theorem LeadsTo.midway_append (a : Assembler) (c : Chunk) (fs gs : List CallFragment) :
    (a.midway c fs).LeadsTo (a.midway c (fs ++ gs)) := by
  unfold Assembler.midway
  rw [feedFragments_append]
  split
  · next b hb => rw [hb]; exact LeadsTo.feedFragments b gs
  · next e b hb => rw [hb]; exact LeadsTo.refl b

/-- An assembler has gone through all of a chunk's fragments when it answers. -/
theorem LeadsTo.accept_midway (h : a.finished = false) (c : Chunk) :
    (a.midway c c.fragments).LeadsTo (a.accept c).2 := by
  rw [accept_eq h, Assembler.midway]
  split
  · next b hb => rw [hb]; exact LeadsTo.close b c
  · next e b hb => rw [hb]; exact LeadsTo.refl b

/-! ## Runs -/

theorem LeadsTo.accept (a : Assembler) (c : Chunk) : a.LeadsTo (a.accept c).2 := by
  cases hfin : a.finished with
  | true => rw [accept_finished hfin]; exact LeadsTo.refl a
  | false => exact (LeadsTo.midway a c c.fragments).trans (LeadsTo.accept_midway hfin c)

theorem LeadsTo.offer (a : Assembler) (cs : List Chunk) : a.LeadsTo (a.offer cs).2 := by
  induction cs generalizing a with
  | nil => exact LeadsTo.refl a
  | cons c cs ih =>
      rw [Assembler.offer]
      exact (LeadsTo.accept a c).trans (ih _)

/-- A chunk is refused for one of its fragments only. -/
theorem accept_eq_error (hfin : a.finished = false) {c : Chunk} {f : Failure}
    (h : a.accept c = (.error f, b)) :
    ∃ e : StreamFault, f = e.failure ∧
      (a.addText c.text).feedFragments c.fragments = (some e, b) := by
  rw [accept_eq hfin] at h
  cases hfed : (a.addText c.text).feedFragments c.fragments with
  | mk fault d =>
      rw [hfed] at h
      cases fault with
      | none => exact absurd (Prod.mk.inj h).1 (by simp)
      | some e =>
          obtain ⟨hf, rfl⟩ := Prod.mk.inj h
          exact ⟨e, (Except.error.inj hf).symm, rfl⟩

/-- **A refusal**: the assembler is what it would be after the text and the fragments before the
one that was refused, as a chunk of their own. -/
theorem accept_refused (hfin : a.finished = false) {c : Chunk} {f : Failure}
    (h : a.accept c = (.error f, b)) :
    ∃ (e : StreamFault) (before : List CallFragment) (g : CallFragment)
      (after : List CallFragment), f = e.failure ∧ c.fragments = before ++ g :: after ∧
        b.feedFragment g = .error e ∧
        a.accept { text := c.text, fragments := before } = (.ok (), b) := by
  obtain ⟨e, hf, hfed⟩ := accept_eq_error hfin h
  obtain ⟨before, g, after, hc, hbefore, hg⟩ := feedFragments_refused hfed
  refine ⟨e, before, g, after, hf, hc, hg, ?_⟩
  rw [accept_eq hfin, hbefore]
  -- a chunk of text and fragments says nothing else
  simp [Assembler.close, Chunk.isTerminal, given?]

/-- A refused chunk adds its text and changes the calls. -/
theorem accept_refused_rest (hfin : a.finished = false) {c : Chunk} {f : Failure}
    (h : a.accept c = (.error f, b)) :
    b = { a with
      text := a.text ++ c.text, calls := b.calls, byId := b.byId, byIndex := b.byIndex } := by
  obtain ⟨e, -, hfed⟩ := accept_eq_error hfin h
  have hcalls := feedFragments_callsOnly (a.addText c.text) c.fragments
  rw [hfed] at hcalls
  obtain ⟨calls, byId, byIndex, rfl⟩ := hcalls
  rfl

end Assembler

/--
**An assembler keeps its books, whatever it is fed.**

After any chunks, taken or refused, and at any point of the next one: the calls have names and ids,
no two of them an id or an index in common, and the tables say of exactly these keys where the call
stands. From each such moment to every later one the calls keep their places, only the one opened
last may grow, and the end of the stream is not forgotten.

A refused chunk counts as a chunk of its text and of the fragments before the refused one would,
and all but the text, the calls and the tables is what it was.
-/
theorem books_kept (provider : Option String) (cs : List Chunk) :
    let a := (({ provider } : Assembler).offer cs).2
    a.InBooks ∧ (∀ ds, a.LeadsTo (a.offer ds).2) ∧
      ∀ c,
        (∀ before after ds, c.fragments = before ++ after →
          (a.midway c before).InBooks ∧ a.LeadsTo (a.midway c before) ∧
            (a.midway c before).LeadsTo (a.offer (c :: ds)).2) ∧
        ∀ f b, a.accept c = (.error f, b) →
          (∃ (e : StreamFault) (before : List CallFragment) (g : CallFragment)
            (after : List CallFragment), f = e.failure ∧ c.fragments = before ++ g :: after ∧
              b.feedFragment g = .error e ∧
              a.accept { text := c.text, fragments := before } = (.ok (), b)) ∧
          b = { a with
            text := a.text ++ c.text, calls := b.calls, byId := b.byId, byIndex := b.byIndex } := by
  intro a
  obtain ⟨_, _, -, hkeeps⟩ := (Assembler.Keeps.fresh provider).offer .nil cs
  have hlawful : a.Lawful := hkeeps.holds.lawful
  have hfin : a.finished = false := hkeeps.finished
  refine ⟨hlawful.inBooks, Assembler.LeadsTo.offer a, fun c => ⟨?_, fun f b h => ?_⟩⟩
  · intro before after ds hc
    refine ⟨(hlawful.midway c before).inBooks, Assembler.LeadsTo.midway a c before, ?_⟩
    have hrest := Assembler.LeadsTo.midway_append a c before after
    rw [← hc] at hrest
    rw [Assembler.offer]
    exact (hrest.trans (Assembler.LeadsTo.accept_midway hfin c)).trans
      (Assembler.LeadsTo.offer _ ds)
  · exact ⟨Assembler.accept_refused hfin h, Assembler.accept_refused_rest hfin h⟩

/-- The second fragment is for the call `a`, after which the call `b` has been opened. -/
def late : Chunk :=
  { text := "!"
    fragments := [
      { callId := some "b", arguments := "2" },
      { index := some 0, arguments := "x" },
      { callId := some "b", arguments := "]" }]
    finishReason := some .stop }

/-- The late chunk is refused after its first fragment, and the end that it says is not taken
for the end of the stream. -/
theorem books_kept_late :
    let a := (({ provider := some "groq" } : Assembler).offer (twoCalls.take 2)).2
    let b := (a.accept late).2
    (a.accept late).1 = .error (StreamFault.outOfOrder "a").failure ∧
      b.calls = [
        { id := "a", name := "find", index := some 0, arguments := "\x7b\x7d" },
        { id := "b", name := "sum", index := none, arguments := "[2" }] ∧
      a.LeadsTo b ∧ b.InBooks ∧
      b = { a with
        text := "On it!", calls := b.calls, byId := b.byId, byIndex := b.byIndex } := by
  intro a b
  have hrefused : a.accept late = (.error (StreamFault.outOfOrder "a").failure, b) := rfl
  obtain ⟨-, hleads, hchunk⟩ := books_kept (some "groq") (twoCalls.take 2)
  refine ⟨rfl, rfl, hleads [late], ?_, ((hchunk late).2 _ b hrefused).2⟩
  exact (books_kept (some "groq") (twoCalls.take 2 ++ [late])).1

end ChatClient
