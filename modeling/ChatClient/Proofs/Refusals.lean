import ChatClient.Proofs.Assembly

/-!
# Chunks that an assembler refuses

A chunk that breaks the order of the fragments is refused, but it leaves a trace: its text counts,
and so do its fragments before the one that may not follow. The assembler goes on from there, and
it does not remember that it has refused anything.

So whether there is a response in the end is decided by the chunks that were taken, before the
refusal or after it: one of them has to say that the stream has ended. If there is a response then,
it has the texts of the refused chunks in it.
-/

namespace ChatClient

/-- Offers chunks one after the other, whatever is answered to each. -/
def Assembler.offer (a : Assembler) : List Chunk → List (Except Failure Unit) × Assembler
  | [] => ([], a)
  | c :: cs =>
    let (answer, b) := a.accept c
    let (answers, last) := b.offer cs
    (answer :: answers, last)

/-- What is answered to some chunks, which of them are taken, and the fragments that count. A
chunk is taken where its fragments may follow those that count so far; otherwise only those before
the first that may not follow count. -/
inductive Offered : List Chunk → List (Except Failure Unit) → List Chunk → List CallFragment → Prop
  | nil : Offered [] [] [] []
  | taken {cs answers ts fs c} (h : Offered cs answers ts fs) (ho : Orderly (fs ++ c.fragments)) :
    Offered (cs ++ [c]) (answers ++ [.ok ()]) (ts ++ [c]) (fs ++ c.fragments)
  | refused {cs answers ts fs c before f after} (h : Offered cs answers ts fs)
    (hc : c.fragments = before ++ f :: after) (ho : Orderly (fs ++ before))
    (hf : ¬ MayFollow (fs ++ before) f) (e : StreamFault) :
    Offered (cs ++ [c]) (answers ++ [.error e.failure]) ts (fs ++ before)

/-- Whatever an assembler is offered, what it is then can be said from the chunks. -/
theorem Assembler.Keeps.offer {a : Assembler} {provider : Option String} {cs ts : List Chunk}
    {answers : List (Except Failure Unit)} {fs : List CallFragment}
    (h : a.Keeps provider cs ts fs) (ho : Offered cs answers ts fs) (ds : List Chunk) :
    ∃ ts' fs', Offered (cs ++ ds) (answers ++ (a.offer ds).1) ts' fs' ∧
      (a.offer ds).2.Keeps provider (cs ++ ds) ts' fs' := by
  induction ds generalizing a cs answers ts fs with
  | nil =>
      rw [List.append_nil]
      exact ⟨ts, fs, by rwa [Assembler.offer, List.append_nil], h⟩
  | cons d ds ih =>
      rw [Assembler.offer]
      rcases h.accept d with ⟨b, haccept, hb⟩ | ⟨e, b, before, f, after, haccept, hd, hf, hb⟩
      · simp only [haccept]
        rw [List.append_cons cs, List.append_cons answers]
        exact ih hb (ho.taken hb.holds.orderly)
      · simp only [haccept]
        rw [List.append_cons cs, List.append_cons answers]
        exact ih hb (ho.refused hd hb.holds.orderly hf e)

/--
**Whether there is a response after refusals.**

Chunks are offered to an assembler, which refuses some of them. When the response is asked for
after that there is one exactly when a chunk that was taken is terminal, and a last request for
tool calls among those chunks has calls; the refusals do not matter. The response then has the
texts of all chunks, also of the refused ones, and the calls of the fragments that count.
-/
theorem response_after_refusals_iff (provider : Option String) (cs : List Chunk) :
    let run := ({ provider } : Assembler).offer cs
    ∃ ts fs, Offered cs run.1 ts fs ∧
      let reason := (lastGiven Chunk.finish? ts).map (·.1)
      let calls := (openedCalls fs).map OpenCall.call
      ((∃ r, run.2.finish.1 = .ok r) ↔
        (∃ c ∈ ts, c.isTerminal = true) ∧ ¬ (reason = some .toolCalls ∧ calls = [])) ∧
      ∀ r, run.2.finish.1 = .ok r →
        r.message = .assistant (String.join (cs.map (·.text))) calls ∧
          r.finishReason = settledReason reason calls := by
  intro run
  obtain ⟨ts, fs, hoffered, hkeeps⟩ := (Assembler.Keeps.fresh provider).offer .nil cs
  refine ⟨ts, fs, hoffered, ?_⟩
  intro reason calls
  have hfinish : run.2.finish.1 = _ := hkeeps.finish
  have hterminal : (∃ c ∈ ts, c.isTerminal = true) ↔ ¬ ∀ c ∈ ts, c.isTerminal = false := by simp
  rw [hfinish, hterminal]
  by_cases hend : ∀ c ∈ ts, c.isTerminal = false
  · rw [if_pos hend]
    exact ⟨iff_of_false (by simp) fun h => h.1 hend, fun r hr => absurd hr (by simp)⟩
  · rw [if_neg hend]
    by_cases hnone : reason = some .toolCalls ∧ calls = []
    · rw [if_pos hnone]
      exact ⟨iff_of_false (by simp) fun h => h.2 hnone, fun r hr => absurd hr (by simp)⟩
    · rw [if_neg hnone]
      refine ⟨iff_of_true ⟨_, rfl⟩ ⟨hend, hnone⟩, fun r hr => ?_⟩
      obtain rfl := Except.ok.inj hr
      exact ⟨rfl, rfl⟩

/-- A fragment without an opening, and then the end of the stream. -/
def unopened : List Chunk :=
  [{ text := "Half an ", fragments := [{ index := some 0, arguments := "\x7b" }] },
    { text := "answer", finishReason := some .stop, rawFinishReason := some "stop" }]

/-- The first chunk is refused, and there is a response with its text all the same. -/
theorem response_of_refused_chunk :
    (({} : Assembler).offer unopened).1 =
        [.error (StreamFault.notOpened "#0").failure, .ok ()] ∧
      (({} : Assembler).offer unopened).2.finish.1 = .ok
        { message := .assistant "Half an answer" []
          finishReason := .stop
          rawFinishReason := some "stop" } :=
  ⟨rfl, rfl⟩

end ChatClient
