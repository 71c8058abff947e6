import ChatClient.Chat.Call
import ChatClient.Chat.Streaming
import Mathlib.Tactic.SplitIfs

/-!
# How streaming calls end

A generator can come to an end in many places: by itself, and at each item where its caller may
close it. `EndsWith` names all of them, and each way to make a generator out of another is
followed through them once. So what holds of every end of the innermost generator holds of the
whole call, wherever it stops.

The innermost generator has made its exchanges before its first item. All exchanges before the
last one have failed, and a failed exchange has let its answer go; so at most one answer is open
then, and it is the one that the generator reads.
-/

namespace ChatClient

/-! ## Runs of the retry controller -/

namespace RetryController

variable {α : Type} {outcome : Nat → Except Failure α}

/-- What the calls of a run from call `k` on come to: all but the last one have failed, and the
run succeeds just with what the last one succeeds with. -/
structure Makes (outcome : Nat → Except Failure α) (k : Nat) (run : RetryRun α) : Prop where
  some_call : k < run.calls
  failed : ∀ j, k ≤ j → j + 1 < run.calls → ∃ f, outcome j = .error f
  last : ∀ x, outcome (run.calls - 1) = .ok x ↔ run.result = .ok x

theorem makes_success {k : Nat} {x : α} (h : outcome k = .ok x) (c : RetryController) (l : Ledger) :
    Makes outcome k ⟨.ok x, k + 1, c, l⟩ where
  some_call := Nat.lt_succ_self k
  failed := fun j hj hlt => absurd hlt (by simp only; omega)
  last := fun y => by simp only [Nat.add_sub_cancel, h]

theorem makes_failure {k : Nat} {f : Failure} (h : outcome k = .error f) (e : Failure)
    (c : RetryController) (l : Ledger) : Makes outcome k ⟨.error e, k + 1, c, l⟩ where
  some_call := Nat.lt_succ_self k
  failed := fun j hj hlt => absurd hlt (by simp only; omega)
  last := fun y => by simp only [Nat.add_sub_cancel, h, reduceCtorEq]

theorem Makes.after_failure {k : Nat} {f : Failure} (h : outcome k = .error f) {run : RetryRun α}
    (hrun : Makes outcome (k + 1) run) : Makes outcome k run where
  some_call := Nat.lt_of_succ_lt hrun.some_call
  failed := fun j hj hlt => by
    rcases Nat.eq_or_lt_of_le hj with rfl | hj
    · exact ⟨f, h⟩
    · exact hrun.failed j hj hlt
  last := hrun.last

theorem makes_runFrom (left k : Nat) (c : RetryController) (l : Ledger) :
    Makes outcome k (runFrom outcome left k c l) := by
  induction left generalizing k c l with
  | zero =>
      unfold runFrom
      dsimp only
      cases h : outcome k with
      | ok x => exact makes_success h _ _
      | error f =>
          dsimp only
          split_ifs <;> exact makes_failure h _ _ _
  | succ left ih =>
      unfold runFrom
      dsimp only
      cases h : outcome k with
      | ok x => exact makes_success h _ _
      | error f =>
          dsimp only
          split_ifs with hcancelled hretryable
          · exact makes_failure h _ _ _
          · exact makes_failure h _ _ _
          · split
            · exact makes_failure h _ _ _
            · split_ifs
              · exact makes_failure h _ _ _
              · exact (ih (k + 1) _ _).after_failure h

end RetryController

/-! ## Exchanges -/

/-- An exchange keeps its answer just if it succeeds. -/
def Exchange.Keeps {α : Type} (e : Exchange α) : Prop :=
  e.opened.toNat = e.closed.toNat + e.result.toBool.toNat

theorem openStream_keeps (r : WireRequest) (limit : Number) (reply : Reply) :
    (openStream r limit reply).Keeps := by
  unfold openStream
  split
  · exact rfl
  · split
    · exact rfl
    · split_ifs
      · exact rfl
      · next a _ _ =>
        unfold Exchange.Keeps
        cases a.bodyAtLast <;> exact rfl

/-- Sending lets its answer go. -/
theorem send_opened (r : WireRequest) (limit : Number) (reply : Reply) :
    (send r limit reply).opened = (send r limit reply).closed := by
  unfold send
  split
  · rfl
  · split <;> rfl

theorem countP_opened {α : Type} {es : List (Exchange α)} (h : ∀ e ∈ es, e.Keeps) :
    es.countP (·.opened) = es.countP (·.closed) + es.countP (·.result.toBool) := by
  induction es with
  | nil => rfl
  | cons e es ih =>
      obtain ⟨he, hes⟩ := List.forall_mem_cons.mp h
      have hcount (p : Exchange α → Bool) : (e :: es).countP p = (p e).toNat + es.countP p := by
        rw [List.countP_cons]
        cases p e <;> simp [Nat.add_comm]
      rw [hcount, hcount, hcount, ih hes, he]
      omega

section

variable {α : Type} (a : Adapter) (c : Config) (now : Float) (exchange : Nat → Exchange α)

/-- Some attempts make exchanges up to one that decides: those before it have failed, and the
attempts succeed just if it has succeeded. -/
theorem attempt_calls (l : Ledger) :
    ∃ n, let made := (List.range (n + 1)).map exchange
      let o := attempt a c now exchange l
      (∀ j < n, (exchange j).result.toBool = false) ∧
        o.result.toBool = (exchange n).result.toBool ∧
        o.requests = made.filterMap (·.sent) ∧
        o.opened = made.countP (·.opened) ∧ o.closed = made.countP (·.closed) := by
  let outcome := fun k => (exchange k).result.mapError (a.classified now)
  let controller : RetryController := { policy := c.retry }
  obtain ⟨run, hrun⟩ : ∃ run, run = controller.run outcome l := ⟨_, rfl⟩
  have hmakes : RetryController.Makes outcome 0 run :=
    hrun ▸ RetryController.makes_runFrom _ _ _ _
  have houtcome (k : Nat) : (outcome k).toBool = (exchange k).result.toBool := by
    show ((exchange k).result.mapError _).toBool = _
    cases (exchange k).result <;> rfl
  obtain ⟨n, hn⟩ : ∃ n, run.calls = n + 1 :=
    Nat.exists_eq_succ_of_ne_zero (Nat.ne_of_gt hmakes.some_call)
  have hlast := hmakes.last
  rw [hn, Nat.add_sub_cancel] at hlast
  refine ⟨n, fun j hj => ?_, ?_, ?_, ?_, ?_⟩
  · obtain ⟨f, hf⟩ := hmakes.failed j (Nat.zero_le j) (by omega)
    rw [← houtcome, hf]
    rfl
  · show (controller.run outcome l).result.toBool = _
    rw [← hrun, ← houtcome]
    cases hresult : run.result with
    | ok x => rw [(hlast x).mpr hresult]
    | error f =>
        cases hj : outcome n with
        | ok x => exact absurd ((hlast x).mp hj) (by simp [hresult])
        | error g => rfl
  all_goals
    rw [← hn, hrun]
    rfl

/-- Where each exchange keeps its answer just if it succeeds, all of the answers are let go, apart
from the one that the attempts have succeeded with. -/
theorem attempt_opened (h : ∀ k, (exchange k).Keeps) (l : Ledger) :
    (attempt a c now exchange l).opened =
      (attempt a c now exchange l).closed + (attempt a c now exchange l).result.toBool.toNat := by
  obtain ⟨n, hfailed, hresult, -, hopened, hclosed⟩ := attempt_calls a c now exchange l
  have hnone : ((List.range n).map exchange).countP (·.result.toBool) = 0 := by
    refine List.countP_eq_zero.mpr fun e he => ?_
    obtain ⟨j, hj, rfl⟩ := List.mem_map.mp he
    exact Bool.eq_false_iff.mp (hfailed j (List.mem_range.mp hj))
  have hkept : ((List.range (n + 1)).map exchange).countP (·.result.toBool) =
      (exchange n).result.toBool.toNat := by
    rw [List.range_succ, List.map_append, List.countP_append, hnone, Nat.zero_add,
      List.map_singleton, List.countP_singleton]
    cases (exchange n).result.toBool <;> rfl
  rw [hopened, hclosed, hresult, ← hkept]
  refine countP_opened fun e he => ?_
  obtain ⟨j, -, rfl⟩ := List.mem_map.mp he
  exact h j

/-- After an exchange that succeeds there is none. -/
theorem attempt_requests {k : Nat} (h : (exchange k).result.toBool = true) (l : Ledger) :
    (attempt a c now exchange l).requests.length ≤ k + 1 := by
  obtain ⟨n, hfailed, -, hrequests, -, -⟩ := attempt_calls a c now exchange l
  have hn : n ≤ k := by
    refine Nat.le_of_not_lt fun hlt => ?_
    exact absurd (hfailed k hlt) (by simp [h])
  rw [hrequests]
  exact Nat.le_trans (List.length_filterMap_le _ _) (by simpa using hn)

end

/-! ## Generators -/

namespace Generator

variable {α : Type}

/-- The ends that a generator may come to: its own, and one at each item. -/
inductive EndsWith : Generator α → Outcome Unit → Prop
  | ended (o : Outcome Unit) : EndsWith (ended o) o
  | closed (item : α) (o : Outcome Unit) (next : Generator α) : EndsWith (yielded item o next) o
  | later {item : α} {closed o : Outcome Unit} {next : Generator α} (h : EndsWith next o) :
    EndsWith (yielded item closed next) o

theorem EndsWith.of_ensuring {last : Outcome Unit → Outcome Unit} {g : Generator α}
    {o : Outcome Unit} (h : (g.ensuring last).EndsWith o) : ∃ o', g.EndsWith o' ∧ o = last o' := by
  induction g with
  | ended o' =>
      cases h
      exact ⟨o', .ended o', rfl⟩
  | yielded item closed next ih =>
      cases h with
      | closed => exact ⟨closed, .closed item closed next, rfl⟩
      | later h =>
          obtain ⟨o', hends, rfl⟩ := ih h
          exact ⟨o', hends.later, rfl⟩

/-- Assembling changes nothing about an end but its result. -/
theorem EndsWith.of_assembling {c : Config} {as : Assembler} {g : Generator Chunk}
    {o : Outcome Unit} (h : (g.assembling c as).EndsWith o) :
    ∃ o' result, g.EndsWith o' ∧ o = o'.withResult result := by
  induction g generalizing as with
  | ended o' =>
      unfold assembling at h
      split at h
      · cases h
        exact ⟨_, _, .ended _, rfl⟩
      · split at h
        · cases h
          exact ⟨_, _, .ended _, rfl⟩
        · -- the response comes as an item, and closing there is ending there
          cases h with
          | closed => exact ⟨_, _, .ended _, rfl⟩
          | later h =>
              cases h
              exact ⟨_, _, .ended _, rfl⟩
  | yielded chunk before next ih =>
      unfold assembling at h
      split at h
      · cases h
        exact ⟨_, _, .closed chunk before next, rfl⟩
      · cases h with
        | closed => exact ⟨_, _, .closed chunk _ next, rfl⟩
        | later h =>
            obtain ⟨o', result, hends, rfl⟩ := ih h
            exact ⟨o', result, hends.later, rfl⟩

theorem collect_zero (closed : Outcome Unit) (g : Generator α) :
    g.collect (some 0) closed = closed.withEnd .stopped := by
  cases g <;> rfl

theorem collect_ended {stop : Option Nat} (hstop : stop ≠ some 0) (closed o : Outcome Unit) :
    (ended o : Generator α).collect stop closed = o.withEnd .exhausted := by
  unfold collect
  split
  · exact absurd rfl hstop
  · next heq => rw [ended.inj heq]
  · next heq => exact absurd heq (by simp)

theorem collect_yielded {stop : Option Nat} (hstop : stop ≠ some 0) (before : Outcome Unit)
    (item : α) (closed : Outcome Unit) (next : Generator α) :
    (yielded item closed next).collect stop before =
      let rest := next.collect (stop.map (· - 1)) closed
      { rest with items := item :: rest.items } := by
  rw [collect]
  exact hstop

/-- Wherever a caller stops who asks for a first item, a generator has come to one of its ends. -/
theorem collect_endsWith {stop : Option Nat} (hstop : stop ≠ some 0) (before : Outcome Unit)
    (g : Generator α) :
    ∃ o e, g.EndsWith o ∧
      (g.collect stop before).toOutcome = (o.withEnd e : StreamOutcome α StreamEnd).toOutcome := by
  induction g generalizing stop before with
  | ended o => exact ⟨o, .exhausted, .ended o, by rw [collect_ended hstop]⟩
  | yielded item closed next ih =>
      rw [collect_yielded hstop]
      by_cases hlast : stop.map (· - 1) = some 0
      · rw [hlast, collect_zero]
        exact ⟨closed, .stopped, .closed item closed next, rfl⟩
      · obtain ⟨o, e, hends, hcollect⟩ := ih hlast closed
        exact ⟨o, e, hends.later, hcollect⟩

end Generator

/-! ## Streams -/

/-- All answers that began have been let go, and no transport has been closed so far. -/
def Outcome.HoldsNothing {α : Type} (o : Outcome α) : Prop :=
  o.closed = o.opened ∧ o.transportsClosed = 0

/-- The items of a call that has come to `o` leave everything but the result and the ledger as it
was. -/
theorem Yields.generator_endsWith {α β : Type} {y : Yields α} {o : Outcome β} {o' : Outcome Unit}
    (h : (y.generator o).EndsWith o') :
    ∃ result ledger, o' = { o with result := result, ledger := ledger } := by
  obtain ⟨items, result, ledger⟩ := y
  induction items with
  | nil =>
      cases h
      exact ⟨_, _, rfl⟩
  | cons item items ih =>
      cases h with
      | closed => exact ⟨_, _, rfl⟩
      | later h => exact ih h

namespace Adapter

variable (a : Adapter) (c : Config) (now : Float) (server : Server) (r : Request) (l : Ledger)

/-- Opening a stream lets go of all answers but the one that is open then. -/
theorem openStream_opened :
    let o := a.openStream c now server r l
    o.opened = o.closed + o.result.toBool.toNat ∧ o.transportsClosed = 0 := by
  unfold openStream
  dsimp only
  split
  · exact ⟨rfl, rfl⟩
  · exact ⟨attempt_opened a c now _ (fun k => openStream_keeps _ _ _) _, rfl⟩

/-- Once a stream can be opened no more requests are sent. -/
theorem openStream_requests {k : Nat} {d : Deadline} {answer : Answer}
    (hbegun : (server.reply k).begin { limit := c.timeout } = .ok (d, answer))
    (hsucceeds : answer.succeeds = true) :
    (a.openStream c now server r l).requests.length ≤ k + 1 := by
  unfold openStream
  dsimp only
  split
  · exact Nat.zero_le _
  · next wire _ _ =>
    cases hsent : wire.encode with
    | ok sent =>
        refine attempt_requests a c now _ ?_ _
        simp only [ChatClient.openStream, hsent, hbegun, hsucceeds, if_true]
        rfl
    | error f =>
        -- a request that cannot be written is not sent
        obtain ⟨n, -, -, hrequests, -, -⟩ := attempt_calls a c now
          (fun k => ChatClient.openStream wire c.timeout (server.reply k)) _
        rw [hrequests, List.filterMap_eq_nil_iff.mpr]
        · exact Nat.zero_le _
        · intro e he
          obtain ⟨j, -, rfl⟩ := List.mem_map.mp he
          simp only [ChatClient.openStream, hsent]

/-- However the reading of a stream ends, all answers are let go then, and no requests have been
sent but those to open it. -/
theorem stream_endsWith {o : Outcome Unit} (h : (a.stream c now server r l).EndsWith o) :
    o.HoldsNothing ∧ o.requests = (a.openStream c now server r l).requests := by
  obtain ⟨hopened, htransports⟩ := a.openStream_opened c now server r l
  unfold stream at h
  generalize a.openStream c now server r l = opening at h hopened htransports ⊢
  dsimp only at h
  cases hresult : opening.result with
  | error f =>
      rw [hresult] at h hopened
      cases h
      exact ⟨⟨hopened.symm, htransports⟩, rfl⟩
  | ok s =>
      rw [hresult] at h hopened
      obtain ⟨o', hends, rfl⟩ := h.of_ensuring
      obtain ⟨result, ledger, rfl⟩ := Yields.generator_endsWith hends
      exact ⟨⟨hopened.symm, htransports⟩, rfl⟩

end Adapter

end ChatClient
