import Mathlib.Algebra.GroupWithZero.Nat
import ChatClient.Proofs.RetryRun

/-!
# A controller that is run again

A controller looks at its state only to tell whether it has been run before. A run that ends with a
value, with a failure for good, in exhaustion or in a cancelled wait leaves a state that refuses
every later run. Two ways out of a run leave the state as it was: the call was cancelled, or the
delay after it cannot be computed, as a number becomes too large for a float. After these a
controller can be run again, and its attempts count on from where they were.

So each run that leaves in one of these ways may be followed by a further one, and by one call more
than the policy allows.
-/

namespace ChatClient

/-! ## A delay that cannot be computed -/

namespace Number

theorem asFloat_error {a : Number} {e : Failure} (h : a.asFloat = .error e) :
    e = .outside .overflow := by
  unfold asFloat at h
  split at h
  · exact absurd h (by simp)
  · exact (Except.error.inj h).symm

theorem times_error {a b : Number} {e : Failure} (h : a.times b = .error e) :
    e = .outside .overflow := by
  unfold times at h
  split at h
  · exact absurd h (by simp)
  · cases ha : a.asFloat with
    | error e' =>
        rw [ha] at h
        obtain rfl := Except.error.inj h
        exact asFloat_error ha
    | ok x =>
        cases hb : b.asFloat with
        | error e' =>
            rw [ha, hb] at h
            obtain rfl := Except.error.inj h
            exact asFloat_error hb
        | ok y =>
            rw [ha, hb] at h
            exact absurd h (by simp [bind, Except.bind, pure, Except.pure])

theorem power_error {a : Number} {n : Nat} {e : Failure} (h : a.power n = .error e) :
    e = .outside .overflow := by
  unfold power at h
  split at h
  · exact absurd h (by simp)
  · cases hn : (int n).asFloat with
    | error e' =>
        rw [hn] at h
        obtain rfl := Except.error.inj h
        exact asFloat_error hn
    | ok y =>
        simp only [hn, bind, Except.bind] at h
        split at h
        · exact (Except.error.inj h).symm
        · exact absurd h (by simp)

end Number

namespace RetryPolicy

variable {p : RetryPolicy} {e : Failure}

theorem baseDelay_error {k : Int} (h : p.baseDelay k = .error e) : e = .outside .overflow := by
  unfold baseDelay at h
  cases hpower : p.multiplier.power (k - 1).toNat with
  | error e' =>
      rw [hpower] at h
      obtain rfl := Except.error.inj h
      exact Number.power_error hpower
  | ok factor =>
      cases htimes : p.initialDelay.times factor with
      | error e' =>
          simp only [hpower, htimes, bind, Except.bind] at h
          obtain rfl := Except.error.inj h
          exact Number.times_error htimes
      | ok delay =>
          simp only [hpower, htimes, bind, Except.bind, pure, Except.pure] at h
          exact absurd h (by simp)

theorem backoffDelay_error {k : Int} {l : Ledger} (h : p.backoffDelay k l = .error e) :
    e = .outside .overflow := by
  unfold backoffDelay at h
  cases hbase : p.baseDelay k with
  | error e' =>
      rw [hbase] at h
      obtain rfl := Except.error.inj h
      exact baseDelay_error hbase
  | ok base =>
      simp only [hbase, bind, Except.bind, pure, Except.pure] at h
      split at h
      · exact absurd h (by simp)
      split at h
      · exact absurd h (by simp)
      split at h
      · rename_i e' htimes
        obtain rfl := Except.error.inj h
        exact Number.times_error htimes
      · exact absurd h (by simp)

/-- The only thing that can go wrong with a delay is its size. -/
theorem nextDelay_error {k : Nat} {f : Failure} {l : Ledger} (h : p.nextDelay k f l = .error e) :
    e = .outside .overflow := by
  unfold nextDelay at h
  split at h
  · rename_i n _
    cases hn : n.asFloat with
    | error e' =>
        rw [hn] at h
        obtain rfl := Except.error.inj h
        exact Number.asFloat_error hn
    | ok x =>
        rw [hn] at h
        exact absurd h (by simp [Except.map])
  · exact backoffDelay_error h

end RetryPolicy

/-! ## One run after the other -/

/-- One use of a controller: what is called, and the ledger by then. -/
structure RetryUse (α : Type) where
  outcome : Nat → Except Failure α
  ledger : Ledger

namespace RetryController

variable {α : Type}

/-- A controller used again and again: the runs, and what the controller is in the end. -/
def serve (c : RetryController) :
    List (RetryUse α) → List (RetryUse α × RetryRun α) × RetryController
  | [] => ([], c)
  | u :: us =>
    let run := c.run u.outcome u.ledger
    let (runs, last) := run.controller.serve us
    ((u, run) :: runs, last)

/-- Whether a failure is a number that is too large for a float. -/
def isOverflow : Failure → Bool
  | .outside .overflow => true
  | _ => false

/-- Whether a run got out in a way that its controller does not note: the last call was
cancelled, or it was to be made again and the delay until then was too large a number. -/
def escapes (r : RetryUse α × RetryRun α) : Bool :=
  let c := r.2.controller
  r.2.calls != 0 && match r.1.outcome (r.2.calls - 1), r.2.result with
    | .error f, .error e =>
      isCancellation f || f.kind.isRetryable && decide (c.attempts < c.policy.attemptBound) &&
        isOverflow e
    | _, _ => false

/-- How many calls some runs made. -/
def callsOf (runs : List (RetryUse α × RetryRun α)) : Nat := (runs.map (·.2.calls)).sum

/-- What is known of the end of a run that began with `k` calls made and with `left` attempts
allowed after the first. -/
structure Exit (u : RetryUse α) (c : RetryController) (left k : Nat) (run : RetryRun α) : Prop where
  policy : run.controller.policy = c.policy
  called : k < run.calls
  bounded : run.calls ≤ k + 1 + left
  attempts : run.controller.attempts + k = c.attempts + run.calls
  state : run.controller.state = .attempting ↔ escapes (u, run) = true

/-- A run that ends with the call just made. -/
theorem Exit.last {u : RetryUse α} {c : RetryController} {left k : Nat} {run : RetryRun α}
    (hpolicy : run.controller.policy = c.policy) (hcalls : run.calls = k + 1)
    (hattempts : run.controller.attempts = c.attempts + 1)
    (hstate : run.controller.state = .attempting ↔ escapes (u, run) = true) :
    Exit u c left k run where
  policy := hpolicy
  called := by omega
  bounded := by omega
  attempts := by omega
  state := hstate

/-- **Every way out of a run.** In just two of them the state is left as it was. -/
theorem runFrom_exit {left k : Nat} {c : RetryController} {l : Ledger} (u : RetryUse α)
    (hstate : c.state = .attempting) (hleft : left = c.policy.attemptBound - (c.attempts + 1)) :
    Exit u c left k (runFrom u.outcome left k c l) := by
  fun_induction runFrom u.outcome left k c l with
  | case1 left k c l c' a ho => exact .last rfl rfl rfl (by simp [escapes, ho])
  | case2 left k c l c' f ho hcancel =>
      exact .last rfl rfl rfl (by simp [escapes, ho, hcancel, c', hstate])
  | case3 left k c l c' f ho hcancel hkind =>
      refine .last rfl rfl rfl ?_
      simp only [Bool.not_eq_true'] at hkind
      simp [escapes, ho, hcancel, hkind]
  | case4 k c l c' f ho hcancel hkind c'' =>
      -- no attempt is left, so there is no delay to compute
      have hnone : ¬ c.attempts + 1 < c.policy.attemptBound := by omega
      refine .last rfl rfl rfl ?_
      simp [escapes, ho, hcancel, c'', c', record, hnone]
  | case5 k c l c' f ho hcancel hkind left e hdelay =>
      have hsome : c.attempts + 1 < c.policy.attemptBound := by omega
      obtain rfl := RetryPolicy.nextDelay_error hdelay
      refine .last rfl rfl rfl ?_
      simp only [Bool.not_eq_true', Bool.not_eq_false] at hkind
      simp [escapes, ho, hkind, c', hstate, hsome, isOverflow]
  | case6 k c l c' f ho hcancel hkind left delay l₁ hdelay c'' l₂ hslept =>
      refine .last rfl rfl rfl ?_
      simp [escapes, ho, hcancel, isOverflow]
  | case7 k c l c' f ho hcancel hkind left delay l₁ hdelay c'' l₂ hslept ih =>
      have hrest := ih hstate (by simp only [c'', c', record]; omega)
      exact {
        policy := hrest.policy
        called := by have := hrest.called; omega
        bounded := by have := hrest.bounded; omega
        attempts := by
          have : _ = c.attempts + 1 + _ := hrest.attempts
          omega
        state := hrest.state }

/-- What holds of a controller of policy `p` after some runs. -/
structure Used (p : RetryPolicy) (runs : List (RetryUse α × RetryRun α)) (c : RetryController) :
    Prop where
  policy : c.policy = p
  attempts : c.attempts = callsOf runs
  /-- The controller can be run again as long as every run has escaped it. -/
  state : c.state = .attempting ↔ ∀ r ∈ runs, escapes r = true
  spent : c.attempts ≤ max 1 p.attemptBound + runs.countP escapes
  /-- There is room for the first call of a further run. -/
  room : c.state = .attempting → c.attempts < max 1 p.attemptBound + runs.countP escapes

theorem used_nil {p : RetryPolicy} :
    Used p ([] : List (RetryUse α × RetryRun α)) { policy := p } where
  policy := rfl
  attempts := rfl
  state := iff_of_true rfl (by simp)
  spent := Nat.zero_le _
  room _ := by simp

theorem callsOf_snoc (runs : List (RetryUse α × RetryRun α)) (r : RetryUse α × RetryRun α) :
    callsOf (runs ++ [r]) = callsOf runs + r.2.calls := by
  simp [callsOf]

variable {p : RetryPolicy} {runs : List (RetryUse α × RetryRun α)} {c : RetryController}

/-- A controller that can be run again is: its factory is called. -/
theorem Used.serves (h : Used p runs c) (u : RetryUse α) (hstate : c.state = .attempting) :
    Exit u c (p.attemptBound - (c.attempts + 1)) 0 (c.run u.outcome u.ledger) := by
  rw [run, if_pos hstate, h.policy]
  exact runFrom_exit u hstate (by rw [h.policy])

theorem run_refused (u : RetryUse α) (hstate : c.state ≠ .attempting) :
    c.run u.outcome u.ledger =
      ⟨.error (.misuse (.controllerUsed c.state)), 0, c, u.ledger⟩ := by
  rw [run, if_neg hstate]

/-- **One more run.** -/
theorem Used.run (h : Used p runs c) (u : RetryUse α) :
    Used p (runs ++ [(u, c.run u.outcome u.ledger)]) (c.run u.outcome u.ledger).controller := by
  by_cases hstate : c.state = .attempting
  · have hexit := h.serves u hstate
    have hroom := h.room hstate
    have hbounded := hexit.bounded
    have hattempts := hexit.attempts
    have hall := h.state.mp hstate
    have hcount : (runs ++ [(u, c.run u.outcome u.ledger)]).countP escapes =
        runs.countP escapes + if escapes (u, c.run u.outcome u.ledger) then 1 else 0 := by
      simp [List.countP_append, List.countP_cons]
    exact {
      policy := hexit.policy.trans h.policy
      attempts := by rw [callsOf_snoc, ← h.attempts]; omega
      state := by
        rw [hexit.state]
        simp only [List.mem_append, List.mem_singleton]
        constructor
        · rintro hescapes r (hr | rfl)
          · exact hall r hr
          · exact hescapes
        · exact fun hr => hr _ (Or.inr rfl)
      spent := by rw [hcount]; omega
      room := fun hagain => by
        rw [hcount, if_pos (hexit.state.mp hagain)]
        omega }
  · rw [run_refused u hstate]
    have hkept : escapes (u, (⟨.error (.misuse (.controllerUsed c.state)), 0, c, u.ledger⟩ :
        RetryRun α)) = false := by simp [escapes]
    have hcount : (runs ++ [(u, (⟨.error (.misuse (.controllerUsed c.state)), 0, c, u.ledger⟩ :
        RetryRun α))]).countP escapes = runs.countP escapes := by
      simp [List.countP_append, hkept]
    exact {
      policy := h.policy
      attempts := by rw [callsOf_snoc]; exact h.attempts
      state := iff_of_false hstate fun hr => by
        have := hr _ (List.mem_append_right _ (List.mem_singleton_self _))
        exact Bool.false_ne_true (hkept.symm.trans this)
      spent := by rw [hcount]; exact h.spent
      room := fun hagain => absurd hagain hstate }

/-- **All runs.** -/
theorem Used.serve (h : Used p runs c) (us : List (RetryUse α)) :
    Used p (runs ++ (c.serve us).1) (c.serve us).2 := by
  induction us generalizing runs c with
  | nil => simpa [RetryController.serve] using h
  | cons u us ih =>
      rw [RetryController.serve, List.append_cons]
      exact ih (h.run u)

/--
**How often a controller can be run.**

After any runs of one controller, a further run is refused, and nothing is called, exactly when
some run before has not escaped it. A run that is not refused calls at least once. Over all runs
together a controller makes at most as many calls as its policy allows, and one more for each run
that has escaped it.
-/
theorem refuses_iff_not_all_escape (p : RetryPolicy) (us : List (RetryUse α)) (u : RetryUse α) :
    let runs := (({ policy := p } : RetryController).serve us).1
    let c := (({ policy := p } : RetryController).serve us).2
    let run := c.run u.outcome u.ledger
    ((run.calls = 0 ∧ c.state ≠ .attempting ∧
          run.result = .error (.misuse (.controllerUsed c.state))) ↔
        ∃ r ∈ runs, escapes r = false) ∧
      ((∀ r ∈ runs, escapes r = true) → 1 ≤ run.calls) ∧
      ∀ m : Int, p.check = .ok () → p.maxAttempts = .int m →
        ((callsOf runs + run.calls : Nat) : Int) ≤ m + (runs.countP escapes : Nat) := by
  intro runs c run
  have hused : Used p runs c := used_nil.serve us
  have hmore : (∃ r ∈ runs, escapes r = false) ↔ c.state ≠ .attempting := by
    rw [ne_eq, hused.state]
    simp
  refine ⟨?_, fun hall => (hused.serves u (hused.state.mpr hall)).called, ?_⟩
  · rw [hmore]
    constructor
    · exact fun h => h.2.1
    · intro hstate
      simp only [run, run_refused u hstate]
      exact ⟨trivial, hstate, trivial⟩
  · intro m hp hm
    have hm1 := one_le_of_check hp hm
    have hbound : p.attemptBound = m.toNat := by rw [RetryPolicy.attemptBound, hm]; rfl
    have hattempts := hused.attempts
    by_cases hstate : c.state = .attempting
    · have hbounded : run.calls ≤ 0 + 1 + _ := (hused.serves u hstate).bounded
      have hroom := hused.room hstate
      omega
    · have hcalls : run.calls = 0 := by simp only [run, run_refused u hstate]
      have hspent := hused.spent
      omega

/-- A policy that allows one attempt. -/
def onePolicy : RetryPolicy := { doublingPolicy with maxAttempts := .int 1 }

/-- A run whose call is cancelled, and one that gets a value. -/
def cancelledThenValue : List (RetryUse Nat) :=
  [⟨fun _ => .error (.outside .cancelled), {}⟩, ⟨fun _ => .ok 7, {}⟩]

theorem refuses_iff_not_all_escape_third :
    let runs := (({ policy := onePolicy } : RetryController).serve cancelledThenValue).1
    let c := (({ policy := onePolicy } : RetryController).serve cancelledThenValue).2
    let run := c.run (fun _ => .ok 8) {}
    run.result = .error (.misuse (.controllerUsed .succeeded)) ∧
      ((callsOf runs + run.calls : Nat) : Int) ≤ 1 + 1 := by
  intro runs c run
  have h := refuses_iff_not_all_escape onePolicy cancelledThenValue ⟨fun _ => .ok 8, {}⟩
  have hescaped : ∃ r ∈ runs, escapes r = false :=
    ⟨_, List.mem_cons_of_mem _ List.mem_cons_self, rfl⟩
  exact ⟨(h.1.mpr hescaped).2.2, h.2.2 1 rfl rfl⟩

/-- One attempt is allowed, and two runs call once each. -/
theorem runs_again_after_cancelled_call :
    let runs := (({ policy := onePolicy } : RetryController).serve cancelledThenValue).1
    onePolicy.maxAttempts = .int 1 ∧ runs.map (·.2.calls) = [1, 1] ∧
      runs.map (·.2.result) = [.error (.outside .cancelled), .ok 7] :=
  ⟨rfl, rfl, rfl⟩

end RetryController

end ChatClient
