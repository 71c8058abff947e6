import ChatClient.Proofs.Delays

/-!
# How a retry loop ends

A loop ends with a value, with a failure of what it calls, in exhaustion, or by a cancelled wait.
There is one more way out: the delay after a failure cannot be computed. The bound on the delays does
not prevent it, since it is applied to a number that has been computed: with enough attempts the
powers of a whole factor above one become too large for a float.

The invariant of the loop is that every outcome so far is a failure that is tried again. The last
outcome then decides how the loop ends.
-/

namespace ChatClient

open Number

/-! ## The delay after a failure -/

namespace RetryPolicy

variable {p : RetryPolicy} {k : ℕ} {f : Failure} {l : Ledger}

/-- The ways in which there is no delay after attempt `k` failed with `f`: what the failure asks for
is too large for a float, or it asks for nothing and the computed delay gets out of range. -/
inductive DelayFails (p : RetryPolicy) (k : ℕ) (f : Failure) (draw : Number) : Prop
  | asked {n : ℤ} (hasked : askedDelay? f = some (.int n)) (hlarge : TooLarge n) :
    DelayFails p k f draw
  | computed (hasked : askedDelay? f = none) (hover : p.Overflows k draw) : DelayFails p k f draw

theorem nextDelay_fails :
    (∃ e, p.nextDelay k f l = .error e) ↔ p.DelayFails k f l.nextDraw := by
  have hcases : p.DelayFails k f l.nextDraw ↔
      (∃ n, askedDelay? f = some (.int n) ∧ TooLarge n) ∨
        askedDelay? f = none ∧ p.Overflows k l.nextDraw := by
    constructor
    · rintro (⟨hasked, hlarge⟩ | ⟨hasked, hover⟩)
      · exact .inl ⟨_, hasked, hlarge⟩
      · exact .inr ⟨hasked, hover⟩
    · rintro (⟨n, hasked, hlarge⟩ | ⟨hasked, hover⟩)
      · exact .asked hasked hlarge
      · exact .computed hasked hover
  rw [hcases, nextDelay]
  cases hasked : askedDelay? f with
  | none =>
      rw [backoffDelay_fails]
      simp
  | some n =>
      have hfails : (∃ e, (n.asFloat.map fun x => ((float x).min p.maxRetryAfter, l)) = .error e) ↔
          ∃ e, n.asFloat = .error e := by
        cases n.asFloat <;> simp [Except.map]
      rw [hfails, asFloat_fails]
      simp

end RetryPolicy

/-! ## The loop -/

namespace RetryController

open RetryPolicy

variable {α : Type} {p : RetryPolicy} {outcome : ℕ → Except Failure α} {n : ℕ}

/-- A failure that is tried again while attempts are left. -/
def TriesAgain (f : Failure) : Prop := isCancellation f = false ∧ f.kind.isRetryable = true

/-- The ways in which a run that may call `n` times ends. -/
inductive Ending (p : RetryPolicy) (outcome : ℕ → Except Failure α) (n : ℕ) (run : RetryRun α) :
    Prop
  | value {a : α} (houtcome : outcome (run.calls - 1) = .ok a) (hresult : run.result = .ok a) :
    Ending p outcome n run
  | failure {f : Failure} (houtcome : outcome (run.calls - 1) = .error f) (hf : ¬ TriesAgain f)
    (hresult : run.result = .error f) : Ending p outcome n run
  | exhaustion {f : Failure} (houtcome : outcome (run.calls - 1) = .error f) (hf : TriesAgain f)
    (hspent : run.calls = n) (hresult : run.result = .error (run.controller.exhaustion f)) :
    Ending p outcome n run
  | cancelledWait {f : Failure} (houtcome : outcome (run.calls - 1) = .error f) (hf : TriesAgain f)
    (hleft : run.calls < n) (hcancelled : run.ledger.isCancelled = true)
    (hresult : run.result = .error (.outside .cancelled)) : Ending p outcome n run
  | overflow {f : Failure} (houtcome : outcome (run.calls - 1) = .error f) (hf : TriesAgain f)
    (hleft : run.calls < n) (hdelay : p.DelayFails run.calls f run.ledger.nextDraw)
    (hresult : run.result = .error (.outside .overflow)) : Ending p outcome n run

/-- A run that goes on for as long as there are failures that are tried again, and then ends. -/
structure Ended (p : RetryPolicy) (outcome : ℕ → Except Failure α) (n : ℕ) (run : RetryRun α) :
    Prop where
  called : 1 ≤ run.calls
  retried : ∀ i, i + 1 < run.calls → ∃ f, outcome i = .error f ∧ TriesAgain f
  ending : Ending p outcome n run

/-- A run that ends with the call just made. -/
theorem Ended.last {k : ℕ} {run : RetryRun α}
    (hretried : ∀ i < k, ∃ f, outcome i = .error f ∧ TriesAgain f) (hcalls : run.calls = k + 1)
    (hending : Ending p outcome n run) : Ended p outcome n run where
  called := by omega
  retried i hi := hretried i (by omega)
  ending := hending

/-- **The rest of a run.** -/
theorem runFrom_ended {left k : ℕ} {c : RetryController} {l : Ledger} (hpolicy : c.policy = p)
    (hattempts : c.attempts = k) (hn : k + 1 + left = n)
    (hretried : ∀ i < k, ∃ f, outcome i = .error f ∧ TriesAgain f) :
    Ended p outcome n (runFrom outcome left k c l) := by
  fun_induction runFrom outcome left k c l with
  | case1 left k c l c' a ho => exact .last hretried rfl (.value ho rfl)
  | case2 left k c l c' f ho hcancel =>
      exact .last hretried rfl (.failure ho (fun hf => by simp [hf.1] at hcancel) rfl)
  | case3 left k c l c' f ho hcancel hkind =>
      exact .last hretried rfl (.failure ho (fun hf => by simp [hf.2] at hkind) rfl)
  | case4 k c l c' f ho hcancel hkind c'' =>
      have hf : TriesAgain f := ⟨by simpa using hcancel, by simpa using hkind⟩
      exact .last hretried rfl (.exhaustion ho hf (by omega) rfl)
  | case5 k c l c' f ho hcancel hkind left e hdelay =>
      have hf : TriesAgain f := ⟨by simpa using hcancel, by simpa using hkind⟩
      -- whatever goes wrong with a delay, it is its size
      have hfails := nextDelay_fails.mp ⟨e, hdelay⟩
      obtain rfl := nextDelay_error hdelay
      have hcount : c'.attempts = k + 1 := by rw [← hattempts]
      rw [hcount, show c'.policy = p from hpolicy] at hfails
      exact .last hretried rfl (.overflow ho hf (by show k + 1 < n; omega) hfails rfl)
  | case6 k c l c' f ho hcancel hkind left delay l₁ hdelay c'' l₂ hslept =>
      have hf : TriesAgain f := ⟨by simpa using hcancel, by simpa using hkind⟩
      rw [Bool.and_eq_true] at hslept
      exact .last hretried rfl (.cancelledWait ho hf (by show k + 1 < n; omega) hslept.2 rfl)
  | case7 k c l c' f ho hcancel hkind left delay l₁ hdelay c'' l₂ hslept ih =>
      have hf : TriesAgain f := ⟨by simpa using hcancel, by simpa using hkind⟩
      -- the rest begins with one more outcome that is tried again
      have hretried' : ∀ i < k + 1, ∃ f, outcome i = .error f ∧ TriesAgain f := by
        intro i hi
        rcases Nat.lt_succ_iff_lt_or_eq.mp hi with hi | rfl
        · exact hretried i hi
        · exact ⟨f, ho, hf⟩
      exact ih hpolicy (congrArg (· + 1) hattempts) (by omega) hretried'

/-- A fresh controller, with any number of attempts. -/
theorem runFrom_fresh_ended (left : ℕ) (l : Ledger) :
    Ended p outcome (left + 1) (runFrom outcome left 0 { policy := p } l) :=
  runFrom_ended rfl rfl (by omega) fun i hi => absurd hi i.not_lt_zero

theorem run_ended (l : Ledger) : Ended p outcome (1 ⊔ p.attemptBound)
    (({ policy := p } : RetryController).run outcome l) := by
  have hcount : 1 ⊔ p.attemptBound = p.attemptBound - 1 + 1 := by omega
  rw [run, if_pos rfl, hcount]
  exact runFrom_fresh_ended _ l

/--
**What becomes of the delays of a policy that has been checked.**

A delay that gets out of the range of floats is a failure. Any other one is computed, and then lies
between zero and its maximum, but for the ways in which it is spoilt. Where nothing is drawn and the
factor is not below one, a later delay is not less than an earlier one. A retry loop with any number
of attempts, and so the run of a controller, ends with a value or a failure of what it calls, in
exhaustion, by a cancelled wait, or since a delay has failed.
-/
theorem delays_exact (hp : p.check = .ok ()) :
    (∀ (i : ℤ) (l : Ledger), zero.le l.nextDraw = true → l.nextDraw.lt (.int 1) = true →
        (p.Overflows i l.nextDraw → p.backoffDelay i l = .error (.outside .overflow)) ∧
          (¬ p.Overflows i l.nextDraw → ∃ d l', p.backoffDelay i l = .ok (d, l') ∧
            (zero.le d = true ∧ d.le p.maxDelay = true ↔ ¬ p.Spoils i l.nextDraw))) ∧
      (p.jitter = false → (int 1).le p.multiplier = true →
        ∀ (i j : ℤ) (l l₁ m m₁ : Ledger) (d e : Number), i ≤ j →
          p.multiplier.Grows (i - 1).toNat (j - 1).toNat → p.backoffDelay i l = .ok (d, l₁) →
          p.backoffDelay j m = .ok (e, m₁) → e.lt d = false) ∧
      ∀ (outcome : ℕ → Except Failure α) (l : Ledger),
        (∀ left, Ended p outcome (left + 1) (runFrom outcome left 0 { policy := p } l)) ∧
          Ended p outcome (1 ⊔ p.attemptBound)
            (({ policy := p } : RetryController).run outcome l) := by
  have hbounded := bounded_of_check hp
  refine ⟨fun i l h₀ h₁ => ⟨fun hover => ?_, fun hover => ?_⟩, ?_, fun outcome l => ?_⟩
  · obtain ⟨e, he⟩ := backoffDelay_fails.mpr hover
    rw [he, backoffDelay_error he]
  · cases hdelay : p.backoffDelay i l with
    | error e => exact absurd (backoffDelay_fails.mp ⟨e, hdelay⟩) hover
    | ok r =>
        obtain ⟨d, l'⟩ := r
        obtain ⟨base, hbase, hwaits⟩ := backoffDelay_eq_ok hdelay
        exact ⟨d, l', rfl, hwaits.within_iff hbounded hbase h₀ h₁⟩
  · intro hjitter hone i j l l₁ m m₁ d e hij hgrows hd he
    exact backoffDelay_grows hbounded hjitter hone hij hgrows hd he
  · exact ⟨fun left => runFrom_fresh_ended left l, run_ended l⟩

/-- The waits are doubled each time, by a factor that is whole. -/
def wholeFactorPolicy : RetryPolicy := { multiplier := .int 2, jitter := false }

theorem delays_exact_wholeFactor :
    let run := ({ policy := wholeFactorPolicy } : RetryController).run
      (fun _ => (.error (.connection "refused" none) : Except Failure ℕ)) {}
    wholeFactorPolicy.check = .ok () ∧
      (∃ d, wholeFactorPolicy.backoffDelay 3 {} = .ok (d, {}) ∧ zero.le d = true ∧
        d.le wholeFactorPolicy.maxDelay = true ∧ d.lt (.float 0.5) = false) ∧
      Ended wholeFactorPolicy (fun _ => .error (.connection "refused" none)) 3 run := by
  obtain ⟨hwithin, hgrows, hended⟩ := delays_exact (α := ℕ) (p := wholeFactorPolicy) rfl
  have hthird : wholeFactorPolicy.backoffDelay 3 {} = .ok (.float 2.0, {}) := by rfl
  have hinrange : ¬ wholeFactorPolicy.Overflows 3 ({} : Ledger).nextDraw := by
    intro hover
    obtain ⟨e, he⟩ := backoffDelay_fails.mpr hover
    exact absurd (hthird.symm.trans he) (by simp)
  obtain ⟨d, l', hd, hiff⟩ := (hwithin 3 {} rfl rfl).2 hinrange
  obtain ⟨rfl, rfl⟩ := Prod.mk.inj (Except.ok.inj (hthird.symm.trans hd))
  have hsound : ¬ wholeFactorPolicy.Spoils 3 ({} : Ledger).nextDraw := by
    rintro (⟨hmax, hnan⟩ | ⟨-, -, -, hjitter, -⟩)
    · obtain rfl := float.inj hmax
      exact absurd hnan (by decide)
    · exact absurd hjitter (by decide)
  refine ⟨rfl, ⟨.float 2.0, hthird, (hiff.mpr hsound).1, (hiff.mpr hsound).2, ?_⟩, (hended _ {}).2⟩
  have hwhole : wholeFactorPolicy.multiplier.Grows ((1 : ℤ) - 1).toNat ((3 : ℤ) - 1).toNat :=
    fun x hx => by simp [wholeFactorPolicy] at hx
  exact hgrows rfl rfl 1 3 {} {} {} {} _ _ (by omega) hwhole rfl hthird

/-- At the last of so many retries that factor is too large for a float. -/
theorem wholeFactor_overflows : wholeFactorPolicy.check = .ok () ∧
    wholeFactorPolicy.backoffDelay 1026 {} = .error (.outside .overflow) := by
  have hover : wholeFactorPolicy.Overflows 1026 ({} : Ledger).nextDraw :=
    overflows_of_wholeFactor rfl (by omega) rfl (by omega)
  obtain ⟨e, h⟩ := backoffDelay_fails.mpr hover
  refine ⟨rfl, ?_⟩
  rw [h, backoffDelay_error h]

end RetryController

end ChatClient
