import ChatClient.Chat.Call

/-!
# Two runs side by side

The retry controller looks at failures only. What it calls may give other values, and as long as
the failures are the same ones at the same calls, it calls as often, waits as long and logs the
same lines, and it ends in the same way.
-/

namespace ChatClient

variable {α β : Type}

/-- Two results that fail alike, or are two values in a relation. -/
inductive FailAlike (R : α → β → Prop) : Except Failure α → Except Failure β → Prop
  | error (f : Failure) : FailAlike R (.error f) (.error f)
  | ok {a : α} {b : β} (h : R a b) : FailAlike R (.ok a) (.ok b)

namespace FailAlike

variable {R : α → β → Prop}

theorem fails {x : Except Failure α} {y : Except Failure β} {f : Failure} (h : FailAlike R x y)
    (hx : x = .error f) : y = .error f := by
  cases h with
  | error g => rw [Except.error.inj hx]
  | ok hab => exact absurd hx (by simp)

theorem succeeds {x : Except Failure α} {y : Except Failure β} {a : α} (h : FailAlike R x y)
    (hx : x = .ok a) : ∃ b, y = .ok b ∧ R a b := by
  cases h with
  | error g => exact absurd hx (by simp)
  | ok hab =>
      obtain rfl := Except.ok.inj hx
      exact ⟨_, rfl, hab⟩

theorem imp {S : α → β → Prop} {x : Except Failure α} {y : Except Failure β} (h : FailAlike R x y)
    (hRS : ∀ a b, R a b → S a b) : FailAlike S x y := by
  cases h with
  | error f => exact .error f
  | ok hab => exact .ok (hRS _ _ hab)

theorem mapError {x : Except Failure α} {y : Except Failure β} (h : FailAlike R x y)
    (g : Failure → Failure) : FailAlike R (x.mapError g) (y.mapError g) := by
  cases h with
  | error f => exact .error (g f)
  | ok hab => exact .ok hab

end FailAlike

namespace RetryController

variable {R : α → β → Prop} {outcome : Nat → Except Failure α} {outcome' : Nat → Except Failure β}

/-- Two runs that went the same way. -/
structure SameWay (R : α → β → Prop) (run : RetryRun α) (run' : RetryRun β) : Prop where
  result : FailAlike R run.result run'.result
  calls : run.calls = run'.calls
  controller : run.controller = run'.controller
  ledger : run.ledger = run'.ledger

/-- **Runs that fail alike go the same way.** -/
theorem runFrom_sameWay (h : ∀ k, FailAlike R (outcome k) (outcome' k)) (left k : Nat)
    (c : RetryController) (l : Ledger) :
    SameWay R (runFrom outcome left k c l) (runFrom outcome' left k c l) := by
  fun_induction runFrom outcome left k c l with
  | case1 left k c l c' a ho =>
      obtain ⟨b, ho', hab⟩ := (h k).succeeds ho
      rw [runFrom, ho']
      exact ⟨.ok hab, rfl, rfl, rfl⟩
  | case2 left k c l c' f ho hcancel =>
      rw [runFrom, (h k).fails ho]
      simp only [hcancel, if_true]
      exact ⟨.error f, rfl, rfl, rfl⟩
  | case3 left k c l c' f ho hcancel hkind =>
      rw [runFrom, (h k).fails ho]
      simp only [hcancel, hkind, if_true, if_false, Bool.false_eq_true]
      exact ⟨.error f, rfl, rfl, rfl⟩
  | case4 k c l c' f ho hcancel hkind c'' =>
      rw [runFrom, (h k).fails ho]
      simp only [hcancel, hkind, if_false, Bool.false_eq_true]
      exact ⟨.error _, rfl, rfl, rfl⟩
  | case5 k c l c' f ho hcancel hkind left e hdelay =>
      rw [runFrom, (h k).fails ho]
      simp only [hcancel, hkind, if_false, Bool.false_eq_true]
      rw [show RetryPolicy.nextDelay _ _ f l = .error e from hdelay]
      exact ⟨.error e, rfl, rfl, rfl⟩
  | case6 k c l c' f ho hcancel hkind left delay l₁ hdelay c'' l₂ hslept =>
      rw [runFrom, (h k).fails ho]
      simp only [hcancel, hkind, if_false, Bool.false_eq_true]
      rw [show RetryPolicy.nextDelay _ _ f l = .ok (delay, l₁) from hdelay]
      simp only [c'', c', l₂] at hslept
      simp only [hslept, if_true]
      exact ⟨.error _, rfl, rfl, rfl⟩
  | case7 k c l c' f ho hcancel hkind left delay l₁ hdelay c'' l₂ hslept ih =>
      generalize runFrom outcome left (k + 1) c'' l₂ = run at ih ⊢
      rw [runFrom, (h k).fails ho]
      simp only [hcancel, hkind, if_false, Bool.false_eq_true]
      rw [show RetryPolicy.nextDelay _ _ f l = .ok (delay, l₁) from hdelay]
      simp only [c'', c', l₂] at hslept
      simp only [hslept, if_false, Bool.false_eq_true]
      exact ⟨ih.result, ih.calls, ih.controller, ih.ledger⟩

theorem run_sameWay (h : ∀ k, FailAlike R (outcome k) (outcome' k)) (c : RetryController)
    (l : Ledger) : SameWay R (c.run outcome l) (c.run outcome' l) := by
  unfold run
  split
  · exact runFrom_sameWay h _ _ _ _
  · exact ⟨.error _, rfl, rfl, rfl⟩

end RetryController

/-- **Attempts that fail alike come to the same.** -/
theorem attempt_sameWay {R : α → β → Prop} {a a' : Adapter} (c : Config) (now : Float)
    {exchange : Nat → Exchange α} {exchange' : Nat → Exchange β}
    (h : ∀ k, FailAlike R ((exchange k).result.mapError (a.classified now))
      ((exchange' k).result.mapError (a'.classified now))) (l : Ledger) :
    FailAlike R (attempt a c now exchange l).result (attempt a' c now exchange' l).result ∧
      (attempt a c now exchange l).attempts = (attempt a' c now exchange' l).attempts ∧
      (attempt a c now exchange l).ledger = (attempt a' c now exchange' l).ledger := by
  have hrun := RetryController.run_sameWay h { policy := c.retry } l
  exact ⟨hrun.result, congrArg RetryController.attempts hrun.controller, hrun.ledger⟩

end ChatClient
