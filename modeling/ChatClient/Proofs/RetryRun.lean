import Mathlib.Order.Bounds.Basic
import Mathlib.Order.Nat
import ChatClient.Retry.Controller

/-!
# What a run of the retry controller comes to

A run is described by its outcomes alone. It ends at the first attempt that succeeds, fails
for good, or is the last one allowed; each failed attempt before that one leaves a record
with the delay that followed it. `Retried` is what holds of the controller and the ledger
between two attempts, and the whole run is that invariant carried from attempt to attempt.

Attempts are counted from one, as in the records, and outcomes from zero: attempt `k + 1`
has outcome `k`.
-/

namespace ChatClient

/-! ## The delay after a failed attempt -/

/-- The wait that a failure carries, where it is a float that is not negative. -/
def Failure.hint (f : Failure) : Option Float :=
  match f with
  | .service s =>
    match s.retryAfter with
    | .float x => if Number.zero.le (.float x) then some x else none
    | _ => none
  | _ => none

/-- A failure carries a float as its wait, or none. -/
def Failure.HintsFloat (f : Failure) : Prop :=
  ∀ s, f = .service s → s.retryAfter = .null ∨ ∃ x, s.retryAfter = .float x

theorem askedDelay?_eq {f : Failure} (h : f.HintsFloat) :
    RetryPolicy.askedDelay? f = f.hint.map Number.float := by
  cases f with
  | service s =>
      rcases h s rfl with hs | ⟨x, hs⟩
      · simp only [RetryPolicy.askedDelay?, Failure.hint, hs]
        rfl
      · simp only [RetryPolicy.askedDelay?, Failure.hint, hs, Json.quantity?, Json.number?,
          Option.filter_some]
        cases Number.zero.le (.float x) <;> rfl
  | _ => rfl

namespace RetryPolicy

variable {α : Type}

/-- The delay after attempt `k`, which failed with `f`, where the ledger is `l` by then: the
wait that the failure carries, up to the longest allowed, or else a computed one. -/
def delayAfter (p : RetryPolicy) (l : Ledger) (k : Nat) (f : Failure) :
    Except Failure Number :=
  match f.hint with
  | some x => .ok ((Number.float x).min p.maxRetryAfter)
  | none => (p.backoffDelay k l).map (·.1)

/-- Whether the computed delay after attempt `k` is drawn at random. -/
def drawsAt (p : RetryPolicy) (k : Int) : Bool :=
  p.jitter &&
    match p.baseDelay k with
    | .ok base => !base.le .zero
    | .error _ => false

/-- The ledger with the random numbers used that the delays after `k` attempts need. -/
def drawnAfter (p : RetryPolicy) (outcome : Nat → Except Failure α) (l : Ledger) : Nat → Ledger
  | 0 => l
  | k + 1 =>
    match outcome k with
    | .error f =>
      if f.hint.isNone && p.drawsAt (k + 1 : Nat) then (p.drawnAfter outcome l k).drew
      else p.drawnAfter outcome l k
    | .ok _ => p.drawnAfter outcome l k

/-- Two ledgers that give the same random numbers. -/
def SameDraws (l l' : Ledger) : Prop := l.draws = l'.draws ∧ l.drawn = l'.drawn

theorem SameDraws.nextDraw {l l' : Ledger} (h : SameDraws l l') : l.nextDraw = l'.nextDraw := by
  unfold Ledger.nextDraw
  rw [h.1, h.2]

/-- Computing a delay needs the next random number of the ledger only, and uses it up where
the delay is drawn. -/
theorem backoffDelay_ok {p : RetryPolicy} {k : Int} {l l₀ l₁ : Ledger} {d : Number}
    (hl : SameDraws l l₀) (h : p.backoffDelay k l₀ = .ok (d, l₁)) :
    p.backoffDelay k l = .ok (d, if p.drawsAt k then l.drew else l) := by
  unfold backoffDelay at *
  cases hb : p.baseDelay k with
  | error e => rw [hb] at h; exact absurd h (by simp [bind, Except.bind])
  | ok base =>
      have hdraws : p.drawsAt k = (p.jitter && !base.le .zero) := by simp [drawsAt, hb]
      rw [hdraws]
      simp only [hb, bind, Except.bind, pure, Except.pure] at h ⊢
      by_cases hzero : base.le .zero = true
      · rw [if_pos hzero] at h ⊢
        obtain ⟨rfl, -⟩ := Prod.mk.inj (Except.ok.inj h)
        rw [if_neg (by simp [hzero])]
      · rw [if_neg hzero] at h ⊢
        by_cases hj : p.jitter = true
        · have hnj : ¬ (!p.jitter) = true := by simp [hj]
          rw [if_neg hnj] at h ⊢
          rw [hl.nextDraw, if_pos (by simp [hj, hzero])]
          split at h
          · exact absurd h (by simp)
          · obtain ⟨rfl, -⟩ := Prod.mk.inj (Except.ok.inj h)
            rfl
        · have hnj : (!p.jitter) = true := by simp [hj]
          rw [if_pos hnj] at h ⊢
          obtain ⟨rfl, -⟩ := Prod.mk.inj (Except.ok.inj h)
          rw [if_neg (by simp [hj])]

/-- The same for the delay after a failed attempt. -/
theorem nextDelay_eq {p : RetryPolicy} {k : Nat} {f : Failure} {l l₀ : Ledger} {d : Number}
    (hf : f.HintsFloat) (hl : SameDraws l l₀) (hd : p.delayAfter l₀ k f = .ok d) :
    p.nextDelay k f l = .ok (d, if f.hint.isNone && p.drawsAt k then l.drew else l) := by
  unfold nextDelay delayAfter at *
  rw [askedDelay?_eq hf]
  cases hh : f.hint with
  | some x =>
      rw [hh] at hd
      obtain rfl := Except.ok.inj hd
      rfl
  | none =>
      rw [hh] at hd
      cases hb : p.backoffDelay k l₀ with
      | error e => simp only [hb] at hd; exact absurd hd (by simp [Except.map])
      | ok r =>
          simp only [hb] at hd
          obtain rfl := Except.ok.inj hd
          exact backoffDelay_ok hl hb

end RetryPolicy

/-! ## Between two attempts -/

namespace RetryController

open RetryPolicy

variable {α : Type} {p : RetryPolicy} {outcome : Nat → Except Failure α} {l : Ledger} {n : Nat}

/-- The record of attempt `k + 1`, if it failed, in a run of `n` attempts: it has the delay
that followed, and none if the run ended there. -/
def recordOf (p : RetryPolicy) (outcome : Nat → Except Failure α) (l : Ledger) (n k : Nat) :
    Option AttemptRecord :=
  match outcome k with
  | .ok _ => none
  | .error f => some
    { attempt := k + 1, kind := f.kind, statusCode := f.statusCode?, failure := f.name
      delay :=
        if k + 1 < n then (p.delayAfter (p.drawnAfter outcome l k) (k + 1) f).toOption else none }

/-- The waits of some records that are slept: those above zero. -/
def slept (rs : List AttemptRecord) : List Number :=
  (rs.filterMap (·.delay)).filter fun d => Number.zero.lt d

/-- No wait from here on is one in which the task is cancelled. -/
def SleepsCompletely (l : Ledger) : Prop :=
  ∀ i : Nat, l.sleeps.length < i → l.cancelledSleep ≠ some (i : Int)

theorem SleepsCompletely.awake {l' : Ledger} (h : SleepsCompletely l)
    (hsame : l'.cancelledSleep = l.cancelledSleep) (hlater : l.sleeps.length < l'.sleeps.length) :
    l'.isCancelled = false := by
  rw [Ledger.isCancelled, hsame]
  simpa using h _ hlater

/-- What holds after `k` attempts, all of them tried again, in a run of `n` attempts that
began with ledger `l`. -/
structure Retried (p : RetryPolicy) (outcome : Nat → Except Failure α) (l : Ledger) (n k : Nat)
    (c : RetryController) (l' : Ledger) : Prop where
  policy : c.policy = p
  state : c.state = .attempting
  attempts : c.attempts = k
  history : c.history = (List.range k).filterMap (recordOf p outcome l n)
  draws : SameDraws l' (p.drawnAfter outcome l k)
  sleeps : l'.sleeps = l.sleeps ++ slept c.history
  cancelledSleep : l'.cancelledSleep = l.cancelledSleep

theorem retried_zero : Retried p outcome l n 0 { policy := p } l where
  policy := rfl
  state := rfl
  attempts := rfl
  history := rfl
  draws := ⟨rfl, rfl⟩
  sleeps := (List.append_nil _).symm
  cancelledSleep := rfl

/-- A failure that is tried again at attempt `k + 1`, and the delay that follows. -/
structure TriedAgain (p : RetryPolicy) (outcome : Nat → Except Failure α) (l : Ledger) (k : Nat)
    (f : Failure) (d : Number) : Prop where
  fails : outcome k = .error f
  kind : f.kind ≠ .permanent
  notCancelled : isCancellation f = false
  hint : f.HintsFloat
  delay : p.delayAfter (p.drawnAfter outcome l k) (k + 1) f = .ok d

theorem isRetryable_iff {k : FailureKind} : k.isRetryable = true ↔ k ≠ .permanent := by
  cases k <;> simp [FailureKind.isRetryable]

theorem slept_snoc (rs : List AttemptRecord) (r : AttemptRecord) :
    slept (rs ++ [r]) = slept rs ++ r.delay.toList.filter fun d => Number.zero.lt d := by
  unfold slept
  rw [List.filterMap_append, List.filter_append]
  cases hr : r.delay <;> simp [hr]

/-- The history grows by one record with each failed attempt. -/
theorem history_snoc {k : Nat} {f : Failure} (hf : outcome k = .error f) :
    (List.range (k + 1)).filterMap (recordOf p outcome l n) =
      (List.range k).filterMap (recordOf p outcome l n) ++
        [{ attempt := k + 1, kind := f.kind, statusCode := f.statusCode?, failure := f.name
           delay := if k + 1 < n then
             (p.delayAfter (p.drawnAfter outcome l k) (k + 1) f).toOption else none }] := by
  rw [List.range_succ, List.filterMap_append]
  refine congrArg _ ?_
  simp only [List.filterMap_cons, List.filterMap_nil, recordOf, hf]

theorem drawnAfter_succ {k : Nat} {f : Failure} {d : Number} (h : TriedAgain p outcome l k f d) :
    p.drawnAfter outcome l (k + 1) =
      if f.hint.isNone && p.drawsAt (k + 1 : Nat) then (p.drawnAfter outcome l k).drew
      else p.drawnAfter outcome l k := by
  rw [drawnAfter, h.fails]

theorem backOff_spec (c : RetryController) (f : Failure) (d : Number) (l : Ledger) :
    SameDraws (c.backOff f d l) l ∧ (c.backOff f d l).cancelledSleep = l.cancelledSleep ∧
      (c.backOff f d l).sleeps = l.sleeps ++ [d].filter fun d => Number.zero.lt d := by
  unfold backOff
  by_cases hd : Number.zero.lt d = true
  · simp [hd, SameDraws, Ledger.slept, Ledger.log]
  · simp [hd, SameDraws, Ledger.log]

/-- Drawing for a delay, or not, uses up random numbers only. -/
theorem drewIf_spec {b : Bool} {l l₀ l₁ : Ledger} (h : SameDraws l l₀)
    (hl₁ : l₁ = if b then l.drew else l) :
    SameDraws l₁ (if b then l₀.drew else l₀) ∧ l₁.cancelledSleep = l.cancelledSleep ∧
      l₁.sleeps = l.sleeps := by
  subst hl₁
  cases b with
  | false => exact ⟨h, rfl, rfl⟩
  | true => exact ⟨⟨h.1, congrArg (· + 1) h.2⟩, rfl, rfl⟩

/-- **One attempt that is tried again.** The run goes on with one attempt less, and the
invariant holds of what it goes on with. -/
theorem runFrom_retry {k : Nat} {c : RetryController} {l' : Ledger}
    (h : Retried p outcome l n k c l') (hk : k + 1 < n) {f : Failure} {d : Number}
    (hf : TriedAgain p outcome l k f d) (hsleep : SleepsCompletely l) (left : Nat) :
    ∃ c' l'', runFrom outcome (left + 1) k c l' = runFrom outcome left (k + 1) c' l'' ∧
      Retried p outcome l n (k + 1) c' l'' := by
  have hretry := isRetryable_iff.mpr hf.kind
  have hnext := nextDelay_eq hf.hint h.draws hf.delay
  obtain ⟨l₁, hl₁⟩ : ∃ l₁, l₁ = if f.hint.isNone && p.drawsAt (k + 1 : Nat) then l'.drew else l' :=
    ⟨_, rfl⟩
  rw [← hl₁] at hnext
  obtain ⟨hdrawn, hcancelled₁, hsleeps₁⟩ := drewIf_spec h.draws hl₁
  rw [← drawnAfter_succ hf] at hdrawn
  obtain ⟨c', hc'⟩ : ∃ c', c' = record { c with policy := p, attempts := k + 1 } f (some d) :=
    ⟨_, rfl⟩
  have hsnoc : c'.history = c.history ++ [{
      attempt := k + 1, kind := f.kind, statusCode := f.statusCode?, failure := f.name
      delay := some d }] := by rw [hc']; rfl
  obtain ⟨hdraws, hcancelled, hsleeps⟩ := backOff_spec c' f d l₁
  have hslept : (c'.backOff f d l₁).sleeps = l.sleeps ++ slept c'.history := by
    rw [hsleeps, hsleeps₁, h.sleeps, hsnoc, slept_snoc, List.append_assoc]
    rfl
  have hsame := hcancelled.trans (hcancelled₁.trans h.cancelledSleep)
  have hawake : (Number.zero.lt d && (c'.backOff f d l₁).isCancelled) = false := by
    cases hd : Number.zero.lt d with
    | false => rfl
    | true =>
        -- the wait just slept comes after all those before the run
        have hlater : l.sleeps.length < (c'.backOff f d l₁).sleeps.length := by
          rw [hsleeps, hsleeps₁, h.sleeps]
          simp only [List.filter_cons, hd, if_true, List.length_append, List.length_cons]
          omega
        exact hsleep.awake hsame hlater
  refine ⟨c', c'.backOff f d l₁, ?_, ?_⟩
  · rw [runFrom]
    simp only [hf.fails, hf.notCancelled, hretry, h.policy, h.attempts, hnext]
    rw [← hc', hawake]
    simp only [Bool.false_eq_true, Bool.not_true, if_false]
  · exact {
      policy := by rw [hc']; rfl
      state := by rw [hc']; exact h.state
      attempts := by rw [hc']; rfl
      history := by
        rw [hsnoc, history_snoc hf.fails, h.history, if_pos hk, hf.delay]
        rfl
      draws := ⟨hdraws.1.trans hdrawn.1, hdraws.2.trans hdrawn.2⟩
      sleeps := hslept
      cancelledSleep := hsame }

/-- A run that tries again after each of `n - 1` attempts comes to attempt `n`. -/
theorem runFrom_retries (hs : ∀ k, k + 1 < n → ∃ f d, TriedAgain p outcome l k f d)
    (hsleep : SleepsCompletely l) (k left : Nat) (hk : k < n) :
    ∃ c l', runFrom outcome (left + k) 0 { policy := p } l = runFrom outcome left k c l' ∧
      Retried p outcome l n k c l' := by
  induction k generalizing left with
  | zero => exact ⟨_, _, rfl, retried_zero⟩
  | succ k ih =>
      obtain ⟨c, l', hrun, hc⟩ := ih (left + 1) (by omega)
      obtain ⟨f, d, hf⟩ := hs k hk
      obtain ⟨c', l'', hstep, hc'⟩ := runFrom_retry hc hk hf hsleep left
      refine ⟨c', l'', ?_, hc'⟩
      rw [← hstep, ← hrun]
      congr 1
      omega

/-! ## The whole run -/

/-- Attempt `k` ends a run of at most `m` attempts: it succeeds, fails for good, or is the
last one allowed. -/
def Ends (m : Int) (outcome : Nat → Except Failure α) (k : Nat) : Prop :=
  (∃ a, outcome (k - 1) = .ok a) ∨ (∃ f, outcome (k - 1) = .error f ∧ f.kind = .permanent) ∨
    (k : Int) = m

/-- The record without a delay is that of the last attempt. -/
theorem recordOf_delay (hs : ∀ k, k + 1 < n → ∃ f d, TriedAgain p outcome l k f d) {k : Nat}
    (hk : k < n) {r : AttemptRecord} (hr : recordOf p outcome l n k = some r) :
    r.delay = none ↔ r.attempt = n := by
  unfold recordOf at hr
  cases ho : outcome k with
  | ok a =>
      rw [ho] at hr
      exact absurd hr (by simp)
  | error f =>
      rw [ho] at hr
      obtain rfl := Option.some.inj hr
      by_cases hlast : k + 1 < n
      · obtain ⟨g, d, hg⟩ := hs k hlast
        obtain rfl := Except.error.inj (hg.fails.symm.trans ho)
        simp only [if_pos hlast, hg.delay]
        constructor
        · intro hnone
          exact absurd hnone (by simp [Except.toOption])
        · omega
      · simp only [if_neg hlast]
        constructor
        · omega
        · intro _
          trivial

/-- A policy that passed its check allows an attempt. -/
theorem one_le_of_check {m : Int} (hp : p.check = .ok ()) (hm : p.maxAttempts = .int m) :
    1 ≤ m := by
  by_contra hlt
  have hfirst : p.maxAttempts.lt (.int 1) = true := by
    rw [hm]
    exact decide_eq_true (by omega)
  rw [RetryPolicy.check, hfirst] at hp
  exact absurd hp (by simp [checkBound, bind, Except.bind])

theorem isCancellation_eq_false {f : Failure} (h : f ≠ .outside .cancelled) :
    isCancellation f = false := by
  unfold isCancellation
  split
  · exact absurd rfl h
  · rfl

/-- An attempt that does not end the run is tried again. -/
theorem triedAgain_of_not_ends {m : Int} {k : Nat} (hgoes : ¬ Ends m outcome (k + 1))
    (hnc : outcome k ≠ .error (.outside .cancelled))
    (hhint : ∀ f, outcome k = .error f → f.HintsFloat)
    (hback : ∀ f, outcome k = .error f → f.hint = none →
      ∃ r, p.backoffDelay (k + 1 : Nat) (p.drawnAfter outcome l k) = .ok r) :
    ∃ f d, TriedAgain p outcome l k f d := by
  cases ho : outcome k with
  | ok a => exact absurd (Or.inl ⟨a, ho⟩) hgoes
  | error f =>
      have hkind : f.kind ≠ .permanent := fun he => hgoes (Or.inr (Or.inl ⟨f, ho, he⟩))
      have hcancel := isCancellation_eq_false (fun he => hnc (ho.trans (congrArg _ he)))
      -- a hint is a delay by itself, and without one the computed delay is a value
      obtain ⟨d, hd⟩ : ∃ d, p.delayAfter (p.drawnAfter outcome l k) (k + 1) f = .ok d := by
        unfold delayAfter
        cases hh : f.hint with
        | some x => exact ⟨_, rfl⟩
        | none =>
            obtain ⟨r, hr⟩ := hback f ho hh
            exact ⟨r.1, by simp only [hr, Except.map]⟩
      exact ⟨f, d, ho, hkind, hcancel, hhint f ho, hd⟩

/-- What the last attempt leaves behind, where `left` more would have been allowed. -/
theorem runFrom_last {k left : Nat} {c : RetryController} {l' : Ledger}
    (h : Retried p outcome l (k + 1) k c l')
    (hnc : outcome k ≠ .error (.outside .cancelled))
    (hlast : ∀ f, outcome k = .error f → f.kind ≠ .permanent → left = 0) :
    let run := runFrom outcome left k c l'
    run.calls = k + 1 ∧ run.controller.attempts = k + 1 ∧
      run.controller.history = (List.range (k + 1)).filterMap (recordOf p outcome l (k + 1)) ∧
      run.ledger.sleeps = l.sleeps ++ slept run.controller.history ∧
      match outcome k with
      | .ok a => run.result = .ok a ∧ run.controller.state = .succeeded
      | .error f =>
        run.controller.state = .exhausted ∧
        run.result = .error (if f.kind = .permanent then f else
          .retriesExhausted
            ("Gave up after " ++ toString (k + 1) ++ " attempt(s): " ++ f.message?.getD "")
            (k + 1 : Nat) f run.controller.history f.hint?) := by
  intro run
  cases ho : outcome k with
  | ok a =>
      have hrun : run = ⟨.ok a, k + 1, { c with attempts := k + 1, state := .succeeded }, l'⟩ := by
        show runFrom outcome left k c l' = _
        rw [runFrom]
        simp only [ho, h.attempts]
      have hhistory : (List.range (k + 1)).filterMap (recordOf p outcome l (k + 1)) =
          c.history := by
        rw [h.history, List.range_succ, List.filterMap_append]
        simp [recordOf, ho]
      rw [hrun, hhistory]
      exact ⟨rfl, rfl, rfl, h.sleeps, rfl, rfl⟩
  | error f =>
      have hcancel := isCancellation_eq_false (fun he => hnc (ho.trans (congrArg _ he)))
      obtain ⟨c', hc'⟩ : ∃ c', c' = record { c with attempts := k + 1 } f none := ⟨_, rfl⟩
      have hhistory : (List.range (k + 1)).filterMap (recordOf p outcome l (k + 1)) =
          c'.history := by
        rw [history_snoc ho, if_neg (Nat.lt_irrefl _), ← h.history, hc']
        rfl
      -- the last record has no delay, so it adds nothing to what was slept
      have hslept : slept c'.history = slept c.history := by
        rw [hc']
        exact (slept_snoc c.history _).trans (List.append_nil _)
      have hrun : run = ⟨.error (if f.kind = .permanent then f else c'.exhaustion f), k + 1,
          { c' with state := .exhausted }, l'⟩ := by
        show runFrom outcome left k c l' = _
        rw [runFrom]
        by_cases hkind : f.kind = .permanent
        · have hretry : f.kind.isRetryable = false := by rw [hkind]; rfl
          simp only [ho, hcancel, hretry, h.attempts, ← hc', if_pos hkind, Bool.not_false,
            Bool.false_eq_true, if_true, if_false]
        · have hretry := isRetryable_iff.mpr hkind
          obtain rfl := hlast f ho hkind
          simp only [ho, hcancel, hretry, h.attempts, ← hc', if_neg hkind, Bool.not_true,
            Bool.false_eq_true, if_false]
          rfl
      rw [hrun, hhistory]
      refine ⟨rfl, by rw [hc']; rfl, rfl, ?_, rfl, ?_⟩
      · exact h.sleeps.trans (congrArg _ hslept.symm)
      · rw [exhaustion, hc']
        rfl

/--
**A run, exactly.**

It ends at the least attempt that succeeds, fails for good, or is the last one allowed. The
value is returned; a failure for good goes through as it is, and any other one ends in
exhaustion, which keeps it and the history. Every failed attempt has its record, and every
wait above zero in the records is slept, in order.
-/
theorem run_exact {m : Int} (hp : p.check = .ok ()) (hm : p.maxAttempts = .int m)
    (hnc : ∀ k, outcome k ≠ .error (.outside .cancelled))
    (hhint : ∀ k f, outcome k = .error f → f.HintsFloat) (hsleep : SleepsCompletely l) :
    ∃ n, IsLeast {k | 1 ≤ k ∧ Ends m outcome k} n ∧
      ((∀ k f, k + 1 < n → outcome k = .error f → f.hint = none →
          ∃ r, p.backoffDelay (k + 1 : Nat) (p.drawnAfter outcome l k) = .ok r) →
        let run := ({ policy := p } : RetryController).run outcome l
        run.calls = n ∧ run.controller.attempts = n ∧
          run.controller.history = (List.range n).filterMap (recordOf p outcome l n) ∧
          (∀ r ∈ run.controller.history, r.delay = none ↔ r.attempt = n) ∧
          run.ledger.sleeps = l.sleeps ++ slept run.controller.history ∧
          match outcome (n - 1) with
          | .ok a => run.result = .ok a ∧ run.controller.state = .succeeded
          | .error f =>
            run.controller.state = .exhausted ∧
            run.result = .error (if f.kind = .permanent then f else
              .retriesExhausted
                ("Gave up after " ++ toString n ++ " attempt(s): " ++ f.message?.getD "")
                n f run.controller.history f.hint?)) := by
  classical
  have hm1 := one_le_of_check hp hm
  have hends : ∃ k, 1 ≤ k ∧ Ends m outcome k :=
    ⟨m.toNat, by omega, Or.inr (Or.inr (by omega))⟩
  refine ⟨Nat.find hends, Nat.isLeast_find hends, fun hback => ?_⟩
  obtain ⟨hn1, hn⟩ := Nat.find_spec hends
  have hbefore : ∀ k, k + 1 < Nat.find hends → ¬ Ends m outcome (k + 1) :=
    fun k hk he => Nat.find_min hends hk ⟨by omega, he⟩
  have hle : Nat.find hends ≤ m.toNat := Nat.find_min' hends ⟨by omega, Or.inr (Or.inr (by omega))⟩
  obtain ⟨n, hnn⟩ : ∃ n, Nat.find hends = n + 1 := ⟨Nat.find hends - 1, by omega⟩
  rw [hnn] at hn hbefore hle hback ⊢
  have hagain : ∀ k, k + 1 < n + 1 → ∃ f d, TriedAgain p outcome l k f d := by
    intro k hk
    exact triedAgain_of_not_ends (hbefore k hk) (hnc k) (hhint k) (fun f => hback k f hk)
  obtain ⟨c, l', hrun, hc⟩ :=
    runFrom_retries hagain hsleep n (m.toNat - 1 - n) (Nat.lt_succ_self n)
  -- the run ends with a failure that might be tried again only where no attempt is left
  have hlast : ∀ f, outcome n = .error f → f.kind ≠ .permanent → m.toNat - 1 - n = 0 := by
    intro f ho hkind
    rcases hn with ⟨a, ha⟩ | ⟨g, hg, hgk⟩ | hm'
    · exact absurd (ha.symm.trans ho) (by simp)
    · obtain rfl := Except.error.inj (hg.symm.trans ho)
      exact absurd hgk hkind
    · omega
  have hwhole : ({ policy := p } : RetryController).run outcome l =
      runFrom outcome (m.toNat - 1 - n) n c l' := by
    have hbound : p.attemptBound = m.toNat := by rw [attemptBound, hm]; rfl
    rw [← hrun, run, if_pos rfl, hbound]
    congr 1
    show m.toNat - (0 + 1) = _
    omega
  rw [hwhole]
  intro run
  obtain ⟨hcalls, hattempts, hhistory, hsleeps, hend⟩ := runFrom_last hc (hnc n) hlast
  refine ⟨hcalls, hattempts, hhistory, ?_, hsleeps, hend⟩
  intro r hr
  obtain ⟨k, hk, hrecord⟩ := List.mem_filterMap.mp (hhistory ▸ hr)
  exact recordOf_delay hagain (List.mem_range.mp hk) hrecord

/-- At most four attempts, with waits of whole numbers. -/
def doublingPolicy : RetryPolicy :=
  { maxAttempts := .int 4, initialDelay := .int 1, multiplier := .int 2, maxDelay := .int 8
    jitter := false, maxRetryAfter := .int 60 }

/-- A lost connection, an answer about rate limits, and then a value. -/
def thirdTimeLucky : Nat → Except Failure Nat
  | 0 => .error (.connection "refused" none)
  | 1 => .error (.service { message := "slow down", kind := .rateLimited, statusCode := some 429 })
  | _ => .ok 7

theorem run_exact_thirdTimeLucky :
    let run := ({ policy := doublingPolicy } : RetryController).run thirdTimeLucky {}
    run.calls = 3 ∧ run.result = .ok 7 ∧ run.controller.attempts = 3 ∧
      run.ledger.sleeps = [.int 1, .int 2] := by
  intro run
  have hp : doublingPolicy.check = .ok () := rfl
  have hnc : ∀ k, thirdTimeLucky k ≠ .error (.outside .cancelled)
    | 0 | 1 | _ + 2 => by simp [thirdTimeLucky]
  have hhint : ∀ k f, thirdTimeLucky k = .error f → f.HintsFloat
    | 0, _, rfl => fun _ hs => by simp at hs
    | 1, _, rfl => fun _ hs => by obtain rfl := Failure.service.inj hs; exact Or.inl rfl
  obtain ⟨n, hleast, hrun⟩ := run_exact hp rfl hnc hhint (l := {}) (by intro i _; simp)
  have hn : n = 3 := by
    refine hleast.unique ⟨⟨by omega, Or.inl ⟨7, rfl⟩⟩, fun k hk => ?_⟩
    obtain ⟨hk1, ⟨a, ha⟩ | ⟨f, hf, hkind⟩ | hk4⟩ := hk
    · match k, hk1, ha with
      | k + 3, _, _ => omega
    · match k, hk1, hf, hkind with
      | 1, _, rfl, hkind => exact absurd hkind (by simp [Failure.kind])
      | 2, _, rfl, hkind => exact absurd hkind (by simp [Failure.kind])
    · omega
  subst hn
  have hback : ∀ k f, k + 1 < 3 → thirdTimeLucky k = .error f → f.hint = none →
      ∃ r, doublingPolicy.backoffDelay (k + 1 : Nat)
        (doublingPolicy.drawnAfter thirdTimeLucky {} k) = .ok r
    | 0, _, _, _, _ => ⟨_, rfl⟩
    | 1, _, _, _, _ => ⟨_, rfl⟩
  obtain ⟨hcalls, hattempts, -, -, hsleeps, hresult, -⟩ := hrun hback
  exact ⟨hcalls, hresult, hattempts, hsleeps⟩

end RetryController

end ChatClient
