import ChatClient.Proofs.Accepted
import ChatClient.Proofs.RoundingOrder
import ChatClient.Proofs.SingleUse

/-!
# How long the delays are

A delay grows with the number of attempts and has an upper bound, which is applied to what has been
computed. That may fail before: whole numbers have no bound, and one that is too large for a float
is a failure where a float is needed; so is a power of a finite float that is infinite.
`RetryPolicy.Overflows` lists these ways. Where none of them is taken the delay lies between zero
and its maximum, unless the maximum is not a number or zero is drawn below infinity.

Floats are rounded, and comparisons are not: a delay is still no greater than a whole number that
was rounded up before a part of it was drawn, and delays that grow by rounded products do not
decrease. Both follow from the order of the numbers and from rounding that keeps it.
-/

namespace ChatClient

open Decimal

/-! ## Arithmetic that fails -/

namespace Number

variable {a b c : Number} {n : ℕ} {x : Float}

theorem asFloat_int (n : ℤ) : (TooLarge n ∧ (int n).asFloat = .error (.outside .overflow)) ∨
    ¬ TooLarge n ∧ (int n).asFloat = .ok (int n).toFloat := by
  by_cases hlarge : TooLarge n
  · refine .inl ⟨hlarge, ?_⟩
    simp [asFloat, toFloat?, (isInf_toFloat n).mpr hlarge]
  · refine .inr ⟨hlarge, ?_⟩
    have hfits : (int n).toFloat.isInf = false := by
      rw [← Bool.not_eq_true, isInf_toFloat]
      exact hlarge
    simp [asFloat, toFloat?, hfits]

theorem asFloat_eq_ok : a.asFloat = .ok x ↔
    a = .float x ∨ ∃ n, a = .int n ∧ ¬ TooLarge n ∧ (int n).toFloat = x := by
  cases a with
  | float y => simp [asFloat, toFloat?]
  | int n => rcases asFloat_int n with ⟨hn, h⟩ | ⟨hn, h⟩ <;> simp [h, hn]

theorem asFloat_fails : (∃ e, a.asFloat = .error e) ↔ ∃ n, a = .int n ∧ TooLarge n := by
  cases a with
  | float y => simp [asFloat, toFloat?]
  | int n => rcases asFloat_int n with ⟨hn, h⟩ | ⟨hn, h⟩ <;> simp [h, hn]

/-- The product of whole numbers is whole; any other one is a product of floats. -/
theorem times_eq_ok (h : a.times b = .ok c) :
    (∃ m k, a = .int m ∧ b = .int k ∧ c = .int (m * k)) ∨
      ∃ x y, a.asFloat = .ok x ∧ b.asFloat = .ok y ∧ c = .float (x * y) := by
  unfold times at h
  split at h
  · exact .inl ⟨_, _, rfl, rfl, (Except.ok.inj h).symm⟩
  · simp only [bind_eq_ok] at h
    obtain ⟨x, hx, y, hy, hc⟩ := h
    exact .inr ⟨x, y, hx, hy, (Except.ok.inj hc).symm⟩

/-- A product of a float and a whole number that is too large for one. -/
inductive TimesOverflows : Number → Number → Prop
  | left {m : ℤ} {y : Float} (hlarge : TooLarge m) : TimesOverflows (.int m) (.float y)
  | right {x : Float} {m : ℤ} (hlarge : TooLarge m) : TimesOverflows (.float x) (.int m)

theorem times_fails : (∃ e, a.times b = .error e) ↔ TimesOverflows a b := by
  constructor
  · rintro ⟨e, h⟩
    unfold times at h
    split at h
    · exact absurd h (by simp)
    · next hmixed =>
      simp only [bind_eq_error] at h
      rcases h with h | ⟨x, hx, h | ⟨y, -, h⟩⟩
      · obtain ⟨m, rfl, hlarge⟩ := asFloat_fails.mp ⟨e, h⟩
        cases b with
        | int n => exact absurd rfl (hmixed m n rfl)
        | float y => exact .left hlarge
      · obtain ⟨m, rfl, hlarge⟩ := asFloat_fails.mp ⟨e, h⟩
        cases a with
        | int n => exact absurd rfl (hmixed n m rfl)
        | float y => exact .right hlarge
      · exact absurd h (by simp [pure, Except.pure])
  · intro h
    cases h with
    | left hlarge =>
        obtain ⟨e, h⟩ := asFloat_fails.mpr ⟨_, rfl, hlarge⟩
        exact ⟨e, bind_eq_error.mpr (.inl h)⟩
    | right hlarge =>
        obtain ⟨e, h⟩ := asFloat_fails.mpr ⟨_, rfl, hlarge⟩
        exact ⟨e, bind_eq_error.mpr (.inr ⟨_, rfl, bind_eq_error.mpr (.inl h)⟩)⟩

/-- A power of a whole number is whole, and one of a float is a float. -/
theorem power_eq_ok (h : a.power n = .ok c) :
    (∃ m, a = .int m ∧ c = .int (m ^ n)) ∨
      ∃ x, a = .float x ∧ c = .float (Float.pow x (int n).toFloat) := by
  unfold power at h
  split at h
  · exact .inl ⟨_, rfl, (Except.ok.inj h).symm⟩
  · obtain ⟨y, hy, h⟩ := bind_eq_ok.mp h
    rcases asFloat_eq_ok.mp hy with hfloat | ⟨k, hk, -, rfl⟩
    · exact absurd hfloat (by simp)
    · obtain rfl := int.inj hk
      simp only at h
      split at h
      · exact absurd h (by simp)
      · exact .inr ⟨_, rfl, (Except.ok.inj h).symm⟩

/-- A power of a float whose exponent is too large for a float, or that is infinite though the float
is not. -/
inductive PowerOverflows : Number → ℕ → Prop
  | exponent {x : Float} {n : ℕ} (hlarge : TooLarge n) : PowerOverflows (.float x) n
  | power {x : Float} {n : ℕ} (hfinite : x.isFinite = true)
    (hinfinite : (Float.pow x (int n).toFloat).isInf = true) : PowerOverflows (.float x) n

theorem power_fails : (∃ e, a.power n = .error e) ↔ PowerOverflows a n := by
  constructor
  · rintro ⟨e, h⟩
    cases a with
    | int m => exact absurd h (by simp [power])
    | float x =>
        rcases bind_eq_error.mp h with h | ⟨y, hy, h⟩
        · obtain ⟨m, hm, hlarge⟩ := asFloat_fails.mp ⟨e, h⟩
          obtain rfl := int.inj hm
          exact .exponent hlarge
        · simp only at h
          split at h
          · next hinf =>
            rcases asFloat_eq_ok.mp hy with hfloat | ⟨k, hk, -, rfl⟩
            · exact absurd hfloat (by simp)
            · obtain rfl := int.inj hk
              exact .power hinf.2 hinf.1
          · exact absurd h (by simp)
  · intro h
    rcases asFloat_int n with ⟨-, hn⟩ | ⟨hfits, hn⟩
    · cases h <;> exact ⟨_, bind_eq_error.mpr (.inl hn)⟩
    · cases h with
      | exponent hlarge => exact absurd hlarge hfits
      | power hfinite hinfinite =>
          exact ⟨_, bind_eq_error.mpr (.inr ⟨_, hn, if_pos ⟨hinfinite, hfinite⟩⟩)⟩

end Number

/-! ## Delays that cannot be computed -/

namespace RetryPolicy

open Number

variable {p : RetryPolicy} {i : ℤ} {l l' : Ledger} {base d : Number}

/-- What a delay is computed from, before chance comes in. -/
theorem baseDelay_eq_ok (h : p.baseDelay i = .ok base) :
    ∃ factor delay, p.multiplier.power (i - 1).toNat = .ok factor ∧
      p.initialDelay.times factor = .ok delay ∧ base = p.maxDelay.min delay := by
  rw [baseDelay, bind_eq_ok] at h
  obtain ⟨factor, hfactor, h⟩ := h
  obtain ⟨delay, hdelay, h⟩ := bind_eq_ok.mp h
  exact ⟨factor, delay, hfactor, hdelay, (Except.ok.inj h).symm⟩

/-- The delay that comes of a computed one and a random number. -/
inductive Waits (p : RetryPolicy) (base draw : Number) : Number → Prop
  | nothing (h : base.le .zero = true) : Waits p base draw (.float 0.0)
  | fixed (h : base.le .zero = false) (hjitter : p.jitter = false) : Waits p base draw base
  | drawn {d : Number} (h : base.le .zero = false) (hjitter : p.jitter = true)
    (hd : draw.times base = .ok d) : Waits p base draw d

theorem backoffDelay_eq_ok (h : p.backoffDelay i l = .ok (d, l')) :
    ∃ base, p.baseDelay i = .ok base ∧ p.Waits base l.nextDraw d := by
  rw [backoffDelay, bind_eq_ok] at h
  obtain ⟨base, hbase, h⟩ := h
  refine ⟨base, hbase, ?_⟩
  split at h
  · next hzero =>
    obtain ⟨rfl, -⟩ := Prod.mk.inj (Except.ok.inj h)
    exact .nothing hzero
  · next hzero =>
    rw [Bool.not_eq_true] at hzero
    split at h
    · next hjitter =>
      obtain ⟨rfl, -⟩ := Prod.mk.inj (Except.ok.inj h)
      exact .fixed hzero (by simpa using hjitter)
    · next hjitter =>
      obtain ⟨delay, hdelay, h⟩ := bind_eq_ok.mp h
      obtain ⟨rfl, -⟩ := Prod.mk.inj (Except.ok.inj h)
      exact .drawn hzero (by simpa using hjitter) hdelay

/-- The ways in which the delay before retry `i` gets out of the range of floats. -/
inductive Overflows (p : RetryPolicy) (i : ℤ) (draw : Number) : Prop
  | power (h : PowerOverflows p.multiplier (i - 1).toNat) : Overflows p i draw
  | product {factor : Number} (hfactor : p.multiplier.power (i - 1).toNat = .ok factor)
    (h : TimesOverflows p.initialDelay factor) : Overflows p i draw
  | draw {base : Number} (hbase : p.baseDelay i = .ok base) (hpos : base.le .zero = false)
    (hjitter : p.jitter = true) (h : TimesOverflows draw base) : Overflows p i draw

/-- **When a delay cannot be computed.** -/
theorem backoffDelay_fails :
    (∃ e, p.backoffDelay i l = .error e) ↔ p.Overflows i l.nextDraw := by
  constructor
  · rintro ⟨e, h⟩
    rw [backoffDelay, bind_eq_error, baseDelay] at h
    rcases h with h | ⟨base, hbase, h⟩
    · rcases bind_eq_error.mp h with h | ⟨factor, hfactor, h⟩
      · exact .power (power_fails.mp ⟨e, h⟩)
      · rcases bind_eq_error.mp h with h | ⟨delay, -, h⟩
        · exact .product hfactor (times_fails.mp ⟨e, h⟩)
        · exact absurd h (by simp [pure, Except.pure])
    · split at h
      · exact absurd h (by simp [pure, Except.pure])
      · next hzero =>
        split at h
        · exact absurd h (by simp [pure, Except.pure])
        · next hjitter =>
          rcases bind_eq_error.mp h with h | ⟨delay, -, h⟩
          · exact .draw hbase (by simpa using hzero) (by simpa using hjitter)
              (times_fails.mp ⟨e, h⟩)
          · exact absurd h (by simp [pure, Except.pure])
  · intro h
    cases h with
    | power h =>
        obtain ⟨e, h⟩ := power_fails.mpr h
        exact ⟨e, bind_eq_error.mpr (.inl (bind_eq_error.mpr (.inl h)))⟩
    | product hfactor h =>
        obtain ⟨e, h⟩ := times_fails.mpr h
        have hbase : p.baseDelay i = .error e :=
          bind_eq_error.mpr (.inr ⟨_, hfactor, bind_eq_error.mpr (.inl h)⟩)
        exact ⟨e, bind_eq_error.mpr (.inl hbase)⟩
    | draw hbase hpos hjitter h =>
        obtain ⟨e, h⟩ := times_fails.mpr h
        refine ⟨e, bind_eq_error.mpr (.inr ⟨_, hbase, ?_⟩)⟩
        rw [if_neg (by simp [hpos]), if_neg (by simp [hjitter])]
        exact bind_eq_error.mpr (.inl h)

/-- A whole factor above one makes the delays of a policy that begin with a float fail sooner or
later. -/
theorem overflows_of_wholeFactor {m : ℤ} {x : Float} {draw : Number}
    (hmultiplier : p.multiplier = .int m) (hone : 1 < m) (hinitial : p.initialDelay = .float x)
    (hi : 1025 ≤ i) : p.Overflows i draw := by
  have hpow {a b : ℕ} (h : a + b ≤ (i - 1).toNat) : (2 ^ a - 1) * 2 ^ b ≤ 2 ^ (i - 1).toNat :=
    calc (2 ^ a - 1) * 2 ^ b ≤ 2 ^ a * 2 ^ b := Nat.mul_le_mul_right _ (Nat.sub_le _ _)
      _ = 2 ^ (a + b) := (pow_add 2 a b).symm
      _ ≤ 2 ^ (i - 1).toNat := Nat.pow_le_pow_right two_pos h
  have hfactor : p.multiplier.power (i - 1).toNat = .ok (.int (m ^ (i - 1).toNat)) := by
    rw [hmultiplier]
    rfl
  refine .product hfactor (hinitial ▸ .right ?_)
  rw [TooLarge, Int.natAbs_pow]
  exact (hpow (by omega)).trans (Nat.pow_le_pow_left (by omega) _)

end RetryPolicy

/-! ## A part that is drawn -/

namespace Number

variable {b d u : Number} {z : EReal}

theorem nonneg_of_not_lt_zero (h : b.lt .zero = false) {r : EReal}
    (hr : b.worth? = some r) : ofRat 0 ≤ r := by
  rw [← not_lt, ← lt_of_worth hr worth_zero, h]
  simp

theorem pos_of_not_le_zero (h : b.le .zero = false) (hz : b.worth? = some z) : ofRat 0 < z := by
  rw [← not_le, ← le_of_worth hz worth_zero, h]
  simp

/-- A random number becomes a float that is one half place below one at the most. -/
theorem worth_draw {x : Float} (h₀ : zero.le u = true) (h₁ : u.lt (.int 1) = true)
    (hx : u.asFloat = .ok x) : ∃ t, (float x).worth? = some (ofRat t) ∧ 0 ≤ t ∧
      t ≤ 1 - 2 ^ (-53 : ℤ) ∧ (u.le .zero = true ↔ t = 0) := by
  have hhalf : (0 : ℚ) ≤ 1 - 2 ^ (-53 : ℤ) := by norm_num
  rcases asFloat_eq_ok.mp hx with rfl | ⟨n, rfl, -, rfl⟩
  · obtain ⟨y, hy, r, hr, h₀⟩ := le_iff.mp h₀
    obtain rfl := Option.some.inj (worth_zero.symm.trans hy)
    have hone : (int 1).worth? = some (ofRat 1) := by rw [worth?, Int.cast_one]
    have hlt := (lt_of_worth hr hone).mp h₁
    have hzero := le_of_worth hr worth_zero
    rcases worth_nonneg hr h₀ with ⟨rfl, -⟩ | ⟨m, e, hm, rfl, hu⟩ | ⟨rfl, -⟩
    · exact ⟨0, hr, le_rfl, hhalf, iff_of_true (hzero.mpr le_rfl) rfl⟩
    · have hpos := magnitude_pos hm e
      obtain ⟨b, hb, rfl, rfl⟩ := hu ▸ isFormed_unpack x
      refine ⟨_, hr, hpos.le, hb.le_of_value_lt_one (ofRat_lt.mp hlt), iff_of_false ?_ hpos.ne'⟩
      rw [hzero]
      exact (ofRat_lt.mpr hpos).not_ge
    · exact absurd hlt (ofRat_lt_top 1).not_gt
  · have hn : 0 ≤ n ∧ n < 1 := by
      rw [zero, Number.le, decide_eq_true_iff] at h₀
      rw [Number.lt, decide_eq_true_iff] at h₁
      exact ⟨h₀, h₁⟩
    obtain rfl : n = 0 := by omega
    obtain ⟨r, hr, hworth⟩ := worth_toFloat (n := 0) le_rfl
    rw [Int.cast_zero] at hr
    obtain rfl : r = ofRat 0 :=
      le_antisymm (hr.mono rounds_zero le_rfl) (rounds_zero.mono hr le_rfl)
    exact ⟨0, hworth, le_rfl, hhalf, iff_of_true rfl rfl⟩

/-- A part of a positive number lies between zero and the number; only zero times infinity is
not a number. -/
theorem times_part (h₀ : zero.le u = true) (h₁ : u.lt (.int 1) = true) (hz : b.worth? = some z)
    (hpos : ofRat 0 < z) (h : u.times b = .ok d) :
    (∃ s, d.worth? = some s ∧ ofRat 0 ≤ s ∧ s ≤ z) ∧ ¬ (z = ⊤ ∧ u.le .zero = true) ∨
      d.worth? = none ∧ z = ⊤ ∧ u.le .zero = true := by
  rcases times_eq_ok h with ⟨m, k, rfl, rfl, rfl⟩ | ⟨x, y, hx, hy, rfl⟩
  · obtain rfl := Option.some.inj hz
    have hm : 0 ≤ m ∧ m < 1 := by
      rw [zero, Number.le, decide_eq_true_iff] at h₀
      rw [Number.lt, decide_eq_true_iff] at h₁
      exact ⟨h₀, h₁⟩
    obtain rfl : m = 0 := by omega
    refine .inl ⟨⟨ofRat 0, ?_, le_rfl, hpos.le⟩, fun htop => (ofRat_lt_top _).ne htop.1⟩
    rw [zero_mul, worth?, Int.cast_zero]
  · obtain ⟨t, hxt, ht₀, ht₁, hzero⟩ := worth_draw h₀ h₁ hx
    rcases asFloat_eq_ok.mp hy with rfl | ⟨k, rfl, hfits, rfl⟩
    · rcases worth_rat hz hpos.le with rfl | ⟨q, rfl, hq⟩
      · rcases ht₀.eq_or_lt with rfl | ht
        · exact .inr ⟨worth_zero_mul_top hxt hz, rfl, hzero.mpr rfl⟩
        · refine .inl ⟨⟨⊤, (worth_top_mul hz hxt (ofRat_lt.mpr ht)).2, le_top, le_rfl⟩, ?_⟩
          exact fun hnone => ht.ne' (hzero.mp hnone.2)
      · obtain ⟨r, hr, hworth⟩ := worth_mul hxt hz ht₀ hq
        refine .inl ⟨⟨r, hworth, hr.nonneg, hr.mono (rounds_worth hz hq) ?_⟩,
          fun htop => (ofRat_lt_top _).ne htop.1⟩
        exact mul_le_of_le_one_left hq (ht₁.trans (sub_le_self _ (two_zpow_pos _).le))
    · -- the whole number may have been rounded up
      obtain rfl := Option.some.inj hz
      have hk : 0 < k := by exact_mod_cast ofRat_lt.mp hpos
      obtain ⟨s, hs, hworth⟩ := worth_toFloat hk.le
      have hfinite : s ≠ ⊤ := by
        intro htop
        exact hfits ((isInf_toFloat k).mp ((isInf_iff hworth hs.nonneg).mpr htop))
      obtain ⟨v, rfl, hv⟩ := (worth_rat hworth hs.nonneg).resolve_left hfinite
      obtain ⟨r, hr, hrworth⟩ := worth_mul hxt hworth ht₀ hv
      have hone : (1 : ℚ) ≤ k := by exact_mod_cast hk
      exact .inl ⟨⟨r, hrworth, hr.nonneg, hs.part_le hone ht₁ hr⟩,
        fun htop => (ofRat_lt_top _).ne htop.1⟩

theorem worth_times_none (hb : b.worth? = none) (h : u.times b = .ok d) : d.worth? = none := by
  obtain ⟨x, rfl, -⟩ := worth_eq_none.mp hb
  rcases times_eq_ok h with ⟨m, k, -, hk, -⟩ | ⟨y, z, -, hz, rfl⟩
  · exact absurd hk (by simp)
  · rcases asFloat_eq_ok.mp hz with hz | ⟨k, hk, -⟩
    · obtain rfl := float.inj hz
      exact worth_mul_none (.inr hb)
    · exact absurd hk (by simp)

end Number

/-! ## Delays between bounds -/

namespace RetryPolicy

open Number

variable {p : RetryPolicy} {i : ℤ} {l l' : Ledger} {base draw d : Number}

theorem checkBound_eq_ok {field bound : String} {ok : Bool} :
    checkBound field bound ok = .ok () ↔ ok = true := by
  cases ok <;> simp [checkBound]

/-- The bounds that a policy has passed. -/
structure Bounded (p : RetryPolicy) : Prop where
  initialDelay : p.initialDelay.lt .zero = false
  maxDelay : p.maxDelay.lt .zero = false

theorem bounded_of_check (hp : p.check = .ok ()) : p.Bounded := by
  simp only [check, bind_eq_ok] at hp
  obtain ⟨⟨⟩, -, ⟨⟩, hinitial, ⟨⟩, -, ⟨⟩, hmax, -⟩ := hp
  rw [checkBound_eq_ok, Bool.not_eq_true'] at hinitial hmax
  exact ⟨hinitial, hmax⟩

/-- The ways in which a delay that is computed comes to be no number between the bounds. -/
inductive Spoils (p : RetryPolicy) (i : ℤ) (draw : Number) : Prop
  | maximum {x : Float} (hmax : p.maxDelay = .float x) (hnan : x.isNaN = true) : Spoils p i draw
  | draw {b : Float} (hbase : p.baseDelay i = .ok (.float b)) (hinfinite : b.isInf = true)
    (hpos : zero.lt (.float b) = true) (hjitter : p.jitter = true)
    (hzero : draw.le .zero = true) : Spoils p i draw

theorem Spoils.iff_of_worth {M z : EReal} (hM : p.maxDelay.worth? = some M)
    (hbase : p.baseDelay i = .ok base) (hz : base.worth? = some z) :
    p.Spoils i draw ↔ p.jitter = true ∧ draw.le .zero = true ∧ z = ⊤ := by
  constructor
  · intro h
    cases h with
    | maximum hmax hnan =>
        have hnone := worth_eq_none.mpr ⟨_, hmax, hnan⟩
        exact absurd (hM.symm.trans hnone) (by simp)
    | draw hbase' hinfinite hpos hjitter hzero =>
        obtain rfl := Except.ok.inj (hbase.symm.trans hbase')
        have hz₀ := (lt_of_worth worth_zero hz).mp hpos
        exact ⟨hjitter, hzero, (isInf_iff hz hz₀.le).mp hinfinite⟩
  · rintro ⟨hjitter, hzero, rfl⟩
    cases base with
    | int n => exact absurd (Option.some.inj hz) (ofRat_lt_top n).ne
    | float b =>
        refine .draw hbase ((isInf_iff hz le_top).mpr rfl) ?_ hjitter hzero
        exact (lt_of_worth worth_zero hz).mpr (ofRat_lt_top 0)

theorem Waits.worth_none (hbase : base.worth? = none) (h : p.Waits base draw d) :
    d.worth? = none := by
  cases h with
  | nothing hzero =>
      obtain ⟨z, hz, -⟩ := le_iff.mp hzero
      exact absurd (hbase.symm.trans hz) (by simp)
  | fixed => exact hbase
  | drawn _ _ hd => exact worth_times_none hbase hd

/-- A delay is not above what it is computed from, or zero; but zero may be drawn below infinity. -/
theorem Waits.worth_le {z : EReal} (hz : base.worth? = some z) (h₀ : zero.le draw = true)
    (h₁ : draw.lt (.int 1) = true) (h : p.Waits base draw d) :
    (∃ s, d.worth? = some s ∧ ofRat 0 ≤ s ∧ s ≤ ofRat 0 ⊔ z) ∧
        ¬ (p.jitter = true ∧ draw.le .zero = true ∧ z = ⊤) ∨
      d.worth? = none ∧ p.jitter = true ∧ draw.le .zero = true ∧ z = ⊤ := by
  cases h with
  | nothing hzero =>
      refine .inl ⟨⟨ofRat 0, worth?_zeroFloat, le_rfl, le_sup_left⟩, ?_⟩
      rintro ⟨-, -, rfl⟩
      exact absurd ((le_of_worth hz worth_zero).mp hzero) (ofRat_lt_top 0).not_ge
  | fixed hzero hjitter =>
      refine .inl ⟨⟨z, hz, (pos_of_not_le_zero hzero hz).le, le_sup_right⟩, ?_⟩
      rintro ⟨hdrawn, -⟩
      exact absurd hdrawn (by simp [hjitter])
  | drawn hzero hjitter hd =>
      rcases times_part h₀ h₁ hz (pos_of_not_le_zero hzero hz) hd with
        ⟨⟨s, hs, hs₀, hsz⟩, hnot⟩ | ⟨hnone, htop, hdraw⟩
      · exact .inl ⟨⟨s, hs, hs₀, le_sup_of_le_right hsz⟩, fun h => hnot ⟨h.2.2, h.2.1⟩⟩
      · exact .inr ⟨hnone, hjitter, hdraw, htop⟩

/-- **Delays between bounds.** A delay that is computed lies between zero and its maximum, but for
the ways in which it is spoilt. -/
theorem Waits.within_iff (hp : p.Bounded) (hbase : p.baseDelay i = .ok base)
    (h₀ : zero.le draw = true) (h₁ : draw.lt (.int 1) = true) (h : p.Waits base draw d) :
    zero.le d = true ∧ d.le p.maxDelay = true ↔ ¬ p.Spoils i draw := by
  obtain ⟨factor, delay, -, -, hmin⟩ := baseDelay_eq_ok hbase
  have hnowhere (hd : d.worth? = none) : ¬ (zero.le d = true ∧ d.le p.maxDelay = true) := by
    rintro ⟨hle, -⟩
    obtain ⟨-, -, s, hs, -⟩ := le_iff.mp hle
    exact absurd (hd.symm.trans hs) (by simp)
  cases hM : p.maxDelay.worth? with
  | none =>
      -- a maximum that is not a number is kept as the delay
      obtain ⟨x, hx, hnan⟩ := worth_eq_none.mp hM
      have hkept : base = p.maxDelay := hmin.trans (min_of_worth_none hM)
      have hnone : d.worth? = none := h.worth_none (by rw [hkept, hM])
      exact iff_of_false (hnowhere hnone) (not_not.mpr (.maximum hx hnan))
  | some M =>
      obtain ⟨z, hz, hzM⟩ := worth_min_le (b := delay) hM
      rw [← hmin] at hz
      rw [Spoils.iff_of_worth hM hbase hz]
      rcases h.worth_le hz h₀ h₁ with ⟨⟨s, hs, hs₀, hsz⟩, hsound⟩ | ⟨hnone, hspoilt⟩
      · have hsM : s ≤ M := hsz.trans (sup_le (nonneg_of_not_lt_zero hp.maxDelay hM) hzM)
        exact iff_of_true ⟨(le_of_worth worth_zero hs).mpr hs₀, (le_of_worth hs hM).mpr hsM⟩ hsound
      · exact iff_of_false (hnowhere hnone) (not_not.mpr hspoilt)

end RetryPolicy

/-! ## Delays that grow -/

namespace Number

/-- One number is not above another one; what is not a number is above all. -/
def NotAbove (a b : Number) : Prop := ∀ y, b.worth? = some y → ∃ x, a.worth? = some x ∧ x ≤ y

theorem notAbove_min {a b m : Number} (h : NotAbove a b) : NotAbove (m.min a) (m.min b) := by
  intro y hy
  cases hm : m.worth? with
  | none =>
      rw [min_of_worth_none hm, hm] at hy
      exact absurd hy (by simp)
  | some r =>
      rw [worth_min hm] at hy
      obtain rfl := Option.some.inj hy
      refine ⟨_, worth_min hm, ?_⟩
      cases hb : b.worth? with
      | none =>
          obtain ⟨z, hz, hzr⟩ := worth_min_le (b := a) hm
          obtain rfl := Option.some.inj ((worth_min hm).symm.trans hz)
          exact hzr
      | some y =>
          obtain ⟨x, hx, hxy⟩ := h y hb
          rw [hx]
          exact inf_le_inf_left r hxy

/-- A product of floats does not decrease when a positive factor grows. -/
theorem notAbove_mul {c x y : Float} (hc : (float c).lt .zero = false) {r s : EReal}
    (hr : (float x).worth? = some r) (hs : (float y).worth? = some s) (hpos : ofRat 0 < r)
    (hrs : r ≤ s) : NotAbove (.float (c * x)) (.float (c * y)) := by
  intro w hw
  have hs₀ := hpos.trans_le hrs
  cases hcw : (float c).worth? with
  | none => exact absurd ((worth_mul_none (.inl hcw)).symm.trans hw) (by simp)
  | some q =>
      have hq₀ := nonneg_of_not_lt_zero hc hcw
      rcases worth_rat hcw hq₀ with rfl | ⟨q, rfl, hq⟩
      · obtain rfl := Option.some.inj ((worth_top_mul hcw hs hs₀).1.symm.trans hw)
        exact ⟨⊤, (worth_top_mul hcw hr hpos).1, le_rfl⟩
      rcases worth_rat hs hs₀.le with rfl | ⟨s, rfl, hs₁⟩
      · -- an infinite factor: the product is infinite, or it is not a number
        rcases hq.eq_or_lt with rfl | hq
        · exact absurd ((worth_zero_mul_top hcw hs).symm.trans hw) (by simp)
        · have hq := ofRat_lt.mpr hq
          obtain rfl := Option.some.inj ((worth_top_mul hs hcw hq).2.symm.trans hw)
          rcases worth_rat hr hpos.le with rfl | ⟨r, rfl, hr₁⟩
          · exact ⟨⊤, (worth_top_mul hr hcw hq).2, le_rfl⟩
          · obtain ⟨v, -, hv⟩ := worth_mul hcw hr (ofRat_le.mp hq₀) hr₁
            exact ⟨v, hv, le_top⟩
      · obtain ⟨r, rfl, hr₁⟩ := (worth_rat hr hpos.le).resolve_left
          (hrs.trans_lt (ofRat_lt_top s)).ne
        obtain ⟨v, hv, hvworth⟩ := worth_mul hcw hr hq hr₁
        obtain ⟨v', hv', hvworth'⟩ := worth_mul hcw hs hq hs₁
        obtain rfl := Option.some.inj (hvworth'.symm.trans hw)
        exact ⟨v, hvworth, hv.mono hv' (mul_le_mul_of_nonneg_left (ofRat_le.mp hrs) hq)⟩

/-- As the exponent grows from `m` to `n`, the powers of a number do not fall, nor below one. For
floats that is what one may expect of the power function. -/
def Grows (a : Number) (m n : ℕ) : Prop :=
  ∀ x, a = .float x → (int 1).le (.float (Float.pow x (int m).toFloat)) = true ∧
    (float (Float.pow x (int m).toFloat)).le (.float (Float.pow x (int n).toFloat)) = true

theorem worth_int (n : ℤ) : (int n).worth? = some (ofRat n) := rfl

/-- What a number that is not negative becomes as a float. -/
theorem worth_asFloat {a : Number} {x : Float} {r : EReal} (h : a.asFloat = .ok x)
    (hr : a.worth? = some r) (hr₀ : ofRat 0 ≤ r) : ∃ r', (float x).worth? = some r' ∧
      (r = ⊤ ∧ r' = ⊤ ∨ ∃ q, r = ofRat q ∧ Rounds q r') := by
  rcases asFloat_eq_ok.mp h with rfl | ⟨n, rfl, -, rfl⟩
  · refine ⟨r, hr, ?_⟩
    rcases worth_rat hr hr₀ with rfl | ⟨q, rfl, hq⟩
    · exact .inl ⟨rfl, rfl⟩
    · exact .inr ⟨q, rfl, rounds_worth hr hq⟩
  · obtain rfl := Option.some.inj hr
    obtain ⟨r', hr', hworth⟩ := worth_toFloat (n := n) (by exact_mod_cast ofRat_le.mp hr₀)
    exact ⟨r', hworth, .inr ⟨n, rfl, hr'⟩⟩

/-- Numbers keep their order as they become floats. -/
theorem asFloat_mono {a b : Number} {x y : Float} {r s : EReal} (ha : a.asFloat = .ok x)
    (hb : b.asFloat = .ok y) (hr : a.worth? = some r) (hs : b.worth? = some s)
    (hone : ofRat 1 ≤ r) (hrs : r ≤ s) : ∃ r' s', (float x).worth? = some r' ∧
      (float y).worth? = some s' ∧ ofRat 0 < r' ∧ r' ≤ s' := by
  have hr₀ : ofRat 0 ≤ r := (ofRat_le.mpr zero_le_one).trans hone
  obtain ⟨r', hr', hfloat⟩ := worth_asFloat ha hr hr₀
  obtain ⟨s', hs', hfloat'⟩ := worth_asFloat hb hs (hr₀.trans hrs)
  refine ⟨r', s', hr', hs', ?_⟩
  rcases hfloat with ⟨rfl, rfl⟩ | ⟨q, rfl, hq⟩
  · rcases hfloat' with ⟨-, rfl⟩ | ⟨q', rfl, -⟩
    · exact ⟨ofRat_lt_top 0, le_rfl⟩
    · exact absurd hrs (ofRat_lt_top q').not_ge
  · have hpos : (2 : ℚ) ^ (-1075 : ℤ) < q :=
      (zpow_lt_one_of_neg₀ one_lt_two (by omega)).trans_le (ofRat_le.mp hone)
    refine ⟨hq.pos hpos, ?_⟩
    rcases hfloat' with ⟨-, rfl⟩ | ⟨q', rfl, hq'⟩
    · exact le_top
    · exact hq.mono hq' (ofRat_le.mp hrs)

theorem asFloat_nonneg {a : Number} {x : Float} (h : a.asFloat = .ok x)
    (ha : a.lt .zero = false) : (float x).lt .zero = false := by
  rcases asFloat_eq_ok.mp h with rfl | ⟨n, rfl, -, rfl⟩
  · exact ha
  · have hn : 0 ≤ n := by simpa [Number.lt, zero] using ha
    obtain ⟨r, hr, hworth⟩ := worth_toFloat hn
    rw [← Bool.not_eq_true, lt_of_worth hworth worth_zero]
    exact hr.nonneg.not_gt

/-- What is multiplied by growing powers grows. -/
theorem notAbove_times {c f g d e : Number} (hc : c.lt .zero = false)
    (hfg : (∃ m k, f = .int m ∧ g = .int k) ∨ ∃ x y, f = .float x ∧ g = .float y)
    (hone : (int 1).le f = true) (hle : f.le g = true)
    (hd : c.times f = .ok d) (he : c.times g = .ok e) : NotAbove d e := by
  rcases times_eq_ok hd with ⟨n, m, rfl, rfl, rfl⟩ | ⟨x, y, hx, hy, rfl⟩
  · rcases hfg with ⟨m, k, hf, rfl⟩ | ⟨x, y, hf, -⟩
    · obtain rfl := int.inj hf
      obtain rfl := Except.ok.inj he
      have hn : 0 ≤ n := by simpa [Number.lt, zero] using hc
      have hmk : m ≤ k := by simpa [Number.le] using hle
      intro w hw
      obtain rfl := Option.some.inj ((worth_int _).symm.trans hw)
      refine ⟨_, worth_int _, ofRat_le.mpr ?_⟩
      exact_mod_cast mul_le_mul_of_nonneg_left hmk hn
    · exact absurd hf (by simp)
  · rcases times_eq_ok he with ⟨n, k, rfl, rfl, rfl⟩ | ⟨x', y', hx', hy', rfl⟩
    · -- the other factor would be whole here as well, and so the product
      rcases hfg with ⟨m, -, rfl, -⟩ | ⟨_, _, -, hk⟩
      · exact absurd (Except.ok.inj hd) (by simp)
      · exact absurd hk (by simp)
    · obtain rfl := Except.ok.inj (hx.symm.trans hx')
      obtain ⟨q, hq, r, hr, hqr⟩ := le_iff.mp hone
      obtain ⟨r', hr', s, hs, hrs⟩ := le_iff.mp hle
      obtain rfl := Option.some.inj (hr.symm.trans hr')
      obtain rfl := Option.some.inj ((worth_int 1).symm.trans hq)
      rw [Int.cast_one] at hqr
      obtain ⟨v, w, hv, hw, hpos, hvw⟩ := asFloat_mono hy hy' hr hs hqr hrs
      exact notAbove_mul (asFloat_nonneg hx hc) hv hw hpos hvw

/-- Powers of a number that is at least one: both are whole or both are floats, and they grow. -/
theorem power_grows {a f g : Number} {m n : ℕ} (hone : (int 1).le a = true) (hmn : m ≤ n)
    (hgrows : a.Grows m n) (hf : a.power m = .ok f) (hg : a.power n = .ok g) :
    ((∃ k l, f = .int k ∧ g = .int l) ∨ ∃ x y, f = .float x ∧ g = .float y) ∧
      (int 1).le f = true ∧ f.le g = true := by
  rcases power_eq_ok hf with ⟨k, rfl, rfl⟩ | ⟨x, rfl, rfl⟩
  · obtain rfl := Except.ok.inj hg
    have hk : 1 ≤ k := by simpa [Number.le] using hone
    refine ⟨.inl ⟨_, _, rfl, rfl⟩, ?_, ?_⟩
    · simpa [Number.le] using one_le_pow₀ hk
    · simpa [Number.le] using pow_le_pow_right₀ hk hmn
  · rcases power_eq_ok hg with ⟨k, hk, -⟩ | ⟨y, hy, rfl⟩
    · exact absurd hk (by simp)
    · obtain rfl := float.inj hy
      exact ⟨.inr ⟨_, _, rfl, rfl⟩, hgrows x rfl⟩

end Number

namespace RetryPolicy

open Number

variable {p : RetryPolicy} {i j : ℤ} {l l₁ m m₁ : Ledger} {b b' d e : Number}

theorem baseDelay_notAbove (hp : p.Bounded) (hone : (int 1).le p.multiplier = true) (hij : i ≤ j)
    (hgrows : p.multiplier.Grows (i - 1).toNat (j - 1).toNat) (hb : p.baseDelay i = .ok b)
    (hb' : p.baseDelay j = .ok b') : NotAbove b b' := by
  obtain ⟨f, x, hf, hx, rfl⟩ := baseDelay_eq_ok hb
  obtain ⟨g, y, hg, hy, rfl⟩ := baseDelay_eq_ok hb'
  obtain ⟨halike, hfone, hfg⟩ := power_grows hone (by omega) hgrows hf hg
  exact notAbove_min (notAbove_times hp.initialDelay halike hfone hfg hx hy)

/-- Where nothing is drawn, the delays are in the order of what they are computed from. -/
theorem Waits.notAbove {u v : Number} (hjitter : p.jitter = false) (hbb' : NotAbove b b')
    (hd : p.Waits b u d) (he : p.Waits b' v e) : NotAbove d e := by
  intro y hy
  cases hd with
  | drawn _ hdrawn => exact absurd hdrawn (by simp [hjitter])
  | nothing hzero =>
      -- whatever comes next is not below zero
      refine ⟨_, worth?_zeroFloat, ?_⟩
      cases he with
      | drawn _ hdrawn => exact absurd hdrawn (by simp [hjitter])
      | nothing => exact (Option.some.inj (worth?_zeroFloat.symm.trans hy)).le
      | fixed hzero' =>
          rw [← Bool.not_eq_true, le_of_worth hy worth_zero] at hzero'
          exact (not_le.mp hzero').le
  | fixed hzero =>
      cases he with
      | drawn _ hdrawn => exact absurd hdrawn (by simp [hjitter])
      | fixed => exact hbb' y hy
      | nothing hzero' =>
          -- a delay above zero is followed by no other
          obtain ⟨w, hw, z, hz, hwz⟩ := le_iff.mp hzero'
          obtain ⟨x, hx, hxw⟩ := hbb' w hw
          exact absurd (le_iff.mpr ⟨x, hx, z, hz, hxw.trans hwz⟩) (by simp [hzero])

/-- **Delays that grow.** -/
theorem backoffDelay_grows (hp : p.Bounded) (hjitter : p.jitter = false)
    (hone : (int 1).le p.multiplier = true) (hij : i ≤ j)
    (hgrows : p.multiplier.Grows (i - 1).toNat (j - 1).toNat)
    (hd : p.backoffDelay i l = .ok (d, l₁)) (he : p.backoffDelay j m = .ok (e, m₁)) :
    e.lt d = false := by
  obtain ⟨b, hb, hd⟩ := backoffDelay_eq_ok hd
  obtain ⟨b', hb', he⟩ := backoffDelay_eq_ok he
  have hde := hd.notAbove hjitter (baseDelay_notAbove hp hone hij hgrows hb hb') he
  rw [← Bool.not_eq_true, lt_iff]
  rintro ⟨y, hy, x, hx, hlt⟩
  obtain ⟨x', hx', hle⟩ := hde y hy
  obtain rfl := Option.some.inj (hx.symm.trans hx')
  exact absurd hlt hle.not_gt

end RetryPolicy

end ChatClient
