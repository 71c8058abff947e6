import Mathlib
import ChatClient.Decimal.Binary

/-!
# What rounds to a float

An operation on floats comes to an exact number, of which it keeps a mantissa, the bit after it
and whether any bit after that is set; `Describes` says that these tell enough of the number.
The number is shifted to the exponent that its size calls for and rounded there, once more if
rounding has made the mantissa too long.

`Binary.Covers` is the other side of it: the numbers between the two neighbours of a float that
are nearer to it than to them. Whatever a canonical float covers rounds to it.
-/

namespace ChatClient.Decimal

open Float.Model Float.Model.UnpackedFloat

/-- An extended mantissa tells of `y` what its rounding depends on: the whole part, the first
bit after the point, and whether any later bit is set. -/
def Describes (em : ExtendedMantissa) (y : ℚ) : Prop :=
  ∃ s : ℚ, 0 ≤ s ∧ s < 1 ∧ (em.stickyBit = true ↔ 0 < s) ∧
    y = em.mantissa + (em.roundBit.toNat + s) / 2

theorem Describes.shiftRightOne {em : ExtendedMantissa} {y : ℚ} (h : Describes em y) :
    Describes em.shiftRightOne (y / 2) := by
  obtain ⟨s, h0, h1, hs, rfl⟩ := h
  refine ⟨(em.roundBit.toNat + s) / 2, by positivity, ?_, ?_, ?_⟩
  · cases em.roundBit <;> norm_num <;> linarith
  · cases hr : em.roundBit
    · simp [ExtendedMantissa.shiftRightOne, hr, hs]
    · simp only [ExtendedMantissa.shiftRightOne, hr, Bool.true_or, true_iff]
      norm_num
      linarith
  · have hm : (em.mantissa : ℚ) = 2 * (em.mantissa / 2 : ℕ) + (em.mantissa % 2 : ℕ) := by
      exact_mod_cast (Nat.div_add_mod em.mantissa 2).symm
    have hb : ((em.mantissa % 2 != 0).toNat : ℚ) = (em.mantissa % 2 : ℕ) := by
      rcases Nat.mod_two_eq_zero_or_one em.mantissa with h | h <;> simp [h]
    simp only [ExtendedMantissa.shiftRightOne, hb]
    rw [hm]
    ring

theorem Describes.shiftRight {em : ExtendedMantissa} {y : ℚ} (h : Describes em y) (n : ℕ) :
    Describes (em >>> n) (y / 2 ^ n) := by
  induction n with
  | zero => rwa [pow_zero, div_one]
  | succ n ih =>
      rw [pow_succ, ← div_div]
      exact ih.shiftRightOne

/-- Rounding gives the whole number that `y` is nearest to, the even one of two. -/
theorem Describes.roundedMantissa {em : ExtendedMantissa} {y : ℚ} (h : Describes em y) {M : ℕ}
    (hlow : (M : ℚ) - 1 / 2 ≤ y) (hhigh : y ≤ M + 1 / 2)
    (hodd : M % 2 = 1 → (M : ℚ) - 1 / 2 < y ∧ y < M + 1 / 2) : em.roundedMantissa = M := by
  obtain ⟨s, h0, h1, hs, rfl⟩ := h
  obtain ⟨m, r, t⟩ := em
  dsimp only at hs hlow hhigh hodd
  have hr : (r.toNat : ℚ) ≤ 1 := by cases r <;> simp
  have hr0 : (0 : ℚ) ≤ r.toNat := by positivity
  -- the two whole numbers around `y` are `m` and `m + 1`
  have hle : M < m + 2 := by
    have : (M : ℚ) < m + 2 := by linarith
    exact_mod_cast this
  have hge : m < M + 1 := by
    have : (m : ℚ) < M + 1 := by linarith
    exact_mod_cast this
  obtain rfl | rfl : M = m ∨ M = m + 1 := by omega
  · cases r <;> cases t
    · rfl
    · rfl
    · have hs0 : s = 0 := le_antisymm (not_lt.mp fun h => by simp [h] at hs) h0
      have hM : M % 2 = 0 := by
        by_contra h
        have := (hodd (by omega)).2
        simp [hs0] at this
      show M + M % 2 = M
      omega
    · have : 0 < s := hs.mp rfl
      simp only [Bool.toNat_true, Nat.cast_one] at hhigh
      linarith
  · push_cast at hlow hodd
    cases r <;> cases t
    · have hs0 : s = 0 := le_antisymm (not_lt.mp fun h => by simp [h] at hs) h0
      simp only [Bool.toNat_false, hs0] at hlow
      norm_num at hlow
    · simp only [Bool.toNat_false, Nat.cast_zero] at hlow
      linarith
    · have hs0 : s = 0 := le_antisymm (not_lt.mp fun h => by simp [h] at hs) h0
      have hM : (m + 1) % 2 = 0 := by
        by_contra h
        have := (hodd (by omega)).1
        simp only [Bool.toNat_true, hs0] at this
        norm_num at this
        linarith
      show m + m % 2 = m + 1
      omega
    · rfl

theorem describes_exact (m : ℕ) :
    Describes (ExtendedMantissa.ofMantissaAndAccuracy m .exact) m :=
  ⟨0, le_rfl, one_pos, by simp [ExtendedMantissa.ofMantissaAndAccuracy],
    by simp [ExtendedMantissa.ofMantissaAndAccuracy]⟩

/-- The remainder of a division tells how accurate the quotient is. -/
theorem describes_div (num : ℕ) {den : ℕ} (hden : 0 < den) :
    Describes (ExtendedMantissa.ofMantissaAndAccuracy (num / den)
      (accuracyOfFraction (num % den) den)) (num / den) := by
  have hd : (0 : ℚ) < den := by exact_mod_cast hden
  have hy : (num : ℚ) / den = (num / den : ℕ) + (num % den : ℕ) / (den : ℚ) := by
    rw [eq_comm, ← eq_sub_iff_add_eq', eq_sub_iff_add_eq', eq_div_iff hd.ne', add_mul,
      div_mul_cancel₀ _ hd.ne', mul_comm]
    exact_mod_cast Nat.div_add_mod num den
  have hlt : ((num % den : ℕ) : ℚ) < den := by exact_mod_cast Nat.mod_lt num hden
  rw [hy]
  generalize num % den = r at hlt ⊢
  unfold accuracyOfFraction
  split_ifs with h0
  · subst h0
    simpa using describes_exact (num / den)
  have hr : (0 : ℚ) < r := by exact_mod_cast Nat.pos_of_ne_zero h0
  rcases lt_trichotomy (2 * r) den with h | h | h
  · -- below one half: the round bit is off, and all of the remainder is sticky
    have h' : (2 * r : ℚ) < den := by exact_mod_cast h
    rw [Nat.compare_eq_lt.mpr h]
    refine ⟨2 * r / den, by positivity, (div_lt_one hd).mpr h', ?_, ?_⟩
    · simp only [ExtendedMantissa.ofMantissaAndAccuracy, true_iff]; positivity
    · simp only [ExtendedMantissa.ofMantissaAndAccuracy, Bool.toNat_false, Nat.cast_zero]; ring
  · have h' : (2 * r : ℚ) = den := by exact_mod_cast h
    rw [Nat.compare_eq_eq.mpr h]
    refine ⟨0, le_rfl, one_pos, by simp [ExtendedMantissa.ofMantissaAndAccuracy], ?_⟩
    simp only [ExtendedMantissa.ofMantissaAndAccuracy, Bool.toNat_true, Nat.cast_one, ← h']
    field_simp
    norm_num
  · have h' : (den : ℚ) < 2 * r := by exact_mod_cast h
    rw [Nat.compare_eq_gt.mpr h]
    refine ⟨2 * r / den - 1, ?_, ?_, ?_, ?_⟩
    · rw [sub_nonneg, one_le_div hd]; exact h'.le
    · rw [sub_lt_iff_lt_add, div_lt_iff₀ hd]; linarith
    · simp only [ExtendedMantissa.ofMantissaAndAccuracy, sub_pos, one_lt_div hd, h']
    · simp only [ExtendedMantissa.ofMantissaAndAccuracy, Bool.toNat_true, Nat.cast_one]; ring

/-- Shifting up to an exponent describes the same number at that exponent. -/
theorem Describes.shiftToExponent {m : ℕ} {e t : ℤ} {acc : Accuracy} {x : ℚ}
    (h : Describes (ExtendedMantissa.ofMantissaAndAccuracy m acc) (x / 2 ^ e)) (het : e ≤ t) :
    ∃ em, UnpackedFloat.shiftToExponent m e acc t = (em, t) ∧ Describes em (x / 2 ^ t) := by
  have ht : e + (t - e).toNat = t := by omega
  refine ⟨ExtendedMantissa.ofMantissaAndAccuracy m acc >>> (t - e).toNat, Prod.ext rfl ht, ?_⟩
  have := h.shiftRight (t - e).toNat
  rwa [div_div, ← zpow_natCast (2 : ℚ), ← zpow_add₀ two_ne_zero, ht] at this

/-! ## What a float covers -/

/-- The distance from a float to the end of what rounds to it from below, in units of its last
place. -/
def Binary.margin (b : Binary) : ℚ := if b.narrowBelow then 1 / 4 else 1 / 2

/-- The rationals that round to a float. The two ends are among them if the mantissa is even. -/
structure Binary.Covers (b : Binary) (x : ℚ) : Prop where
  low : b.mantissa - b.margin ≤ x / 2 ^ b.exponent
  high : x / 2 ^ b.exponent ≤ b.mantissa + 1 / 2
  odd : b.mantissa % 2 = 1 →
    b.mantissa - b.margin < x / 2 ^ b.exponent ∧ x / 2 ^ b.exponent < b.mantissa + 1 / 2

/-- Mantissa and exponent are those of a positive float: a mantissa of 53 bits, or of fewer
at the least exponent. -/
structure Binary.Canonical (b : Binary) : Prop where
  pos : 0 < b.mantissa
  small : b.mantissa < 2 ^ 53
  least : -1074 ≤ b.exponent
  full : -1074 < b.exponent → 2 ^ 52 ≤ b.mantissa
  narrow : b.narrowBelow = true ↔ b.mantissa = 2 ^ 52 ∧ -1074 < b.exponent

theorem Binary.margin_le (b : Binary) : b.margin ≤ 1 / 2 := by
  unfold Binary.margin; split_ifs <;> norm_num

/-- What lies strictly between the ends is covered. -/
theorem Binary.covers_of_lt {b : Binary} {x : ℚ} (hlow : b.mantissa - b.margin < x / 2 ^ b.exponent)
    (hhigh : x / 2 ^ b.exponent < b.mantissa + 1 / 2) : b.Covers x :=
  ⟨hlow.le, hhigh.le, fun _ => ⟨hlow, hhigh⟩⟩

theorem targetExponent_eq (t : ℤ) : Format.binary64.targetExponent t = max (t - 53) (-1074) := rfl

theorem two_zpow_pos (e : ℤ) : (0 : ℚ) < 2 ^ e := zpow_pos two_pos e

/-- A mantissa is below the power of two that its total exponent names. -/
theorem lt_two_zpow_totalExponent (m : ℕ) (e : ℤ) :
    ((m : ℚ) + 1) * 2 ^ e ≤ 2 ^ totalExponent m e := by
  have hm : (m : ℚ) + 1 ≤ 2 ^ (m.log2 + 1) := by exact_mod_cast Nat.lt_log2_self
  rw [show totalExponent m e = (m.log2 + 1 : ℕ) + e by unfold totalExponent; push_cast; ring,
    zpow_add₀ two_ne_zero, zpow_natCast]
  exact mul_le_mul_of_nonneg_right hm (two_zpow_pos e).le

/-- A positive mantissa reaches the power of two before. -/
theorem two_zpow_totalExponent_le {m : ℕ} (hm : 0 < m) (e : ℤ) :
    (2 : ℚ) ^ (totalExponent m e - 1) ≤ m * 2 ^ e := by
  have hlow : (2 : ℚ) ^ m.log2 ≤ m := by exact_mod_cast Nat.log2_self_le hm.ne'
  rw [show totalExponent m e - 1 = m.log2 + e by unfold totalExponent; ring,
    zpow_add₀ two_ne_zero, zpow_natCast]
  exact mul_le_mul_of_nonneg_right hlow (two_zpow_pos e).le

theorem two_zpow_natCast_add (n : ℕ) (e : ℤ) : (2 : ℚ) ^ (n + e) = 2 ^ n * 2 ^ e := by
  rw [zpow_add₀ two_ne_zero, zpow_natCast]

/-- A canonical mantissa stays at its exponent. -/
theorem Binary.Canonical.targetExponent {b : Binary} (hb : b.Canonical) :
    Format.binary64.targetExponent (totalExponent b.mantissa b.exponent) = b.exponent := by
  have hlog : b.mantissa.log2 < 53 := (Nat.log2_lt hb.pos.ne').mpr hb.small
  have hleast := hb.least
  rw [targetExponent_eq, totalExponent]
  rcases hleast.lt_or_eq with h | h
  · have : 52 ≤ b.mantissa.log2 := (Nat.le_log2 hb.pos.ne').mpr (hb.full h)
    omega
  · omega

/-- The exponent that a covered number is shifted to is the float's own. Only a number below the
least mantissa of 53 bits is at home one exponent further down. -/
theorem Binary.Covers.targetExponent {b : Binary} (hb : b.Canonical) {x : ℚ} (hx : b.Covers x)
    {m : ℕ} {e : ℤ} (hm : (m : ℚ) ≤ x / 2 ^ e) (hm' : x / 2 ^ e < m + 1)
    (he : e ≤ Format.binary64.targetExponent (totalExponent m e)) :
    Format.binary64.targetExponent (totalExponent m e) = b.exponent ∨
      Format.binary64.targetExponent (totalExponent m e) = b.exponent - 1 ∧
        b.mantissa = 2 ^ 52 ∧ -1074 < b.exponent ∧ x / 2 ^ b.exponent < 2 ^ 52 := by
  have hleast := hb.least
  have hsmall : (b.mantissa : ℚ) + 1 ≤ 2 ^ 53 := by exact_mod_cast hb.small
  rw [targetExponent_eq] at he ⊢
  rw [le_div_iff₀ (two_zpow_pos e)] at hm
  rw [div_lt_iff₀ (two_zpow_pos e)] at hm'
  have hxt : x < 2 ^ totalExponent m e := hm'.trans_le (lt_two_zpow_totalExponent m e)
  -- not above the exponent of the float: the number is less than `2 ^ 53` of its last places
  have hle : max (totalExponent m e - 53) (-1074) ≤ b.exponent := by
    rcases m.eq_zero_or_pos with rfl | hpos
    · have : totalExponent 0 e = 1 + e := by simp [totalExponent]
      omega
    · have hx53 : x < 2 ^ (((53 : ℕ) : ℤ) + b.exponent) := by
        rw [two_zpow_natCast_add, ← div_lt_iff₀ (two_zpow_pos _)]
        linarith [hx.high]
      have := ((two_zpow_totalExponent_le hpos e).trans hm).trans_lt hx53
      have := (zpow_lt_zpow_iff_right₀ one_lt_two).mp this
      omega
  -- a lower bound on the number is one on its total exponent
  have key {n : ℕ} (h : 2 ^ n ≤ x / 2 ^ b.exponent) : n + b.exponent < totalExponent m e := by
    rw [le_div_iff₀ (two_zpow_pos _), ← two_zpow_natCast_add] at h
    exact (zpow_lt_zpow_iff_right₀ one_lt_two).mp (h.trans_lt hxt)
  rcases hleast.lt_or_eq with hlt | heq
  · have hfull : (2 ^ 52 : ℚ) ≤ b.mantissa := by exact_mod_cast hb.full hlt
    by_cases h52 : 2 ^ 52 ≤ x / 2 ^ b.exponent
    · have := key h52
      exact .inl (by omega)
    · have hlow := hx.low
      have hM : b.mantissa < 2 ^ 52 + 1 := by
        by_contra hM
        have hM : (2 ^ 52 + 1 : ℚ) ≤ b.mantissa := by exact_mod_cast not_lt.mp hM
        linarith [b.margin_le]
      have h51 : 2 ^ 51 ≤ x / 2 ^ b.exponent := by linarith [b.margin_le]
      have := key h51
      have := hb.full hlt
      by_cases htop : totalExponent m e - 53 = b.exponent
      · exact .inl (by omega)
      · exact .inr ⟨by omega, by omega, hlt, not_le.mp h52⟩
  · exact .inl (by omega)

theorem Describes.mantissa_le {em : ExtendedMantissa} {y : ℚ} (h : Describes em y) :
    (em.mantissa : ℚ) ≤ y ∧ y < em.mantissa + 1 := by
  obtain ⟨s, h0, h1, -, rfl⟩ := h
  have : (em.roundBit.toNat : ℚ) ≤ 1 := by cases em.roundBit <;> simp
  have : (0 : ℚ) ≤ em.roundBit.toNat := by positivity
  constructor <;> linarith

@[simp] theorem mantissa_ofMantissaAndAccuracy (m : ℕ) (acc : Accuracy) :
    (ExtendedMantissa.ofMantissaAndAccuracy m acc).mantissa = m := by
  unfold ExtendedMantissa.ofMantissaAndAccuracy
  split <;> rfl

/-- After the first shift and the rounding, one more shift puts the mantissa in its place. -/
theorem roundWithAccuracy_of_rounded {b : Binary} (hb : b.Canonical) {m : ℕ} {e : ℤ}
    {acc : Accuracy} {em : ExtendedMantissa} {t : ℤ}
    (h : shiftToTargetExponent Format.binary64 m e acc = (em, t))
    (hr : (shiftToTargetExponent Format.binary64 em.roundedMantissa t .exact).1.mantissa =
      b.mantissa)
    (ht : (shiftToTargetExponent Format.binary64 em.roundedMantissa t .exact).2 = b.exponent)
    (s : Sign) :
    roundWithAccuracy Format.binary64 s m e acc = .finite s b.mantissa b.exponent hb.pos := by
  have hpos := hb.pos
  simp only [roundWithAccuracy, h, hr, ht]
  rw [dif_neg hpos.ne']

/-- Rounding what a float covers gives the float. -/
theorem roundWithAccuracy_eq {b : Binary} (hb : b.Canonical) {x : ℚ} (hx : b.Covers x)
    {m : ℕ} {e : ℤ} {acc : Accuracy}
    (h : Describes (ExtendedMantissa.ofMantissaAndAccuracy m acc) (x / 2 ^ e))
    (he : e ≤ Format.binary64.targetExponent (totalExponent m e)) (s : Sign) :
    roundWithAccuracy Format.binary64 s m e acc =
      .finite s b.mantissa b.exponent hb.pos := by
  have hm := h.mantissa_le
  rw [mantissa_ofMantissaAndAccuracy] at hm
  obtain ⟨em, hem, hd⟩ := h.shiftToExponent he
  have hmargin := b.margin_le
  rcases hx.targetExponent hb hm.1 hm.2 he with ht | ⟨ht, hM, hleast, hlt⟩
  · -- at the exponent of the float the mantissa rounds to its own
    rw [ht] at hem hd
    have hr : em.roundedMantissa = b.mantissa := by
      have := hx.low
      refine hd.roundedMantissa (by linarith) hx.high fun hodd => ?_
      have := hx.odd hodd
      exact ⟨by linarith, this.2⟩
    refine roundWithAccuracy_of_rounded hb (by rw [shiftToTargetExponent, ht, hem]) ?_ ?_ s
    · rw [hr, shiftToTargetExponent, hb.targetExponent, shiftToExponent, sub_self]
      exact mantissa_ofMantissaAndAccuracy _ _
    · rw [hr, shiftToTargetExponent, hb.targetExponent, shiftToExponent, sub_self]
      exact add_zero _
  · -- one exponent further down it rounds up to `2 ^ 53`, which is shifted once more
    rw [ht] at hem hd
    have hnarrow : b.margin = 1 / 4 := if_pos (hb.narrow.mpr ⟨hM, hleast⟩)
    have hdouble : x / 2 ^ (b.exponent - 1) = 2 * (x / 2 ^ b.exponent) := by
      rw [zpow_sub_one₀ two_ne_zero]
      field_simp
    have hr : em.roundedMantissa = 2 ^ 53 := by
      have hlow := hx.low
      rw [hnarrow, hM] at hlow
      rw [hdouble] at hd
      push_cast at hlow
      refine hd.roundedMantissa ?_ ?_ fun hodd => ?_
      · push_cast; linarith
      · push_cast; linarith
      · norm_num at hodd
    have htop : Format.binary64.targetExponent (totalExponent (2 ^ 53) (b.exponent - 1)) =
        b.exponent := by
      rw [targetExponent_eq, totalExponent, Nat.log2_two_pow]
      push_cast
      omega
    have hone : b.exponent - (b.exponent - 1) = 1 := by ring
    refine roundWithAccuracy_of_rounded hb (by rw [shiftToTargetExponent, ht, hem]) ?_ ?_ s
    · rw [hr, shiftToTargetExponent, htop, shiftToExponent, hone]
      exact hM.symm
    · rw [hr, shiftToTargetExponent, htop, shiftToExponent, hone]
      exact sub_add_cancel _ _

end ChatClient.Decimal
