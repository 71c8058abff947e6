import ChatClient.Proofs.NumberOrder

/-!
# Rounding keeps the order

What two floats cover lies apart, on the side on which the floats lie; and every rational above the
least half place is covered by a canonical float, if exponents beyond those of finite floats are
counted in. `Rounds x r` says what a rational that is not negative is rounded to: to zero, to the
float that covers it, or to infinity where that float is out of range. Products of floats and whole
numbers that become floats are rounded so, and by the order they cannot come out in the wrong one.
-/

namespace ChatClient.Decimal

open Float.Model Float.Model.UnpackedFloat

/-! ## What floats cover -/

namespace Binary

variable {b c : Binary} {x y : ℚ}

theorem value_pos (hb : b.Canonical) : 0 < b.value := magnitude_pos hb.pos b.exponent

/-- What a float covers ends within its exponent. -/
theorem Covers.lt_end (hb : b.Canonical) (hx : b.Covers x) :
    x < (2 ^ 53 - 1 / 2) * 2 ^ b.exponent := by
  rw [← div_lt_iff₀ (two_zpow_pos _)]
  have hsmall := hb.small
  have hhigh := hx.high
  rcases Nat.lt_or_ge b.mantissa (2 ^ 53 - 1) with h | h
  · have h : (b.mantissa : ℚ) + 2 ≤ 2 ^ 53 := by exact_mod_cast (by omega : b.mantissa + 2 ≤ 2 ^ 53)
    linarith
  · -- the greatest mantissa is odd
    have hM : b.mantissa = 2 ^ 53 - 1 := by omega
    have hodd := (hx.odd (by omega)).2
    have hcast : (b.mantissa : ℚ) + 1 = 2 ^ 53 := by exact_mod_cast (by omega : b.mantissa + 1 = 2 ^ 53)
    linarith

/-- What a float with all its bits covers begins within its exponent. -/
theorem Covers.start_le (hb : b.Canonical) (hleast : -1074 < b.exponent) (hx : b.Covers x) :
    (2 ^ 52 - 1 / 4) * 2 ^ b.exponent ≤ x := by
  rw [← le_div_iff₀ (two_zpow_pos _)]
  have hlow := hx.low
  have hfull := hb.full hleast
  rcases hfull.lt_or_eq with h | h
  · have h : (2 ^ 52 + 1 : ℚ) ≤ b.mantissa := by exact_mod_cast h
    linarith [b.margin_le]
  · have hmargin : b.margin = 1 / 4 := if_pos (hb.narrow.mpr ⟨h.symm, hleast⟩)
    rw [hmargin, ← h] at hlow
    push_cast at hlow
    exact hlow

/-- **What floats cover lies apart.** A number that a lesser float covers is less. -/
theorem Covers.lt_of_value_lt (hb : b.Canonical) (hc : c.Canonical) (hx : b.Covers x)
    (hy : c.Covers y) (h : b.value < c.value) : x < y := by
  rcases lt_trichotomy b.exponent c.exponent with he | he | he
  · have hleast := hb.least
    calc x < (2 ^ 53 - 1 / 2) * 2 ^ b.exponent := hx.lt_end hb
      _ = (2 ^ 52 - 1 / 4) * 2 ^ (1 + b.exponent) := by rw [zpow_one_add₀ two_ne_zero]; ring
      _ ≤ (2 ^ 52 - 1 / 4) * 2 ^ c.exponent :=
          mul_le_mul_of_nonneg_left (zpow_le_zpow_right₀ one_le_two (by omega)) (by norm_num)
      _ ≤ y := hy.start_le hc (by omega)
  · have hp := two_zpow_pos c.exponent
    have hhigh := hx.high
    have hodd := hx.odd
    rw [he] at hhigh hodd
    have hlow := hy.low
    have hmargin := c.margin_le
    have hM : b.mantissa < c.mantissa := by
      rw [Binary.value, Binary.value, he] at h
      exact_mod_cast lt_of_mul_lt_mul_right h hp.le
    rw [← div_lt_div_iff_of_pos_right hp]
    rcases Nat.lt_or_ge (b.mantissa + 1) c.mantissa with hnext | hnext
    · have hnext : (b.mantissa : ℚ) + 2 ≤ c.mantissa := by exact_mod_cast hnext
      linarith
    · -- of two mantissas next to each other one is odd, and does not cover its ends
      have heq : c.mantissa = b.mantissa + 1 := by omega
      have hcast : (c.mantissa : ℚ) = b.mantissa + 1 := by exact_mod_cast heq
      rcases Nat.mod_two_eq_zero_or_one b.mantissa with heven | hone
      · have hodd' := (hy.odd (by omega)).1
        linarith
      · have hodd' := (hodd hone).2
        linarith
  · exact absurd h (hc.value_lt_of_exponent_lt hb he).le.not_gt

theorem half_least : (2 : ℚ) ^ (-1075 : ℤ) = 1 / 2 * 2 ^ (-1074 : ℤ) := by
  rw [show (-1075 : ℤ) = -1 + -1074 by norm_num, zpow_add₀ two_ne_zero]
  norm_num

/-- Nothing that is covered is as small as half the least float. -/
theorem Covers.tiny_lt (hb : b.Canonical) (hx : b.Covers x) : (2 : ℚ) ^ (-1075 : ℤ) < x := by
  have hp : (2 : ℚ) ^ (-1074 : ℤ) ≤ 2 ^ b.exponent := zpow_le_zpow_right₀ one_le_two hb.least
  have hhalf_lt : 1 / 2 < x / 2 ^ b.exponent := by
    have hlow := hx.low
    have hmargin := b.margin_le
    rcases Nat.lt_or_ge 1 b.mantissa with h | h
    · have h : (2 : ℚ) ≤ b.mantissa := by exact_mod_cast h
      linarith
    · have hpos := hb.pos
      have hone : b.mantissa = 1 := by omega
      have hodd := (hx.odd (by omega)).1
      rw [hone, Nat.cast_one] at hodd
      linarith
  rw [lt_div_iff₀ (two_zpow_pos _)] at hhalf_lt
  rw [half_least]
  exact (mul_le_mul_of_nonneg_left hp (by norm_num)).trans_lt hhalf_lt

end Binary

/-- A whole number that is nearest, the even one of two. -/
theorem exists_nearest {y : ℚ} (hy : 0 ≤ y) : ∃ M : ℕ, (M : ℚ) - 1 / 2 ≤ y ∧ y ≤ M + 1 / 2 ∧
    (M % 2 = 1 → (M : ℚ) - 1 / 2 < y ∧ y < M + 1 / 2) := by
  have hle := Nat.floor_le hy
  have hlt := Nat.lt_floor_add_one y
  generalize ⌊y⌋₊ = n at hle hlt
  rcases lt_trichotomy y (n + 1 / 2) with h | h | h
  · exact ⟨n, by linarith, h.le, fun _ => ⟨by linarith, h⟩⟩
  · rcases Nat.mod_two_eq_zero_or_one n with heven | hodd
    · exact ⟨n, by linarith, h.le, fun hone => by omega⟩
    · refine ⟨n + 1, ?_, ?_, fun hone => by omega⟩ <;> push_cast <;> linarith
  · refine ⟨n + 1, ?_, ?_, fun _ => ⟨?_, ?_⟩⟩ <;> push_cast <;> linarith

/-- A number that is not too small has 53 bits before the point at some exponent, or fewer at the
least one. -/
theorem exists_scale {x : ℚ} (hx : (2 : ℚ) ^ (-1075 : ℤ) < x) :
    ∃ t : ℤ, -1074 ≤ t ∧ 1 / 2 < x / 2 ^ t ∧ x / 2 ^ t < 2 ^ 53 ∧
      (-1074 < t → 2 ^ 52 ≤ x / 2 ^ t) := by
  have hpos : 0 < x := (two_zpow_pos _).trans hx
  have hlog : (2 : ℚ) ^ Int.log 2 x ≤ x := Int.zpow_log_le_self one_lt_two hpos
  have hlog' : x < (2 : ℚ) ^ (Int.log 2 x + 1) := Int.lt_zpow_succ_log_self one_lt_two x
  obtain ⟨t, ht⟩ : ∃ t, t = max (Int.log 2 x - 52) (-1074) := ⟨_, rfl⟩
  have hfull : -1074 < t → 2 ^ 52 ≤ x / 2 ^ t := by
    intro hleast
    rw [le_div_iff₀ (two_zpow_pos t), ← two_zpow_natCast_add]
    exact (zpow_le_zpow_right₀ one_le_two (by push_cast; omega)).trans hlog
  refine ⟨t, by omega, ?_, ?_, hfull⟩
  · rcases (by omega : -1074 ≤ t).lt_or_eq with hleast | hleast
    · linarith [hfull hleast]
    · rw [lt_div_iff₀ (two_zpow_pos t), ← hleast, ← Binary.half_least]
      exact hx
  · rw [div_lt_iff₀ (two_zpow_pos t), ← two_zpow_natCast_add]
    exact hlog'.trans_le (zpow_le_zpow_right₀ one_le_two (by push_cast; omega))

/-- A number that is not too small is covered, if any exponent is allowed. -/
theorem exists_covers {x : ℚ} (hx : (2 : ℚ) ^ (-1075 : ℤ) < x) :
    ∃ b : Binary, b.Canonical ∧ b.Covers x := by
  obtain ⟨t, hleast, hhalf, hlt, hfull⟩ := exists_scale hx
  obtain ⟨M, hlow, hhigh, hodd⟩ := exists_nearest (y := x / 2 ^ t) (by linarith)
  have hM : 0 < M := by
    rcases M.eq_zero_or_pos with rfl | h
    · norm_num at hhigh
      linarith
    · exact h
  have hM' : M ≤ 2 ^ 53 := by
    have : (M : ℚ) < (2 ^ 53 : ℕ) + 1 := by push_cast; linarith
    exact Nat.le_of_lt_succ (by exact_mod_cast this)
  rcases hM'.lt_or_eq with hsmall | rfl
  · have hfullM : -1074 < t → 2 ^ 52 ≤ M := by
      intro hleast
      have : ((2 ^ 52 : ℕ) : ℚ) < M + 1 := by push_cast; linarith [hfull hleast]
      exact Nat.le_of_lt_succ (by exact_mod_cast this)
    by_cases hnarrow : M = 2 ^ 52 ∧ -1074 < t
    · obtain ⟨rfl, hnarrow⟩ := hnarrow
      have hmargin : Binary.margin ⟨false, 2 ^ 52, t, true⟩ = 1 / 4 := rfl
      have hbelow := hfull hnarrow
      refine ⟨⟨false, 2 ^ 52, t, true⟩, ⟨hM, hsmall, hleast, hfullM, by simp [hnarrow]⟩, ?_, hhigh,
        fun hone => absurd hone (by norm_num)⟩
      rw [hmargin]
      push_cast
      linarith
    · exact ⟨⟨false, M, t, false⟩, ⟨hM, hsmall, hleast, hfullM, iff_of_false (by simp) hnarrow⟩,
        hlow, hhigh, hodd⟩
  · -- the mantissa has become one bit too long
    have hhalved : x / 2 ^ (t + 1) = x / 2 ^ t / 2 := by
      rw [zpow_add_one₀ two_ne_zero, div_div]
    have hmargin : Binary.margin ⟨false, 2 ^ 52, t + 1, true⟩ = 1 / 4 := rfl
    have hnarrow : -1074 < t + 1 := by omega
    push_cast at hlow
    refine ⟨⟨false, 2 ^ 52, t + 1, true⟩, ⟨by norm_num, by norm_num, hnarrow.le, fun _ => le_rfl,
      by simp [hnarrow]⟩, ?_, ?_, fun hone => absurd hone (by norm_num)⟩
    · rw [hmargin, hhalved]
      push_cast
      linarith
    · rw [hhalved]
      push_cast
      linarith

/-! ## What a rational is rounded to -/

/-- What a rational that is not negative is rounded to: zero, the float that covers it, or infinity
where that float is out of range. -/
inductive Rounds (x : ℚ) : EReal → Prop
  | tiny (hx : x ≤ 2 ^ (-1075 : ℤ)) : Rounds x (ofRat 0)
  | finite {b : Binary} (hb : b.Canonical) (hrange : b.exponent ≤ 971) (hx : b.Covers x) :
    Rounds x (ofRat b.value)
  | huge {b : Binary} (hb : b.Canonical) (hrange : 971 < b.exponent) (hx : b.Covers x) :
    Rounds x ⊤

theorem Rounds.nonneg {x : ℚ} {r : EReal} (h : Rounds x r) : ofRat 0 ≤ r := by
  cases h with
  | tiny hx => exact le_rfl
  | finite hb hrange hx => exact ofRat_le.mpr (Binary.value_pos hb).le
  | huge hb hrange hx => exact le_top

/-- **Rounding keeps the order.** So a number is rounded to one thing only. -/
theorem Rounds.mono {x y : ℚ} {r s : EReal} (h : Rounds x r) (h' : Rounds y s) (hxy : x ≤ y) :
    r ≤ s := by
  cases h with
  | tiny hx => exact h'.nonneg
  | finite hb hrange hx =>
      cases h' with
      | tiny hy => exact absurd (hxy.trans hy) (hx.tiny_lt hb).not_ge
      | finite hc hrange' hy =>
          rw [ofRat_le]
          by_contra hlt
          exact absurd hxy (hy.lt_of_value_lt hc hb hx (not_le.mp hlt)).not_ge
      | huge hc hrange' hy => exact le_top
  | huge hb hrange hx =>
      cases h' with
      | tiny hy => exact absurd (hxy.trans hy) (hx.tiny_lt hb).not_ge
      | finite hc hrange' hy =>
          have hlt := hc.value_lt_of_exponent_lt hb (by omega)
          exact absurd hxy (hy.lt_of_value_lt hc hb hx hlt).not_ge
      | huge hc hrange' hy => exact le_top

theorem Rounds.pos {x : ℚ} {r : EReal} (h : Rounds x r) (hx : (2 : ℚ) ^ (-1075 : ℤ) < x) :
    ofRat 0 < r := by
  cases h with
  | tiny htiny => exact absurd hx htiny.not_gt
  | finite hb hrange hx => exact ofRat_lt.mpr (Binary.value_pos hb)
  | huge hb hrange hx => exact ofRat_lt_top 0

/-- A float is rounded to itself. -/
theorem rounds_value {b : Binary} (hb : b.Canonical) (hrange : b.exponent ≤ 971) :
    Rounds b.value (ofRat b.value) := .finite hb hrange b.covers_value

/-- The least number that is rounded to infinity: half a place above the greatest float. -/
def floatEnd : ℚ := (2 ^ 54 - 1) * 2 ^ 970

theorem floatEnd_eq : floatEnd = (2 ^ 54 - 1) * 2 ^ (970 : ℤ) := rfl

theorem Rounds.eq_top_iff {x : ℚ} {r : EReal} (h : Rounds x r) : r = ⊤ ↔ floatEnd ≤ x := by
  have hend : (2 ^ 53 - 1 / 2 : ℚ) * 2 ^ (971 : ℤ) = floatEnd := by
    rw [floatEnd_eq, show (971 : ℤ) = 1 + 970 by norm_num, zpow_add₀ two_ne_zero]
    ring
  have hstart : (2 ^ 52 - 1 / 4 : ℚ) * 2 ^ (972 : ℤ) = floatEnd := by
    rw [floatEnd_eq, show (972 : ℤ) = 2 + 970 by norm_num, zpow_add₀ two_ne_zero]
    ring
  cases h with
  | tiny hx =>
      refine iff_of_false (ofRat_lt_top _).ne ?_
      have hlarge : (2 : ℚ) ^ (-1075 : ℤ) < floatEnd := by
        rw [floatEnd_eq]
        exact (zpow_lt_zpow_right₀ one_lt_two (by norm_num)).trans
          (lt_mul_of_one_lt_left (two_zpow_pos 970) (by norm_num))
      exact (hx.trans_lt hlarge).not_ge
  | finite hb hrange hx =>
      refine iff_of_false (ofRat_lt_top _).ne (not_le.mpr ?_)
      rw [← hend]
      exact (hx.lt_end hb).trans_le
        (mul_le_mul_of_nonneg_left (zpow_le_zpow_right₀ one_le_two hrange) (by norm_num))
  | huge hb hrange hx =>
      refine iff_of_true rfl ?_
      rw [← hstart]
      exact (mul_le_mul_of_nonneg_left (zpow_le_zpow_right₀ one_le_two (by omega))
        (by norm_num)).trans (hx.start_le hb (by omega))

/-! ## Less than the whole -/

/-- The floats below one stop short of it by half a place. -/
theorem Binary.Canonical.le_of_value_lt_one {b : Binary} (hb : b.Canonical) (h : b.value < 1) :
    b.value ≤ 1 - 2 ^ (-53 : ℤ) := by
  have hexponent : b.exponent ≤ -53 := by
    by_contra hlarge
    have hfull : (2 ^ 52 : ℚ) ≤ b.mantissa := by exact_mod_cast hb.full (by omega)
    have hone : (1 : ℚ) = 2 ^ 52 * 2 ^ (-52 : ℤ) := by norm_num
    have hle : (1 : ℚ) ≤ b.value := by
      rw [hone]
      exact mul_le_mul hfull (zpow_le_zpow_right₀ one_le_two (by omega)) (two_zpow_pos _).le
        (by positivity)
    exact absurd h hle.not_gt
  have hsmall : (b.mantissa : ℚ) ≤ 2 ^ 53 - 1 := by
    have : (b.mantissa : ℚ) + 1 ≤ 2 ^ 53 := by exact_mod_cast hb.small
    linarith
  calc b.value ≤ (2 ^ 53 - 1) * 2 ^ b.exponent :=
        mul_le_mul_of_nonneg_right hsmall (two_zpow_pos _).le
    _ ≤ (2 ^ 53 - 1) * 2 ^ (-53 : ℤ) :=
        mul_le_mul_of_nonneg_left (zpow_le_zpow_right₀ one_le_two hexponent) (by norm_num)
    _ = 1 - 2 ^ (-53 : ℤ) := by norm_num

/-- A float does not cover a part of itself that a float below one measures. -/
theorem Binary.Canonical.not_covers_part {b : Binary} (hb : b.Canonical)
    (hleast : -1074 < b.exponent) {t : ℚ} (ht : t ≤ 1 - 2 ^ (-53 : ℤ)) :
    ¬ b.Covers (t * b.value) := by
  intro hcovers
  have hM : (0 : ℚ) < b.mantissa := by exact_mod_cast hb.pos
  have hfull := hb.full hleast
  have hlow := hcovers.low
  have hscaled : t * b.value / 2 ^ b.exponent = t * b.mantissa := by
    rw [Binary.value, ← mul_assoc, mul_div_cancel_right₀ _ (two_zpow_pos _).ne']
  have hpart : t * b.mantissa ≤ b.mantissa - b.mantissa / 2 ^ 53 := by
    calc t * b.mantissa ≤ (1 - 2 ^ (-53 : ℤ)) * b.mantissa := mul_le_mul_of_nonneg_right ht hM.le
      _ = b.mantissa - b.mantissa / 2 ^ 53 := by norm_num; ring
  rw [hscaled] at hlow
  have hmargin : (b.mantissa : ℚ) / 2 ^ 53 ≤ b.margin := by linarith
  rw [div_le_iff₀ (by norm_num)] at hmargin
  rcases hfull.lt_or_eq with h | h
  · have h : (2 ^ 52 + 1 : ℚ) ≤ b.mantissa := by exact_mod_cast h
    linarith [b.margin_le]
  · have hquarter : b.margin = 1 / 4 := if_pos (hb.narrow.mpr ⟨h.symm, hleast⟩)
    rw [hquarter, ← h] at hmargin
    norm_num at hmargin

/-- A part of a rounded number is no more than the number itself, although that may have been
rounded up: what is lost with the part is more than what rounding has added. -/
theorem Rounds.part_le {x v t : ℚ} {r : EReal} (hone : 1 ≤ x) (hv : Rounds x (ofRat v))
    (ht : t ≤ 1 - 2 ^ (-53 : ℤ)) (h : Rounds (t * v) r) : r ≤ ofRat x := by
  have htiny : (2 : ℚ) ^ (-1075 : ℤ) < 1 := zpow_lt_one_of_neg₀ one_lt_two (by norm_num)
  generalize hs : ofRat v = s at hv
  cases hv with
  | tiny hx => exact absurd hx (htiny.trans_le hone).not_ge
  | huge hb hrange hx => exact absurd hs (ofRat_lt_top v).ne
  | @finite b hb hrange hx =>
      obtain rfl := ofRat_inj hs
      have hle : r ≤ ofRat b.value := by
        refine h.mono (rounds_value hb hrange) (mul_le_of_le_one_left (Binary.value_pos hb).le ?_)
        exact ht.trans (sub_le_self _ (two_zpow_pos _).le)
      cases h with
      | tiny _ => exact ofRat_le.mpr (by linarith)
      | huge hc hrange' hx' => exact absurd hle (ofRat_lt_top _).not_ge
      | @finite c hc hrange' hx' =>
          by_contra hgt
          have hlt : x < c.value := ofRat_lt.mp (not_le.mp hgt)
          -- both are what the number is rounded to
          have hge : b.value ≤ c.value := ofRat_le.mp
            ((Rounds.finite hb hrange hx).mono (rounds_value hc hrange') hlt.le)
          have hsame : b.value = c.value := le_antisymm hge (ofRat_le.mp hle)
          have hleast : -1074 < c.exponent := by
            by_contra hsmall
            have hend := (Binary.covers_value c).lt_end hc
            have hend' : (2 ^ 53 - 1 / 2 : ℚ) * 2 ^ c.exponent ≤ 2 ^ 53 * 2 ^ (-53 : ℤ) :=
              mul_le_mul (by norm_num) (zpow_le_zpow_right₀ one_le_two (by omega))
                (two_zpow_pos _).le (by norm_num)
            norm_num at hend'
            linarith
          rw [hsame] at hx'
          exact hc.not_covers_part hleast ht hx'

/-! ## What is computed -/

/-- What is left of no mantissa by shifts is none. -/
theorem mantissa_shiftRight_zero (n : ℕ) :
    (ExtendedMantissa.ofMantissaAndAccuracy 0 .exact >>> n).mantissa = 0 := by
  have hd := ((describes_exact 0).shiftRight n).mantissa_le.1
  rw [Nat.cast_zero, zero_div] at hd
  exact Nat.le_zero.mp (by exact_mod_cast hd)

/-- What is not greater than half the least float becomes zero. -/
theorem roundWithAccuracy_tiny {x : ℚ} (hx : x ≤ 2 ^ (-1075 : ℤ)) {m : ℕ} {e : ℤ} {acc : Accuracy}
    (h : Describes (ExtendedMantissa.ofMantissaAndAccuracy m acc) (x / 2 ^ e))
    (he : e ≤ Format.binary64.targetExponent (totalExponent m e)) (s : Sign) :
    roundWithAccuracy Format.binary64 s m e acc = .zero s := by
  have hm := h.mantissa_le.1
  rw [mantissa_ofMantissaAndAccuracy, le_div_iff₀ (two_zpow_pos e)] at hm
  have htarget : Format.binary64.targetExponent (totalExponent m e) = -1074 := by
    rw [targetExponent_eq] at he ⊢
    rcases m.eq_zero_or_pos with rfl | hpos
    · have : totalExponent 0 e = 1 + e := by simp [totalExponent]
      omega
    · have htotal := (two_zpow_totalExponent_le hpos e).trans (hm.trans hx)
      have := (zpow_le_zpow_iff_right₀ one_lt_two).mp htotal
      omega
  obtain ⟨em, hem, hd⟩ := h.shiftToExponent he
  rw [htarget] at hem hd
  have hx' : x / 2 ^ (-1074 : ℤ) ≤ 1 / 2 := by
    rw [div_le_iff₀ (two_zpow_pos _), ← Binary.half_least]
    exact hx
  have hrounded : em.roundedMantissa = 0 := by
    have hnonneg := hd.mantissa_le.1
    have : (0 : ℚ) ≤ em.mantissa := by positivity
    refine hd.roundedMantissa ?_ ?_ fun hodd => absurd hodd (by norm_num)
    · rw [Nat.cast_zero]
      linarith
    · rw [Nat.cast_zero]
      linarith
  have hshift : shiftToTargetExponent Format.binary64 m e acc = (em, -1074) := by
    rw [shiftToTargetExponent, htarget, hem]
  simp only [roundWithAccuracy, hshift, hrounded]
  exact dif_pos (mantissa_shiftRight_zero _)

/-- A float out of range is infinite. -/
theorem pack_huge {m : ℕ} {e : ℤ} {hm : 0 < m} (he : 971 < e) :
    Float.Model.pack (.finite .positive m e hm) = Float.Model.pack (.infinity .positive) := by
  have hbias : e + (Format.binary64.exponentBias : ℤ) + (52 : ℕ) = e + 1075 := by
    rw [show (Format.binary64.exponentBias : ℤ) = 1023 from rfl]
    ring
  have hpack : UnpackedFloat.pack Format.binary64 (.finite .positive m e hm) =
      UnpackedFloat.pack Format.binary64 (.infinity .positive) := by
    simp only [UnpackedFloat.pack, hbias]
    rw [if_pos (by norm_num; omega)]
  simp only [Float.Model.pack, hpack]

theorem worth_packed_zero (s : Sign) :
    worth? (Float.Model.pack (.zero s)).unpack = some (ofRat 0) := by
  cases s <;> rfl

theorem worth_packed_infinity :
    worth? (Float.Model.pack (.infinity .positive)).unpack = some ⊤ := by
  have hunpack : (Float.Model.pack (.infinity .positive)).unpack = .infinity .positive := rfl
  rw [hunpack]
  rfl

theorem worth_packed_notANumber : worth? (Float.Model.pack .notANumber).unpack = none := by
  have hunpack : (Float.Model.pack .notANumber).unpack = .notANumber := rfl
  rw [hunpack]
  rfl

/-- **What is computed is rounded.** -/
theorem worth_roundWithAccuracy {x : ℚ} {m : ℕ} {e : ℤ} {acc : Accuracy}
    (h : Describes (ExtendedMantissa.ofMantissaAndAccuracy m acc) (x / 2 ^ e))
    (he : e ≤ Format.binary64.targetExponent (totalExponent m e)) :
    ∃ r, Rounds x r ∧
      worth? (Float.Model.pack (roundWithAccuracy Format.binary64 .positive m e acc)).unpack =
        some r := by
  rcases le_or_gt x (2 ^ (-1075 : ℤ)) with hx | hx
  · refine ⟨_, .tiny hx, ?_⟩
    rw [roundWithAccuracy_tiny hx h he]
    exact worth_packed_zero _
  · obtain ⟨b, hb, hcovers⟩ := exists_covers hx
    rw [roundWithAccuracy_eq hb hcovers h he]
    rcases le_or_gt b.exponent 971 with hrange | hrange
    · refine ⟨_, .finite hb hrange hcovers, ?_⟩
      rw [hb.unpack_pack hrange]
      rfl
    · refine ⟨_, .huge hb hrange hcovers, ?_⟩
      rw [pack_huge hrange]
      exact worth_packed_infinity

/-! ## Products of floats -/

/-- A float that stands for a number that is not negative is a zero, positive or infinite. -/
theorem worth_nonneg {u : UnpackedFloat} {r : EReal} (h : worth? u = some r) (hr : ofRat 0 ≤ r) :
    (r = ofRat 0 ∧ ∃ s, u = .zero s) ∨
      (∃ (m : ℕ) (e : ℤ) (hm : 0 < m), r = ofRat (m * 2 ^ e) ∧ u = .finite .positive m e hm) ∨
      r = ⊤ ∧ u = .infinity .positive := by
  cases u with
  | notANumber => exact absurd h (by simp [worth?])
  | infinity s =>
      cases s with
      | positive => exact .inr (.inr ⟨(Option.some.inj h).symm, rfl⟩)
      | negative =>
          obtain rfl := Option.some.inj h
          exact absurd hr (bot_lt_ofRat 0).not_ge
  | zero s => exact .inl ⟨(Option.some.inj h).symm, s, rfl⟩
  | finite s m e hm =>
      cases s with
      | positive => exact .inr (.inl ⟨m, e, hm, (Option.some.inj h).symm, rfl⟩)
      | negative =>
          obtain rfl := Option.some.inj h
          have hneg := neg_lt_zero.mpr (magnitude_pos hm e)
          exact absurd (ofRat_le.mp hr) hneg.not_ge

theorem worth_rat {u : UnpackedFloat} {r : EReal} (h : worth? u = some r) (hr : ofRat 0 ≤ r) :
    r = ⊤ ∨ ∃ q : ℚ, r = ofRat q ∧ 0 ≤ q := by
  rcases worth_nonneg h hr with ⟨rfl, -⟩ | ⟨m, e, hm, rfl, -⟩ | ⟨rfl, -⟩
  · exact .inr ⟨0, rfl, le_rfl⟩
  · exact .inr ⟨_, rfl, (magnitude_pos hm e).le⟩
  · exact .inl rfl

/-- The exponent of a product of canonical floats is not above the one that it is shifted to. -/
theorem IsFormed.mul_exponent_le {s s' : Sign} {m m' : ℕ} {e e' : ℤ} {hm : 0 < m} {hm' : 0 < m'}
    (h : IsFormed (.finite s m e hm)) (h' : IsFormed (.finite s' m' e' hm')) :
    e + e' ≤ Format.binary64.targetExponent (totalExponent (m * m') (e + e')) := by
  obtain ⟨b, hb, rfl, rfl⟩ := h
  obtain ⟨c, hc, rfl, rfl⟩ := h'
  rw [targetExponent_eq, totalExponent]
  by_cases hleast : b.exponent = -1074 ∧ c.exponent = -1074
  · omega
  · -- one of the two mantissas has all its bits
    have hfull : 2 ^ 52 ≤ b.mantissa * c.mantissa := by
      have hb' := hb.least
      have hc' := hc.least
      rcases (by omega : -1074 < b.exponent ∨ -1074 < c.exponent) with h | h
      · exact (hb.full h).trans (Nat.le_mul_of_pos_right _ hc.pos)
      · exact (hc.full h).trans (Nat.le_mul_of_pos_left _ hb.pos)
    have : 52 ≤ (b.mantissa * c.mantissa).log2 :=
      (Nat.le_log2 (Nat.mul_pos hb.pos hc.pos).ne').mpr hfull
    omega

theorem rounds_zero : Rounds 0 (ofRat 0) := .tiny (two_zpow_pos _).le

theorem rounds_worth {x : Float} {q : ℚ} (h : worth? x.toModel.unpack = some (ofRat q))
    (hq : 0 ≤ q) : Rounds q (ofRat q) := by
  rcases worth_nonneg h (ofRat_le.mpr hq) with ⟨hzero, -⟩ | ⟨m, e, hm, hvalue, hu⟩ | ⟨htop, -⟩
  · obtain rfl := ofRat_inj hzero
    exact rounds_zero
  · obtain rfl := ofRat_inj hvalue
    obtain ⟨b, hb, rfl, rfl⟩ := hu ▸ isFormed_unpack x
    refine rounds_value hb ?_
    rcases unpack_eq x with h' | h' | ⟨-, h'⟩ | ⟨hpos, hrange, h'⟩
    · exact absurd (hu.symm.trans h') (by simp)
    · exact absurd (hu.symm.trans h') (by simp)
    · exact absurd (hu.symm.trans h') (by simp)
    · obtain ⟨-, -, hexponent⟩ := UnpackedFloat.finite.inj (hu.symm.trans h')
      rw [hexponent]
      exact hrange
  · exact absurd htop (ofRat_lt_top q).ne

theorem unpack_mul (x y : Float) : (x * y).toModel.unpack = (Float.Model.pack
    (UnpackedFloat.mul Format.binary64 x.toModel.unpack y.toModel.unpack)).unpack := rfl

/-- A product of finite floats that are not negative is rounded. -/
theorem worth_mul {x y : Float} {p q : ℚ} (hx : worth? x.toModel.unpack = some (ofRat p))
    (hy : worth? y.toModel.unpack = some (ofRat q)) (hp : 0 ≤ p) (hq : 0 ≤ q) :
    ∃ r, Rounds (p * q) r ∧ worth? (x * y).toModel.unpack = some r := by
  have hfx := isFormed_unpack x
  have hfy := isFormed_unpack y
  rw [unpack_mul]
  rcases worth_nonneg hx (ofRat_le.mpr hp) with ⟨hp0, s, hu⟩ | ⟨m, e, hm, hpv, hu⟩ | ⟨htop, -⟩
  · obtain rfl := ofRat_inj hp0
    rw [zero_mul, hu]
    refine ⟨_, rounds_zero, ?_⟩
    rcases worth_nonneg hy (ofRat_le.mpr hq) with ⟨-, s', hv⟩ | ⟨m', e', hm', -, hv⟩ | ⟨htop, -⟩
    · rw [hv]
      exact worth_packed_zero _
    · rw [hv]
      exact worth_packed_zero _
    · exact absurd htop (ofRat_lt_top q).ne
  · obtain rfl := ofRat_inj hpv
    rcases worth_nonneg hy (ofRat_le.mpr hq) with ⟨hq0, s', hv⟩ | ⟨m', e', hm', hqv, hv⟩ | ⟨htop, -⟩
    · obtain rfl := ofRat_inj hq0
      rw [mul_zero, hu, hv]
      exact ⟨_, rounds_zero, worth_packed_zero _⟩
    · obtain rfl := ofRat_inj hqv
      rw [hu] at hfx ⊢
      rw [hv] at hfy ⊢
      refine worth_roundWithAccuracy ?_ (hfx.mul_exponent_le hfy)
      rw [show (m * 2 ^ e * (m' * 2 ^ e') : ℚ) / 2 ^ (e + e') = (m * m' : ℕ) by
        rw [zpow_add₀ two_ne_zero]; push_cast; field_simp]
      exact describes_exact (m * m')
    · exact absurd htop (ofRat_lt_top q).ne
  · exact absurd htop (ofRat_lt_top p).ne

/-- An infinite float times a positive one is infinite. -/
theorem worth_top_mul {x y : Float} {s : EReal} (hx : worth? x.toModel.unpack = some ⊤)
    (hy : worth? y.toModel.unpack = some s) (hs : ofRat 0 < s) :
    worth? (x * y).toModel.unpack = some ⊤ ∧ worth? (y * x).toModel.unpack = some ⊤ := by
  rcases worth_nonneg hx le_top with ⟨hzero, -⟩ | ⟨m, e, hm, hfinite, -⟩ | ⟨-, hu⟩
  · exact absurd hzero (ofRat_lt_top 0).ne'
  · exact absurd hfinite (ofRat_lt_top _).ne'
  rw [unpack_mul x y, unpack_mul y x, hu]
  rcases worth_nonneg hy hs.le with ⟨rfl, -⟩ | ⟨m, e, hm, -, hv⟩ | ⟨-, hv⟩
  · exact absurd hs (lt_irrefl _)
  · rw [hv]
    exact ⟨worth_packed_infinity, worth_packed_infinity⟩
  · rw [hv]
    exact ⟨worth_packed_infinity, worth_packed_infinity⟩

/-- Zero times an infinite float is not a number. -/
theorem worth_zero_mul_top {x y : Float} (hx : worth? x.toModel.unpack = some (ofRat 0))
    (hy : worth? y.toModel.unpack = some ⊤) : worth? (x * y).toModel.unpack = none := by
  rw [unpack_mul]
  rcases worth_nonneg hx le_rfl with ⟨-, s, hu⟩ | ⟨m, e, hm, hvalue, -⟩ | ⟨htop, -⟩
  · rcases worth_nonneg hy le_top with ⟨hzero, -⟩ | ⟨m, e, hm, hfinite, -⟩ | ⟨-, hv⟩
    · exact absurd hzero (ofRat_lt_top 0).ne'
    · exact absurd hfinite (ofRat_lt_top _).ne'
    · rw [hu, hv]
      exact worth_packed_notANumber
  · exact absurd (ofRat_inj hvalue) (magnitude_pos hm e).ne
  · exact absurd htop (ofRat_lt_top 0).ne

/-- What is not a number stays so in a product. -/
theorem worth_mul_none {x y : Float}
    (h : worth? x.toModel.unpack = none ∨ worth? y.toModel.unpack = none) :
    worth? (x * y).toModel.unpack = none := by
  have hnan {u : UnpackedFloat} (hu : worth? u = none) : u = .notANumber := by
    cases u with
    | notANumber => rfl
    | infinity s => cases s <;> exact absurd hu (by simp [worth?])
    | zero s => exact absurd hu (by simp [worth?])
    | finite s m e hm => cases s <;> exact absurd hu (by simp [worth?])
  rw [unpack_mul]
  rcases h with h | h
  · rw [hnan h]
    exact worth_packed_notANumber
  · rw [hnan h]
    cases x.toModel.unpack <;> exact worth_packed_notANumber

/-! ## Decimals -/

theorem floatEnd_le : floatEnd ≤ 2 ^ (1024 : ℤ) := by
  rw [floatEnd_eq, show (2 : ℚ) ^ (1024 : ℤ) = 2 ^ (54 : ℤ) * 2 ^ (970 : ℤ) by
    rw [← zpow_add₀ two_ne_zero]
    norm_num]
  exact mul_le_mul_of_nonneg_right (by norm_num) (two_zpow_pos _).le

/-- What is too large for a float becomes infinite. -/
theorem rounds_top {x : ℚ} (h : floatEnd ≤ x) : Rounds x ⊤ := by
  have hlarge : (2 : ℚ) ^ (-1075 : ℤ) < x := by
    refine lt_of_lt_of_le ?_ h
    rw [floatEnd_eq]
    calc (2 : ℚ) ^ (-1075 : ℤ) < 1 := zpow_lt_one_of_neg₀ one_lt_two (by norm_num)
      _ ≤ 2 ^ 54 - 1 := by norm_num
      _ ≤ (2 ^ 54 - 1) * 2 ^ (970 : ℤ) :=
          le_mul_of_one_le_right (by norm_num) (one_le_zpow₀ one_le_two (by norm_num))
  obtain ⟨b, hb, hx⟩ := exists_covers hlarge
  rcases le_or_gt b.exponent 971 with hrange | hrange
  · have htop := (Rounds.finite hb hrange hx).eq_top_iff.mpr h
    exact absurd htop (ofRat_lt_top _).ne
  · exact .huge hb hrange hx

section Decimal

variable {m k : ℕ} {e : ℤ} (hm : 0 < m)
include hm

/-- A decimal is rounded by the product with a power of ten, or by the quotient. -/
theorem worth_unpacked_ofScientific (hlow : -(2048 + m.log2 : ℤ) ≤ e) (hhigh : e ≤ 2048) :
    ∃ r, Rounds (m * 10 ^ e) r ∧ worth? (Float.Model.pack
      (UnpackedFloat.ofScientific Format.binary64 m e)).unpack = some r := by
  have hone : (1 : ℚ) ≤ m := by exact_mod_cast hm
  rcases le_or_gt ((m : ℚ) * 10 ^ e) (2 ^ (-1075 : ℤ)) with hx | hx
  · -- so small a decimal is a quotient
    have hneg : e < 0 := by
      by_contra hnonneg
      have hten : (1 : ℚ) ≤ 10 ^ e := one_le_zpow₀ (by norm_num) (by omega)
      have hsmall : (2 : ℚ) ^ (-1075 : ℤ) < 1 := zpow_lt_one_of_neg₀ one_lt_two (by norm_num)
      exact absurd (one_le_mul_of_one_le_of_one_le hone hten) (not_le.mpr (hx.trans_lt hsmall))
    refine ⟨_, .tiny hx, ?_⟩
    unfold UnpackedFloat.ofScientific
    rw [dif_neg hm.ne', if_neg (by norm_num; omega), if_neg (by norm_num; omega),
      if_neg (by omega)]
    have hvalue : (m * 2 ^ (0 : ℤ) / ((10 ^ (-e).toNat : ℕ) * 2 ^ (0 : ℤ)) : ℚ) = m * 10 ^ e := by
      obtain ⟨k, rfl⟩ : ∃ k : ℕ, e = -k := ⟨(-e).toNat, by omega⟩
      rw [zpow_zero, mul_one, mul_one, neg_neg, Int.toNat_natCast, zpow_neg, zpow_natCast,
        div_eq_mul_inv]
      push_cast
      rfl
    obtain ⟨n, e', acc, hdiv, hdescribes, he⟩ :=
      div_described m 0 0 hm (Nat.pow_pos (show 0 < 10 by norm_num))
    rw [hvalue] at hdescribes
    rw [hdiv, roundWithAccuracy_tiny hx hdescribes he]
    exact worth_packed_zero _
  · obtain ⟨b, hb, hcovers⟩ := exists_covers hx
    rw [unpacked_ofScientific_eq hb hm hcovers hlow hhigh]
    rcases le_or_gt b.exponent 971 with hrange | hrange
    · refine ⟨_, .finite hb hrange hcovers, ?_⟩
      rw [hb.unpack_pack hrange]
      rfl
    · refine ⟨_, .huge hb hrange hcovers, ?_⟩
      rw [pack_huge hrange]
      exact worth_packed_infinity

/-- A short mantissa and a short power of ten make a float in range. -/
theorem short_bounds (hlt : m < 2 ^ 53) (hk : k ≤ 22) (he : e = -k ∨ e = k) :
    (2 : ℚ) ^ (-1075 : ℤ) < m * 10 ^ e ∧ (m : ℚ) * 10 ^ e < floatEnd := by
  have hone : (1 : ℚ) ≤ m := by exact_mod_cast hm
  have hlt : (m : ℚ) < 2 ^ 53 := by exact_mod_cast hlt
  have hp : (0 : ℚ) < 10 ^ e := zpow_pos (by norm_num) e
  have hlow : (10 : ℚ) ^ (-22 : ℤ) ≤ 10 ^ e := zpow_le_zpow_right₀ (by norm_num) (by omega)
  have hhigh : (10 : ℚ) ^ e ≤ 10 ^ (22 : ℤ) := zpow_le_zpow_right₀ (by norm_num) (by omega)
  constructor
  · calc (2 : ℚ) ^ (-1075 : ℤ) ≤ 2 ^ (-100 : ℤ) := zpow_le_zpow_right₀ one_le_two (by norm_num)
      _ < 10 ^ (-22 : ℤ) := by norm_num
      _ ≤ 1 * 10 ^ e := by rwa [one_mul]
      _ ≤ m * 10 ^ e := mul_le_mul_of_nonneg_right hone hp.le
  · calc (m : ℚ) * 10 ^ e < 2 ^ 53 * 10 ^ e := mul_lt_mul_of_pos_right hlt hp
      _ ≤ 2 ^ 53 * 10 ^ (22 : ℤ) := mul_le_mul_of_nonneg_left hhigh (by norm_num)
      _ ≤ (2 ^ 54 - 1) * 2 ^ (100 : ℤ) := by norm_num
      _ ≤ (2 ^ 54 - 1) * 2 ^ (970 : ℤ) :=
          mul_le_mul_of_nonneg_left (zpow_le_zpow_right₀ one_le_two (by norm_num)) (by norm_num)
      _ = floatEnd := floatEnd_eq.symm

/-- **The float that a decimal reads as is its rounding.** -/
theorem worth_ofScientific {small : Bool} (he : e = if small then -(k : ℤ) else k)
    (hlow : -(2048 + m.log2 : ℤ) ≤ e) (hhigh : e ≤ 2048) :
    ∃ r, Rounds (m * 10 ^ e) r ∧ worth? (Float.ofScientific m small k).toModel.unpack = some r := by
  by_cases hshort : m < 2 ^ 53 ∧ k ≤ 22
  · obtain ⟨hlarge, hend⟩ := short_bounds hm hshort.1 hshort.2 (e := e) (by cases small <;> simp_all)
    obtain ⟨b, hb, hcovers⟩ := exists_covers hlarge
    have hrange : b.exponent ≤ 971 := by
      by_contra hhuge
      have htop := (Rounds.huge hb (not_le.mp hhuge) hcovers).eq_top_iff.mp rfl
      exact absurd hend htop.not_gt
    refine ⟨_, .finite hb hrange hcovers, ?_⟩
    rw [ofScientific_eq hb hrange he hm hcovers hlow hhigh]
    rfl
  · have hmodel : Float.ofScientific m small k = .ofModel (Float.Model.ofScientific m e) := by
      unfold Float.ofScientific
      rw [dif_neg hshort, he]
      cases small
      · rfl
      · simp only [if_true, Int.negOfNat_eq, Int.ofNat_eq_natCast]
    rw [hmodel]
    exact worth_unpacked_ofScientific hm hlow hhigh

end Decimal

theorem worth_infinity : worth? (1.0 / 0.0 : Float).toModel.unpack = some ⊤ := by
  have hinf : (1.0 / 0.0 : Float).toModel.unpack = .infinity .positive := by rfl
  rw [hinf]
  rfl

theorem worth_zeroFloat : worth? (0.0 : Float).toModel.unpack = some (ofRat 0) :=
  Number.worth?_zeroFloat

/-- **The float that an unsigned numeral reads as is its rounding.** -/
theorem Numeral.worth_toFloat {n : Numeral} (hn : n.negative = false) :
    ∃ r, Rounds n.value r ∧ worth? n.toFloat.toModel.unpack = some r := by
  unfold Numeral.toFloat
  simp only [hn, Bool.false_eq_true, if_false]
  split_ifs with hsmall hlarge
  · refine ⟨_, .tiny ?_, worth_zeroFloat⟩
    rcases hsmall with hzero | hsmall
    · rw [Numeral.value, hzero, Nat.cast_zero, zero_mul]
      exact (two_zpow_pos _).le
    · by_contra hlt
      exact absurd (Numeral.le_size (not_le.mp hlt).le) (not_le.mpr hsmall)
  · refine ⟨_, rounds_top (floatEnd_le.trans ?_), worth_infinity⟩
    by_contra hlt
    have hpos : 0 < n.coefficient := Nat.pos_of_ne_zero fun h => hsmall (.inl h)
    exact absurd (Numeral.size_le hpos (not_le.mp hlt)) (not_le.mpr hlarge)
  · have hpos : 0 < n.coefficient := Nat.pos_of_ne_zero fun h => hsmall (.inl h)
    obtain ⟨hlow, hhigh⟩ := Numeral.exponent_bounds hpos
      (not_lt.mp fun h => hsmall (.inr h)) (not_lt.mp hlarge)
    refine worth_ofScientific hpos ?_ hlow hhigh
    by_cases h : n.exponent < 0
    · rw [if_pos (decide_eq_true h)]; omega
    · rw [if_neg (by simpa using h)]; omega

/-! ## Whole numbers as floats -/

/-- A whole number that becomes a float is rounded. -/
theorem worth_ofNat (m : ℕ) :
    ∃ r, Rounds m r ∧ worth? (Float.ofScientific m false 0).toModel.unpack = some r := by
  rcases m.eq_zero_or_pos with rfl | hm
  · refine ⟨_, rounds_zero, ?_⟩
    have hzero : (Float.ofScientific 0 false 0).toModel.unpack = .zero .positive := rfl
    rw [hzero]
    rfl
  · have hwhole : (0 : ℤ) = if false then -((0 : ℕ) : ℤ) else (0 : ℕ) := rfl
    obtain ⟨r, hr, hworth⟩ := worth_ofScientific hm hwhole (by omega) (by omega)
    rw [zpow_zero, mul_one] at hr
    exact ⟨r, hr, hworth⟩

/-- A float and its negation are infinite together. -/
theorem isInf_neg (x : Float) : (-x).isInf = x.isInf := by
  show (Float.Model.pack x.toModel.unpack.neg).unpack.isInf = x.toModel.unpack.isInf
  rcases unpack_eq x with h | h | ⟨-, h⟩ | ⟨hpos, hrange, h⟩
  · rw [h]
    rfl
  · rw [h]
    cases (Binary.ofFloat x).sign <;> rfl
  · rw [h]
    cases (Binary.ofFloat x).sign <;> rfl
  · have hb := Binary.canonical_ofFloat hpos.ne'
    rw [h, UnpackedFloat.neg, hb.unpack_pack hrange]
    rfl

theorem isInf_iff {x : Float} {r : EReal} (h : worth? x.toModel.unpack = some r)
    (hr : ofRat 0 ≤ r) : x.isInf = true ↔ r = ⊤ := by
  show x.toModel.unpack.isInf = true ↔ _
  rcases worth_nonneg h hr with ⟨rfl, s, hu⟩ | ⟨m, e, hm, rfl, hu⟩ | ⟨rfl, hu⟩
  · rw [hu]
    exact iff_of_false (by simp [UnpackedFloat.isInf]) (ofRat_lt_top _).ne
  · rw [hu]
    exact iff_of_false (by simp [UnpackedFloat.isInf]) (ofRat_lt_top _).ne
  · rw [hu]
    exact iff_of_true rfl rfl

end ChatClient.Decimal

namespace ChatClient.Number

open Decimal

/-- A whole number is too large for a float: the nearest one is out of range. -/
def TooLarge (n : ℤ) : Prop := (2 ^ 54 - 1) * 2 ^ 970 ≤ n.natAbs

theorem tooLarge_iff {n : ℤ} : TooLarge n ↔ floatEnd ≤ (n.natAbs : ℚ) := by
  have hcast : floatEnd = (((2 ^ 54 - 1) * 2 ^ 970 : ℕ) : ℚ) := by
    rw [floatEnd, Nat.cast_mul, Nat.cast_pow]
    norm_num
  rw [TooLarge, hcast, Nat.cast_le]

theorem worth_toFloat {n : ℤ} (hn : 0 ≤ n) :
    ∃ r, Rounds n r ∧ (float (int n).toFloat).worth? = some r := by
  obtain ⟨r, hr, hworth⟩ := worth_ofNat n.natAbs
  have hcast : ((n.natAbs : ℕ) : ℚ) = n := by
    rw [← Int.cast_natCast, Int.natAbs_of_nonneg hn]
  rw [hcast] at hr
  refine ⟨r, hr, ?_⟩
  rw [toFloat, if_neg hn.not_gt]
  exact hworth

/-- A whole number becomes infinite just if it is too large. -/
theorem isInf_toFloat (n : ℤ) : (int n).toFloat.isInf = true ↔ TooLarge n := by
  obtain ⟨r, hr, hworth⟩ := worth_ofNat n.natAbs
  have hinf : (Float.ofScientific n.natAbs false 0).isInf = true ↔ TooLarge n := by
    rw [isInf_iff hworth hr.nonneg, hr.eq_top_iff, tooLarge_iff]
  rw [toFloat]
  split
  · rw [isInf_neg, hinf]
  · exact hinf

end ChatClient.Number
