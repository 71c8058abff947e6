import ChatClient.Decimal.Shortest
import ChatClient.Proofs.Floats

/-!
# The shortest decimal reads back

The digits that are written for a float are a multiple of a power of ten among the numbers that
round to the float. The search begins at powers of ten that no multiple of lies there and goes
down; it has to succeed, since powers of ten below the distance of the float to its neighbours
have a multiple there.
-/

namespace ChatClient.Decimal

/-- The multiple `n` of `10 ^ e` lies among the reals that round to a target. -/
structure Target.Holds (t : Target) (e : ℤ) (n : ℕ) : Prop where
  low : t.low * 10 ^ (-e).toNat ≤ n * (t.den * 10 ^ e.toNat)
  high : n * (t.den * 10 ^ e.toNat) ≤ t.high * 10 ^ (-e).toNat
  opened : t.closed = false →
    t.low * 10 ^ (-e).toNat < n * (t.den * 10 ^ e.toNat) ∧
      n * (t.den * 10 ^ e.toNat) < t.high * 10 ^ (-e).toNat

/-- The test by which the search decides that. -/
def Target.fits (t : Target) (e : ℤ) (n : ℕ) : Bool :=
  if t.closed then
    t.low * 10 ^ (-e).toNat ≤ n * (t.den * 10 ^ e.toNat) &&
      n * (t.den * 10 ^ e.toNat) ≤ t.high * 10 ^ (-e).toNat
  else
    t.low * 10 ^ (-e).toNat < n * (t.den * 10 ^ e.toNat) &&
      n * (t.den * 10 ^ e.toNat) < t.high * 10 ^ (-e).toNat

theorem Target.fits_iff {t : Target} {e : ℤ} {n : ℕ} : t.fits e n = true ↔ t.Holds e n := by
  unfold Target.fits
  cases hc : t.closed
  · simp only [Bool.false_eq_true, if_false, Bool.and_eq_true, decide_eq_true_eq]
    exact ⟨fun h => ⟨h.1.le, h.2.le, fun _ => h⟩, fun h => h.opened hc⟩
  · simp only [if_true, Bool.and_eq_true, decide_eq_true_eq]
    exact ⟨fun h => ⟨h.1, h.2, fun h' => absurd (hc.symm.trans h') (by decide)⟩,
      fun h => ⟨h.low, h.high⟩⟩

/-- The multiple of `10 ^ e` below the target. -/
def Target.below (t : Target) (e : ℤ) : ℕ := t.mid * 10 ^ (-e).toNat / (t.den * 10 ^ e.toNat)

/-- A grid gives one of the two neighbours of the target on it, if it gives any. -/
theorem Target.onGrid?_eq (t : Target) (e : ℤ) : t.onGrid? e =
    match t.fits e (t.below e), t.fits e (t.below e + 1) with
    | true, false => some (t.below e)
    | false, true => some (t.below e + 1)
    | true, true =>
        some (if 2 * (t.mid * 10 ^ (-e).toNat - t.below e * (t.den * 10 ^ e.toNat)) <
              t.den * 10 ^ e.toNat ∨
            (2 * (t.mid * 10 ^ (-e).toNat - t.below e * (t.den * 10 ^ e.toNat)) =
              t.den * 10 ^ e.toNat ∧ t.below e % 2 = 0)
          then t.below e else t.below e + 1)
    | false, false => none := rfl

theorem Target.holds_of_onGrid? {t : Target} {e : ℤ} {n : ℕ} (h : t.onGrid? e = some n) :
    t.Holds e n := by
  rw [← Target.fits_iff]
  rw [Target.onGrid?_eq] at h
  split at h
  · next h1 h2 => rwa [← Option.some.inj h]
  · next h1 h2 => rwa [← Option.some.inj h]
  · next h1 h2 =>
    rw [← Option.some.inj h]
    split_ifs
    · exact h1
    · exact h2
  · exact absurd h (by simp)

theorem Target.onGrid?_isSome {t : Target} {e : ℤ}
    (h : t.Holds e (t.below e) ∨ t.Holds e (t.below e + 1)) : (t.onGrid? e).isSome := by
  simp only [← Target.fits_iff] at h
  rw [Target.onGrid?_eq]
  split
  · rfl
  · rfl
  · rfl
  · next h1 h2 => simp [h1, h2] at h

/-! ## The target of a float -/

variable {b : Binary}

/-- In quarters of the last place: the numbers of a target over its denominator. -/
theorem Binary.quarters_div (b : Binary) (n : ℕ) :
    ((n * 2 ^ (b.exponent - 2).toNat : ℕ) : ℚ) / b.target.den = n / 4 * 2 ^ b.exponent := by
  have hden : (b.target.den : ℚ) = 2 ^ (-(b.exponent - 2)).toNat := by
    rw [neg_sub]
    exact_mod_cast (rfl : b.target.den = 2 ^ (2 - b.exponent).toNat)
  rw [hden]
  push_cast
  rw [mul_div_assoc, ← zpow_eq_div two_ne_zero, zpow_sub₀ two_ne_zero]
  norm_num
  ring

theorem Binary.target_den_pos (b : Binary) : (0 : ℚ) < b.target.den := by
  have : 0 < b.target.den := Nat.pow_pos two_pos
  exact_mod_cast this

theorem Binary.target_mid (b : Binary) : (b.target.mid : ℚ) / b.target.den = b.value := by
  have h := b.quarters_div (4 * b.mantissa)
  rw [show b.target.mid = 4 * b.mantissa * 2 ^ (b.exponent - 2).toNat from rfl, h, Binary.value]
  push_cast
  ring

theorem Binary.target_high (b : Binary) :
    (b.target.high : ℚ) / b.target.den = (b.mantissa + 1 / 2) * 2 ^ b.exponent := by
  have h := b.quarters_div (4 * b.mantissa + 2)
  rw [show b.target.high = (4 * b.mantissa + 2) * 2 ^ (b.exponent - 2).toNat from rfl, h]
  push_cast
  ring

theorem Binary.target_low (hb : 0 < b.mantissa) :
    (b.target.low : ℚ) / b.target.den = (b.mantissa - b.margin) * 2 ^ b.exponent := by
  -- the lower end is half as far off where the floats below are twice as dense
  have h := b.quarters_div (4 * b.mantissa - if b.narrowBelow then 1 else 2)
  rw [show b.target.low = (4 * b.mantissa - if b.narrowBelow then 1 else 2) *
    2 ^ (b.exponent - 2).toNat from rfl, h, Nat.cast_sub (by split_ifs <;> omega), Binary.margin]
  split_ifs <;> push_cast <;> ring

/-- Cross-multiplied comparisons on a grid are comparisons of fractions. -/
theorem grid_le_iff {den : ℕ} (hden : (0 : ℚ) < den) (e : ℤ) (k n : ℕ) :
    (k * 10 ^ (-e).toNat ≤ n * (den * 10 ^ e.toNat) ↔ (k : ℚ) / den ≤ n * 10 ^ e) ∧
      (n * (den * 10 ^ e.toNat) ≤ k * 10 ^ (-e).toNat ↔ (n : ℚ) * 10 ^ e ≤ k / den) := by
  have hscale : (0 : ℚ) < 10 ^ (-e).toNat := by positivity
  have hn : (n : ℚ) * (den * 10 ^ e.toNat) = n * 10 ^ e * (den * 10 ^ (-e).toNat) := by
    rw [zpow_eq_div (show (10 : ℚ) ≠ 0 by norm_num) e]
    field_simp
  have hk : (k : ℚ) * 10 ^ (-e).toNat = k / den * (den * 10 ^ (-e).toNat) := by
    field_simp
  have hpos : (0 : ℚ) < den * 10 ^ (-e).toNat := by positivity
  constructor
  · rw [← Nat.cast_le (α := ℚ)]
    push_cast
    rw [hn, hk, mul_le_mul_iff_left₀ hpos]
  · rw [← Nat.cast_le (α := ℚ)]
    push_cast
    rw [hn, hk, mul_le_mul_iff_left₀ hpos]

/-- What lies among the reals of a target is what the float covers. -/
theorem Binary.holds_iff (hb : 0 < b.mantissa) {e : ℤ} {n : ℕ} :
    b.target.Holds e n ↔ b.Covers (n * 10 ^ e) := by
  have hlow := grid_le_iff b.target_den_pos e b.target.low n
  have hhigh := grid_le_iff b.target_den_pos e b.target.high n
  have hp := two_zpow_pos b.exponent
  rw [b.target_low hb, ← le_div_iff₀ hp, ← div_le_iff₀ hp] at hlow
  rw [b.target_high, ← le_div_iff₀ hp, ← div_le_iff₀ hp] at hhigh
  have hclosed : b.target.closed = false ↔ b.mantissa % 2 = 1 := by
    show (b.mantissa % 2 == 0) = false ↔ _
    rw [beq_eq_false_iff_ne]
    omega
  constructor
  · intro h
    refine ⟨hlow.1.mp h.low, hhigh.2.mp h.high, fun hodd => ?_⟩
    have := h.opened (hclosed.mpr hodd)
    exact ⟨not_le.mp (mt hlow.2.mpr (not_le.mpr this.1)),
      not_le.mp (mt hhigh.1.mpr (not_le.mpr this.2))⟩
  · intro h
    refine ⟨hlow.1.mpr h.low, hhigh.2.mpr h.high, fun hc => ?_⟩
    have := h.odd (hclosed.mp hc)
    exact ⟨not_le.mp (mt hlow.2.mp (not_le.mpr this.1)),
      not_le.mp (mt hhigh.1.mp (not_le.mpr this.2))⟩

/-! ## Seventeen digits are enough -/

/-- The power of ten that the decimal point names is no more than the fraction. -/
theorem ten_zpow_decimalPoint_le {num den : ℕ} (hnum : 0 < num) (hden : 0 < den) :
    (10 : ℚ) ^ (decimalPoint num den - 1) ≤ num / den := by
  have hd : (0 : ℚ) < den := by exact_mod_cast hden
  unfold decimalPoint
  split_ifs with h
  · have hq : 0 < num / den := Nat.div_pos h hden
    have hlen : 0 < (Nat.toDigits 10 (num / den)).length := Nat.length_toDigits_pos
    have hle : (10 : ℚ) ^ ((Nat.toDigits 10 (num / den)).length - 1) ≤ (num / den : ℕ) := by
      exact_mod_cast ten_pow_length_le hq
    rw [digitCount, if_neg hq.ne', ← Nat.cast_one, ← Nat.cast_sub hlen, zpow_natCast]
    exact hle.trans Nat.cast_div_le
  · have hlt : (den - 1) / num < 10 ^ digitCount ((den - 1) / num) := by
      unfold digitCount
      split_ifs with h0
      · rw [h0]; norm_num
      · exact lt_ten_pow_length _
    rw [Nat.div_lt_iff_lt_mul hnum] at hlt
    have hle : (den : ℚ) ≤ 10 ^ digitCount ((den - 1) / num) * num := by
      have : den ≤ 10 ^ digitCount ((den - 1) / num) * num := by omega
      exact_mod_cast this
    rw [show (1 - (digitCount ((den - 1) / num) : ℤ) - 1) = -(digitCount ((den - 1) / num) : ℤ) by
      ring, zpow_neg, zpow_natCast, inv_le_iff_one_le_mul₀' (by positivity), ← mul_div_assoc,
      one_le_div hd]
    exact hle

/-- The two neighbours of a float on a grid are around it. -/
theorem Binary.below_bounds (b : Binary) (e : ℤ) :
    (b.target.below e : ℚ) * 10 ^ e ≤ b.value ∧ b.value < (b.target.below e + 1 : ℕ) * 10 ^ e := by
  have h := grid_le_iff b.target_den_pos e b.target.mid
  have hunit : 0 < b.target.den * 10 ^ e.toNat := by
    have : 0 < b.target.den := Nat.pow_pos two_pos
    positivity
  rw [b.target_mid] at h
  constructor
  · exact (h _).2.mp (Nat.div_mul_le_self ..)
  · rw [← not_le, ← (h _).2, not_le]
    exact (Nat.div_lt_iff_lt_mul hunit).mp (Nat.lt_succ_self _)

/-- One of the two neighbours on the grid of seventeen digits rounds to the float: the grid is
finer than the floats are. -/
theorem Binary.Canonical.exists_neighbour (hb : b.Canonical) {e : ℤ}
    (he : (10 : ℚ) ^ (e + 16) ≤ b.value) :
    b.target.Holds e (b.target.below e) ∨ b.target.Holds e (b.target.below e + 1) := by
  rw [Binary.holds_iff hb.pos, Binary.holds_iff hb.pos]
  obtain ⟨hle, hlt⟩ := b.below_bounds e
  have hp := two_zpow_pos b.exponent
  have hsmall : (b.mantissa : ℚ) + 1 ≤ 2 ^ 53 := by exact_mod_cast hb.small
  -- everything in units of the last place: `w` is the spacing of the grid, `y` the lower neighbour
  generalize b.target.below e = c at hle hlt ⊢
  obtain ⟨w, hw⟩ : ∃ w, (10 : ℚ) ^ e / 2 ^ b.exponent = w := ⟨_, rfl⟩
  have hspace : w * 10 ^ 16 ≤ b.mantissa := by
    rw [zpow_add₀ (by norm_num)] at he
    rw [← hw, div_mul_eq_mul_div, div_le_iff₀ hp]
    exact_mod_cast he
  obtain ⟨y, hy⟩ : ∃ y, (c : ℚ) * 10 ^ e / 2 ^ b.exponent = y := ⟨_, rfl⟩
  have hy' : ((c + 1 : ℕ) : ℚ) * 10 ^ e / 2 ^ b.exponent = y + w := by
    rw [← hy, ← hw]; push_cast; ring
  have hyM : y ≤ b.mantissa := by
    rw [← hy, div_le_iff₀ hp]; exact hle
  have hMy : b.mantissa < y + w := by
    rw [← hy', lt_div_iff₀ hp]; exact hlt
  rcases hn : b.narrowBelow with _ | _
  · have hm : b.margin = 1 / 2 := by rw [Binary.margin, hn]; rfl
    -- the spacing is less than one, so one of the two neighbours is less than one half away
    by_cases hclose : (b.mantissa : ℚ) - y < 1 / 2
    · refine .inl (Binary.covers_of_lt ?_ ?_)
      · rw [hy, hm]
        linarith
      · rw [hy]
        linarith
    · refine .inr (Binary.covers_of_lt ?_ ?_)
      · rw [hy', hm]
        linarith
      · rw [hy']
        linarith
  · -- the nearer end is below, so the upper neighbour is the one to count on
    have hM : (b.mantissa : ℚ) = 2 ^ 52 := by exact_mod_cast (hb.narrow.mp hn).1
    have hm : b.margin = 1 / 4 := by rw [Binary.margin, hn]; rfl
    refine .inr (Binary.covers_of_lt ?_ ?_)
    · rw [hy', hm]
      linarith
    · rw [hy']
      linarith

/-- The shortest numeral for a float lies among the reals that round to it. -/
theorem Binary.Canonical.covers_shortest (hb : b.Canonical) :
    b.Covers (b.target.shortest.1 * 10 ^ b.target.shortest.2) := by
  have hmid : 0 < b.target.mid := by
    have := hb.pos
    exact Nat.mul_pos (by omega) (Nat.pow_pos two_pos)
  have hden : 0 < b.target.den := Nat.pow_pos two_pos
  have hpoint := ten_zpow_decimalPoint_le hmid hden
  rw [b.target_mid] at hpoint
  unfold Target.shortest
  dsimp only
  generalize decimalPoint b.target.mid b.target.den = point at hpoint ⊢
  -- the last grid of the search always has a numeral
  have hlast : (b.target.onGrid? (point - (16 + 1 : ℕ))).isSome :=
    Target.onGrid?_isSome (hb.exists_neighbour (by
      rwa [show point - (16 + 1 : ℕ) + 16 = point - 1 by push_cast; ring]))
  obtain ⟨r, hr⟩ : ∃ r, (List.range 17).findSome? (fun n =>
      (b.target.onGrid? (point - (n + 1 : ℕ))).map fun c => (c, point - (n + 1 : ℕ))) = some r := by
    rw [← Option.isSome_iff_exists, List.findSome?_isSome_iff]
    exact ⟨16, by decide, by rwa [Option.isSome_map]⟩
  rw [hr]
  obtain ⟨n, -, hn⟩ := List.exists_of_findSome?_eq_some hr
  obtain ⟨c, hc, rfl⟩ := Option.map_eq_some_iff.mp hn
  exact (Binary.holds_iff hb.pos).mp (Target.holds_of_onGrid? hc)

end ChatClient.Decimal
