import ChatClient.Decimal.Numeral
import ChatClient.Proofs.Rounding

/-!
# Floats that numerals read as

A float is taken apart into its mantissa and exponent, and put together from them. A numeral
reads as the float that covers its value: whether it is read by one product or quotient of
exact floats or by a product or quotient of long mantissas, it is rounded once. Numerals whose
length says that they are out of range are cut off before, and none of these has a value that
a finite float covers.
-/

namespace ChatClient.Decimal

open Float.Model Float.Model.UnpackedFloat

/-! ## Floats as the binaries they are made of -/

/-- The sign of a float. -/
def Binary.sign (b : Binary) : Sign := if b.negative then .negative else .positive

theorem eq_of_unpack_eq {x y : Float} (h : x.toModel.unpack = y.toModel.unpack) : x = y := by
  have := (unpack_inj_of_valid x.toModel.valid y.toModel.valid).mp h
  exact Float.toBits_inj.mp (UInt64.toBitVec_inj.mp this)

theorem unpackMantissa_toNat (x : Float) :
    (@unpackMantissa Format.binary64 x.toBits.toBitVec).toNat = x.toBits.toNat % 2 ^ 52 := by
  rw [unpackMantissa_def]
  simp [BitVec.extractLsb'_toNat]

theorem unpackExponent_toNat (x : Float) :
    (@unpackExponent Format.binary64 x.toBits.toBitVec).toNat =
      x.toBits.toNat / 2 ^ 52 % 2048 := by
  rw [unpackExponent_def]
  simp [BitVec.extractLsb'_toNat, Nat.shiftRight_eq_div_pow]

theorem ofBitVec_unpackSign (x : Float) :
    Sign.ofBitVec (@unpackSign Format.binary64 x.toBits.toBitVec) =
      (Binary.ofFloat x).sign := by
  have hlt : x.toBits.toNat < 2 ^ 64 := x.toBits.toBitVec.isLt
  have h : (@unpackSign Format.binary64 x.toBits.toBitVec).toNat =
      x.toBits.toNat / 2 ^ 63 := by
    rw [unpackSign_def]
    simp only [BitVec.extractLsb'_toNat, Nat.shiftRight_eq_div_pow]
    exact Nat.mod_eq_of_lt (by show x.toBits.toNat / 2 ^ 63 < 2; omega)
  simp only [Sign.ofBitVec, Binary.sign, Binary.ofFloat, ← BitVec.toNat_inj, h, beq_iff_eq]
  show _ = if x.toBits.toNat / 2 ^ 63 = 1 then _ else _
  by_cases h1 : x.toBits.toNat / 2 ^ 63 = 1
  · rw [if_neg (by rw [h1]; simp), if_pos h1]
  · have h0 : x.toBits.toNat / 2 ^ 63 = 0 := by omega
    rw [if_pos (by rw [h0]; rfl), if_neg h1]

/-- A float from its fields: the biased exponent `f` and the fraction `m`. -/
theorem Binary.fields_ofFloat (x : Float) :
    ∃ f < 2048, ∃ m < 2 ^ 52,
      (@unpackExponent Format.binary64 x.toBits.toBitVec).toNat = f ∧
      (@unpackMantissa Format.binary64 x.toBits.toBitVec).toNat = m ∧
      (Binary.ofFloat x).mantissa = (if f = 0 then m else 2 ^ 52 + m) ∧
      (Binary.ofFloat x).exponent = (if f = 0 then 1 else (f : ℤ)) - 1075 ∧
      (Binary.ofFloat x).narrowBelow = (m == 0 && decide (1 < f)) :=
  ⟨x.toBits.toNat / 2 ^ 52 % 2048, Nat.mod_lt _ (by norm_num), x.toBits.toNat % 2 ^ 52,
    Nat.mod_lt _ (by norm_num), unpackExponent_toNat x, unpackMantissa_toNat x, rfl, rfl, rfl⟩

/-- A float that is not zero is canonical. -/
theorem Binary.canonical_ofFloat {x : Float} (h : (Binary.ofFloat x).mantissa ≠ 0) :
    (Binary.ofFloat x).Canonical := by
  obtain ⟨f, hf, m, hm, -, -, hM, hE, hn⟩ := Binary.fields_ofFloat x
  by_cases h0 : f = 0
  · rw [if_pos h0] at hM hE
    constructor
    · omega
    · omega
    · omega
    · omega
    · simp only [hn, Bool.and_eq_true, beq_iff_eq, decide_eq_true_eq]
      omega
  · rw [if_neg h0] at hM hE
    constructor
    · omega
    · omega
    · omega
    · omega
    · simp only [hn, Bool.and_eq_true, beq_iff_eq, decide_eq_true_eq]
      omega

theorem finite_congr {s : Sign} {m m' : ℕ} {e e' : ℤ} {hm : 0 < m} (h : m = m') (he : e = e') :
    UnpackedFloat.finite s m e hm = .finite s m' e' (h ▸ hm) := by
  subst h he; rfl

theorem toNat_one_append (mv : BitVec 52) : (1#1 ++ mv).toNat = 2 ^ 52 + mv.toNat := by
  have := Nat.two_pow_add_eq_or_of_lt mv.isLt 1
  rw [Nat.mul_one] at this
  simp only [BitVec.toNat_append, BitVec.toNat_ofNat, Nat.pow_one, Nat.mod_succ,
    Nat.one_shiftLeft, ← this]

/-- A float is not a number, infinite, a zero or the binary that it is taken apart into. -/
theorem unpack_eq (x : Float) :
    x.toModel.unpack = .notANumber ∨ x.toModel.unpack = .infinity (Binary.ofFloat x).sign ∨
      (Binary.ofFloat x).mantissa = 0 ∧ x.toModel.unpack = .zero (Binary.ofFloat x).sign ∨
      ∃ hpos, (Binary.ofFloat x).exponent ≤ 971 ∧
        x.toModel.unpack = .finite (Binary.ofFloat x).sign (Binary.ofFloat x).mantissa
          (Binary.ofFloat x).exponent hpos := by
  have hu : x.toModel.unpack = UnpackedFloat.unpack Format.binary64 x.toBits.toBitVec := rfl
  obtain ⟨f, hf, m, hm, hev, hmv, hM, hE, -⟩ := Binary.fields_ofFloat x
  have hbias : (Format.binary64.exponentBias : ℤ) = 1023 := rfl
  simp only [UnpackedFloat.unpack, ofBitVec_unpackSign, hev, hmv, hbias, ← BitVec.toNat_inj] at hu
  -- the exponent field is full, without a fraction or with one; it is zero, without or with one;
  -- or it is in between
  split_ifs at hu with h1 h2 h3 h4
  · exact .inr (.inl hu)
  · exact .inl hu
  · simp only [BitVec.toNat_ofNat, Nat.zero_mod] at h3 h4
    have hM0 : (Binary.ofFloat x).mantissa = 0 := by rw [hM, if_pos h3]; exact h4
    exact .inr (.inr (.inl ⟨hM0, hu⟩))
  · simp only [BitVec.toNat_ofNat, Nat.zero_mod] at h3 h4
    rw [if_pos h3] at hM hE
    refine .inr (.inr (.inr ⟨by omega, by omega, hu.trans (finite_congr hM.symm ?_)⟩))
    omega
  · simp only [BitVec.toNat_ofNat, Nat.zero_mod] at h3
    have hf' : f ≠ 2047 := fun h => h1 (by rw [h]; rfl)
    rw [if_neg h3] at hM hE
    refine .inr (.inr (.inr ⟨by omega, by omega, hu.trans (finite_congr ?_ ?_)⟩))
    · rw [toNat_one_append, hmv, hM]
    · omega

/-- Packing a canonical binary loses nothing. -/
theorem Binary.Canonical.unpack_pack {b : Binary} (hb : b.Canonical) (hE : b.exponent ≤ 971)
    (s : Sign) :
    (Float.Model.pack (.finite s b.mantissa b.exponent hb.pos)).unpack =
      .finite s b.mantissa b.exponent hb.pos := by
  have hleast := hb.least
  have hbias : b.exponent + (Format.binary64.exponentBias : ℤ) + (52 : ℕ) = b.exponent + 1075 := by
    rw [show (Format.binary64.exponentBias : ℤ) = 1023 from rfl]
    ring
  show UnpackedFloat.unpack Format.binary64 (UnpackedFloat.pack Format.binary64
    (.finite s b.mantissa b.exponent hb.pos)) = _
  simp only [UnpackedFloat.pack, hbias]
  rw [if_neg (by norm_num; omega)]
  have hfull : b.mantissa.log2 + 1 = Format.binary64.mantissaBits ↔ 2 ^ 52 ≤ b.mantissa := by
    rw [show Format.binary64.mantissaBits = 53 from rfl, ← Nat.le_log2 hb.pos.ne']
    have : b.mantissa.log2 < 53 := (Nat.log2_lt hb.pos.ne').mpr hb.small
    omega
  by_cases h : 2 ^ 52 ≤ b.mantissa
  · -- the first bit of a full mantissa is left out, and put back for the exponent field
    have hev : (BitVec.ofNat 11 (b.exponent + 1075).toNat).toNat = (b.exponent + 1075).toNat := by
      rw [BitVec.toNat_ofNat]
      exact Nat.mod_eq_of_lt (by omega)
    have hmv : (1#1 ++ BitVec.ofNat 52 b.mantissa).toNat = b.mantissa := by
      rw [toNat_one_append, BitVec.toNat_ofNat]
      have := hb.small
      omega
    rw [if_pos (hfull.mpr h)]
    simp only [UnpackedFloat.unpack, unpackExponent_packComponents, unpackMantissa_packComponents,
      unpackSign_packComponents, Sign.ofBitVec_toBitVec]
    rw [if_neg (by simp only [← BitVec.toNat_inj, hev]; simp; omega),
      if_neg (by simp only [← BitVec.toNat_inj, hev]; simp; omega)]
    refine finite_congr hmv ?_
    rw [hev, show (Format.binary64.exponentBias : ℤ) = 1023 from rfl]
    omega
  · -- a shorter mantissa is stored whole, with zero as the exponent field
    have hE' : b.exponent = -1074 := by
      by_contra hne
      exact h (hb.full (by omega))
    have hmv : (BitVec.ofNat 52 b.mantissa).toNat = b.mantissa := by
      rw [BitVec.toNat_ofNat]
      exact Nat.mod_eq_of_lt (not_le.mp h)
    rw [if_neg (mt hfull.mp h)]
    simp only [UnpackedFloat.unpack, unpackExponent_packComponents, unpackMantissa_packComponents,
      unpackSign_packComponents, Sign.ofBitVec_toBitVec]
    rw [if_neg (by decide), if_pos trivial, dif_neg (by
      simp only [← BitVec.toNat_inj, hmv]
      exact hb.pos.ne')]
    refine finite_congr hmv ?_
    rw [hE']
    rfl

/-! ## The value of a numeral -/

/-- The magnitude of a binary. -/
def Binary.value (b : Binary) : ℚ := b.mantissa * 2 ^ b.exponent

/-- A float covers itself. -/
theorem Binary.covers_value (b : Binary) : b.Covers b.value := by
  have hy : b.value / 2 ^ b.exponent = b.mantissa :=
    mul_div_cancel_right₀ _ (two_zpow_pos b.exponent).ne'
  have hmargin : 0 < b.margin := by unfold Binary.margin; split_ifs <;> norm_num
  refine Binary.covers_of_lt ?_ ?_
  · rw [hy]
    linarith
  · rw [hy]
    linarith

/-- A quotient is rounded from enough of its bits. -/
theorem div_described (m₁ : ℕ) {m₂ : ℕ} (e₁ e₂ : ℤ) (h₁ : 0 < m₁) (h₂ : 0 < m₂) :
    ∃ (m : ℕ) (e : ℤ) (acc : Accuracy),
      UnpackedFloat.div Format.binary64 (.finite .positive m₁ e₁ h₁) (.finite .positive m₂ e₂ h₂) =
        roundWithAccuracy Format.binary64 .positive m e acc ∧
      Describes (ExtendedMantissa.ofMantissaAndAccuracy m acc)
        (m₁ * 2 ^ e₁ / (m₂ * 2 ^ e₂) / 2 ^ e) ∧
      e ≤ Format.binary64.targetExponent (totalExponent m e) := by
  simp only [UnpackedFloat.div, divCore]
  set t := min (e₁ - e₂) (Format.binary64.targetExponent
    (totalExponent m₁ e₁ - totalExponent m₂ e₂)) with ht
  obtain ⟨k, hk⟩ : ∃ k : ℕ, e₁ - e₂ - t = k := ⟨(e₁ - e₂ - t).toNat, by omega⟩
  rw [hk, Int.toNat_natCast, Nat.shiftLeft_eq]
  refine ⟨_, _, _, rfl, ?_, ?_⟩
  · have := describes_div (m₁ * 2 ^ k) h₂
    have he : (2 : ℚ) ^ e₁ = 2 ^ k * 2 ^ e₂ * 2 ^ t := by
      rw [← zpow_natCast, ← zpow_add₀ two_ne_zero, ← zpow_add₀ two_ne_zero]
      congr 1
      omega
    rwa [show (m₁ * 2 ^ e₁ / (m₂ * 2 ^ e₂) : ℚ) / 2 ^ t = (m₁ * 2 ^ k : ℕ) / m₂ by
      rw [he]; push_cast; field_simp]
  · rw [targetExponent_eq] at ht ⊢
    simp only [totalExponent] at ht ⊢
    by_cases hsmall : t ≤ -1074
    · omega
    -- enough bits were shifted in for a quotient of 53 bits
    · have hk' : 52 + (m₂.log2 + 1) ≤ m₁.log2 + k := by omega
      have hq : 2 ^ 52 ≤ m₁ * 2 ^ k / m₂ := by
        rw [Nat.le_div_iff_mul_le h₂]
        calc 2 ^ 52 * m₂ ≤ 2 ^ 52 * 2 ^ (m₂.log2 + 1) :=
              Nat.mul_le_mul_left _ Nat.lt_log2_self.le
          _ = 2 ^ (52 + (m₂.log2 + 1)) := (pow_add ..).symm
          _ ≤ 2 ^ (m₁.log2 + k) := Nat.pow_le_pow_right two_pos hk'
          _ = 2 ^ m₁.log2 * 2 ^ k := pow_add ..
          _ ≤ m₁ * 2 ^ k := Nat.mul_le_mul_right _ (Nat.log2_self_le h₁.ne')
      have : 52 ≤ (m₁ * 2 ^ k / m₂).log2 := (Nat.le_log2 (by omega)).mpr hq
      omega

section
variable {b : Binary} (hb : b.Canonical)
include hb

/-- A product that a float covers rounds to the float, if one factor has all its bits. -/
theorem mul_eq {m₁ m₂ : ℕ} {e₁ e₂ : ℤ} {h₁ : 0 < m₁} {h₂ : 0 < m₂} (hm : 2 ^ 52 ≤ m₁)
    (hx : b.Covers (m₁ * 2 ^ e₁ * (m₂ * 2 ^ e₂))) :
    UnpackedFloat.mul Format.binary64 (.finite .positive m₁ e₁ h₁) (.finite .positive m₂ e₂ h₂) =
      .finite .positive b.mantissa b.exponent hb.pos := by
  refine roundWithAccuracy_eq hb hx ?_ ?_ _
  · have := describes_exact (m₁ * m₂)
    rwa [show (m₁ * 2 ^ e₁ * (m₂ * 2 ^ e₂) : ℚ) / 2 ^ (e₁ + e₂) = (m₁ * m₂ : ℕ) by
      rw [zpow_add₀ two_ne_zero]; push_cast; field_simp]
  · have : 52 ≤ (m₁ * m₂).log2 := by
      rw [Nat.le_log2 (by positivity)]
      exact hm.trans (Nat.le_mul_of_pos_right _ h₂)
    rw [targetExponent_eq, totalExponent]
    omega

/-- A quotient that a float covers rounds to the float. -/
theorem div_eq {m₁ m₂ : ℕ} {e₁ e₂ : ℤ} {h₁ : 0 < m₁} {h₂ : 0 < m₂}
    (hx : b.Covers (m₁ * 2 ^ e₁ / (m₂ * 2 ^ e₂))) :
    UnpackedFloat.div Format.binary64 (.finite .positive m₁ e₁ h₁) (.finite .positive m₂ e₂ h₂) =
      .finite .positive b.mantissa b.exponent hb.pos := by
  obtain ⟨m, e, acc, hdiv, hdescribes, he⟩ := div_described m₁ e₁ e₂ h₁ h₂
  rw [hdiv]
  exact roundWithAccuracy_eq hb hx hdescribes he _

/-- The product with a power of ten, or the quotient by one, that a float covers is the
float. -/
theorem unpacked_ofScientific_eq {m : ℕ} {e : ℤ} (hm : 0 < m) (hx : b.Covers (m * 10 ^ e))
    (hlow : -(2048 + m.log2 : ℤ) ≤ e) (hhigh : e ≤ 2048) :
    UnpackedFloat.ofScientific Format.binary64 m e =
      .finite .positive b.mantissa b.exponent hb.pos := by
  unfold UnpackedFloat.ofScientific
  -- the exponent is neither so small nor so large that the result is taken for granted
  rw [dif_neg hm.ne', if_neg (by norm_num; omega), if_neg (by norm_num; omega)]
  split_ifs with he
  · obtain ⟨k, rfl⟩ := Int.eq_ofNat_of_zero_le he
    refine mul_eq hb ?_ ?_
    · rw [Nat.shiftLeft_eq]
      calc 2 ^ 52 ≤ 2 ^ Format.binary64.mantissaBits := by decide
        _ ≤ m * 2 ^ Format.binary64.mantissaBits := Nat.le_mul_of_pos_left _ hm
    · rw [Nat.shiftLeft_eq]
      push_cast
      rw [zpow_neg, zpow_natCast, mul_inv_cancel_right₀ (by positivity), mul_one, Int.toNat_natCast]
      rwa [zpow_natCast] at hx
  · obtain ⟨k, rfl⟩ : ∃ k : ℕ, e = -k := ⟨(-e).toNat, by omega⟩
    refine div_eq hb ?_
    rw [neg_neg, Int.toNat_natCast]
    push_cast
    rw [mul_one, mul_one, div_eq_mul_inv]
    rwa [zpow_neg, zpow_natCast] at hx

end

/-- A positive whole number below `2 ^ 53` is a float with all its bits. -/
theorem exists_canonical_whole {m : ℕ} (hm : 0 < m) (hlt : m < 2 ^ 53) :
    ∃ b : Binary, b.Canonical ∧ b.exponent ≤ 971 ∧ 2 ^ 52 ≤ b.mantissa ∧ b.value = m := by
  have hlog : m.log2 < 53 := (Nat.log2_lt hm.ne').mpr hlt
  set k := 52 - m.log2 with hk
  have hfull : 2 ^ 52 ≤ m * 2 ^ k :=
    calc 2 ^ 52 = 2 ^ m.log2 * 2 ^ k := by rw [← pow_add]; congr 1; omega
      _ ≤ m * 2 ^ k := Nat.mul_le_mul_right _ (Nat.log2_self_le hm.ne')
  have hsmall : m * 2 ^ k < 2 ^ 53 :=
    calc m * 2 ^ k < 2 ^ (m.log2 + 1) * 2 ^ k :=
          Nat.mul_lt_mul_of_pos_right Nat.lt_log2_self (by positivity)
      _ = 2 ^ 53 := by rw [← pow_add]; congr 1; omega
  refine ⟨⟨false, m * 2 ^ k, -k, m * 2 ^ k == 2 ^ 52⟩, ⟨by positivity, hsmall, ?_, ?_, ?_⟩, ?_,
    hfull, ?_⟩
  · show (-1074 : ℤ) ≤ -k
    omega
  · exact fun _ => hfull
  · show (m * 2 ^ k == 2 ^ 52) = true ↔ m * 2 ^ k = 2 ^ 52 ∧ (-1074 : ℤ) < -k
    rw [beq_iff_eq]
    omega
  · show -(k : ℤ) ≤ 971
    omega
  · simp only [Binary.value]
    push_cast
    rw [zpow_neg, zpow_natCast, mul_inv_cancel_right₀ (by positivity)]

/-- The float of a positive whole number below `2 ^ 53` is the number itself. -/
theorem unpack_toFloat {m : ℕ} (hm : 0 < m) (hlt : m < 2 ^ 53) :
    ∃ (m₁ : ℕ) (e₁ : ℤ) (h₁ : 0 < m₁), 2 ^ 52 ≤ m₁ ∧ (m₁ : ℚ) * 2 ^ e₁ = m ∧
      m.toUInt64.toFloat.toModel.unpack = .finite .positive m₁ e₁ h₁ := by
  obtain ⟨b, hb, hE, hfull, hval⟩ := exists_canonical_whole hm hlt
  refine ⟨b.mantissa, b.exponent, hb.pos, hfull, hval, ?_⟩
  have hn : m.toUInt64.toNat = m := Nat.mod_eq_of_lt (by norm_num; omega)
  have hround : UnpackedFloat.normalize Format.binary64 m 0 .positive =
      .finite .positive b.mantissa b.exponent hb.pos := by
    rw [UnpackedFloat.normalize, compare_gt_iff_gt.mpr (by exact_mod_cast hm)]
    simp only [Int.toNat_natCast, UnpackedFloat.round, decreaseExponent]
    generalize hk : (0 - Format.binary64.targetExponent (totalExponent m 0)).toNat = k
    rw [targetExponent_eq, totalExponent] at hk
    rw [Nat.shiftLeft_eq]
    refine roundWithAccuracy_eq hb b.covers_value ?_ ?_ _
    · have := describes_exact (m * 2 ^ k)
      rwa [show b.value / 2 ^ (0 - k : ℤ) = (m * 2 ^ k : ℕ) by
        rw [hval, zero_sub, zpow_neg, zpow_natCast, div_inv_eq_mul]; push_cast; rfl]
    · have : 52 ≤ (m * 2 ^ k).log2 := by
        rw [Nat.le_log2 (by positivity)]
        calc 2 ^ 52 ≤ 2 ^ (m.log2 + k) := Nat.pow_le_pow_right two_pos (by omega)
          _ = 2 ^ m.log2 * 2 ^ k := pow_add ..
          _ ≤ m * 2 ^ k := Nat.mul_le_mul_right _ (Nat.log2_self_le hm.ne')
      rw [targetExponent_eq, totalExponent]
      omega
  show (Float.Model.pack (UnpackedFloat.normalize Format.binary64 (m.toUInt64.toNat : ℕ) 0
    .positive)).unpack = _
  rw [hn, hround, hb.unpack_pack hE]

/-- A finite float that is not zero is the binary that it is taken apart into. -/
theorem unpack_of_isFinite {x : Float} (hfin : x.isFinite = true)
    (hM : (Binary.ofFloat x).mantissa ≠ 0) :
    ∃ hpos, (Binary.ofFloat x).exponent ≤ 971 ∧
      x.toModel.unpack = .finite (Binary.ofFloat x).sign (Binary.ofFloat x).mantissa
        (Binary.ofFloat x).exponent hpos := by
  have hfin : x.toModel.unpack.isFinite = true := hfin
  rcases unpack_eq x with h | h | ⟨h0, -⟩ | h
  · simp [h, UnpackedFloat.isFinite] at hfin
  · simp [h, UnpackedFloat.isFinite] at hfin
  · exact absurd h0 hM
  · exact h

theorem zpow_eq_div {a : ℚ} (ha : a ≠ 0) (e : ℤ) : a ^ e = a ^ e.toNat / a ^ (-e).toNat := by
  rw [eq_div_iff (pow_ne_zero _ ha), ← zpow_natCast, ← zpow_natCast, ← zpow_add₀ ha]
  congr 1
  omega

theorem Binary.value_eq (b : Binary) : b.value = (b.mantissa * b.up : ℕ) / b.down := by
  have hup : (b.up : ℚ) = 2 ^ b.exponent.toNat := by exact_mod_cast (rfl : b.up = 2 ^ _)
  have hdown : (b.down : ℚ) = 2 ^ (-b.exponent).toNat := by exact_mod_cast (rfl : b.down = 2 ^ _)
  rw [Binary.value, zpow_eq_div two_ne_zero, mul_div_assoc', Nat.cast_mul, hup, hdown]

/-- The table of powers of ten is exact. -/
theorem powersOfTen_exact : ∀ i : Fin Float.exactlyRepresentablePowersOfTen.size,
    Float.exactlyRepresentablePowersOfTen[i].isFinite = true ∧
    (Binary.ofFloat Float.exactlyRepresentablePowersOfTen[i]).negative = false ∧
    (Binary.ofFloat Float.exactlyRepresentablePowersOfTen[i]).mantissa ≠ 0 ∧
    (Binary.ofFloat Float.exactlyRepresentablePowersOfTen[i]).mantissa *
      (Binary.ofFloat Float.exactlyRepresentablePowersOfTen[i]).up =
      10 ^ i.1 * (Binary.ofFloat Float.exactlyRepresentablePowersOfTen[i]).down := by
  decide +kernel

theorem unpack_powerOfTen {k : ℕ} (hk : k < Float.exactlyRepresentablePowersOfTen.size) :
    ∃ (m₁ : ℕ) (e₁ : ℤ) (h₁ : 0 < m₁), (m₁ : ℚ) * 2 ^ e₁ = 10 ^ k ∧
      Float.exactlyRepresentablePowersOfTen[k].toModel.unpack = .finite .positive m₁ e₁ h₁ := by
  obtain ⟨hfin, hneg, hM, hval⟩ := powersOfTen_exact ⟨k, hk⟩
  obtain ⟨hpos, -, hu⟩ := unpack_of_isFinite hfin hM
  simp only [Fin.getElem_fin] at *
  generalize Binary.ofFloat Float.exactlyRepresentablePowersOfTen[k] = b at *
  refine ⟨b.mantissa, b.exponent, hpos, ?_, ?_⟩
  · have hdown : (b.down : ℚ) ≠ 0 := by
      have : 0 < b.down := Nat.pow_pos two_pos
      exact_mod_cast this.ne'
    show b.value = 10 ^ k
    rw [b.value_eq, hval, div_eq_iff hdown]
    push_cast
    rfl
  · rw [hu, Binary.sign, hneg]
    rfl

/-- The float that a decimal reads as is the one that covers it. -/
theorem ofScientific_eq {b : Binary} (hb : b.Canonical) (hE : b.exponent ≤ 971) {m k : ℕ}
    {small : Bool} {e : ℤ} (he : e = if small then -(k : ℤ) else k) (hm : 0 < m)
    (hx : b.Covers (m * 10 ^ e)) (hlow : -(2048 + m.log2 : ℤ) ≤ e) (hhigh : e ≤ 2048) :
    (Float.ofScientific m small k).toModel.unpack =
      .finite .positive b.mantissa b.exponent hb.pos := by
  unfold Float.ofScientific
  rw [← hb.unpack_pack hE]
  -- a short mantissa and a power of ten of the table are both exact floats
  split_ifs with hfast hs hs
  · obtain ⟨m₁, e₁, h₁, hfull, hv, hu⟩ := unpack_toFloat hm hfast.1
    obtain ⟨m₂, e₂, h₂, hv₂, hu₂⟩ := unpack_powerOfTen (k := k) (Nat.lt_succ_of_le hfast.2)
    rw [if_pos hs] at he
    have hq : b.Covers (m₁ * 2 ^ e₁ / (m₂ * 2 ^ e₂)) := by
      rwa [hv, hv₂, div_eq_mul_inv, ← zpow_natCast, ← zpow_neg, ← he]
    exact congrArg (fun u => (Float.Model.pack u).unpack)
      ((congrArg₂ (UnpackedFloat.div Format.binary64) hu hu₂).trans (div_eq hb hq))
  · obtain ⟨m₁, e₁, h₁, hfull, hv, hu⟩ := unpack_toFloat hm hfast.1
    obtain ⟨m₂, e₂, h₂, hv₂, hu₂⟩ := unpack_powerOfTen (k := k) (Nat.lt_succ_of_le hfast.2)
    rw [if_neg hs] at he
    have hp : b.Covers (m₁ * 2 ^ e₁ * (m₂ * 2 ^ e₂)) := by
      rwa [hv, hv₂, ← zpow_natCast, ← he]
    exact congrArg (fun u => (Float.Model.pack u).unpack)
      ((congrArg₂ (UnpackedFloat.mul Format.binary64) hu hu₂).trans (mul_eq hb hfull hp))
  · rw [if_pos hs] at he
    have := unpacked_ofScientific_eq hb hm hx hlow hhigh
    rw [he] at this
    show (Float.Model.pack (UnpackedFloat.ofScientific Format.binary64 m (Int.negOfNat k))).unpack = _
    rw [Int.negOfNat_eq, Int.ofNat_eq_natCast, this]
  · rw [if_neg hs] at he
    have := unpacked_ofScientific_eq hb hm hx hlow hhigh
    rw [he] at this
    show (Float.Model.pack (UnpackedFloat.ofScientific Format.binary64 m k)).unpack = _
    rw [this]

theorem lt_ten_pow_length (n : ℕ) : n < 10 ^ (Nat.toDigits 10 n).length :=
  (Nat.length_toDigits_le_iff (by norm_num) Nat.length_toDigits_pos).mp le_rfl

theorem ten_pow_length_le {n : ℕ} (hn : 0 < n) : 10 ^ ((Nat.toDigits 10 n).length - 1) ≤ n := by
  rcases Nat.eq_zero_or_pos ((Nat.toDigits 10 n).length - 1) with h | h
  · rw [h]; exact hn
  · by_contra hlt
    have := (Nat.length_toDigits_le_iff (by norm_num) h).mpr (not_le.mp hlt)
    omega

/-- What a canonical binary covers is within the range of floats. -/
theorem Binary.Covers.bounds {b : Binary} (hb : b.Canonical) (hE : b.exponent ≤ 971) {x : ℚ}
    (hx : b.Covers x) : (2 : ℚ) ^ (-1075 : ℤ) ≤ x ∧ x < 2 ^ (1024 : ℤ) := by
  have hpos : (1 : ℚ) ≤ b.mantissa := by exact_mod_cast hb.pos
  have hsmall : (b.mantissa : ℚ) + 1 ≤ 2 ^ 53 := by exact_mod_cast hb.small
  have hmargin := b.margin_le
  have hlow := hx.low
  have hhigh := hx.high
  constructor
  · have h : (2 : ℚ) ^ (-1 : ℤ) ≤ x / 2 ^ b.exponent := by norm_num; linarith
    rw [le_div_iff₀ (two_zpow_pos _), ← zpow_add₀ two_ne_zero] at h
    exact (zpow_le_zpow_right₀ one_le_two (by have := hb.least; omega)).trans h
  · have h : x / 2 ^ b.exponent < 2 ^ 53 := by linarith
    rw [div_lt_iff₀ (two_zpow_pos _), ← two_zpow_natCast_add] at h
    exact h.trans_le (zpow_le_zpow_right₀ one_le_two (by push_cast; omega))

/-- A numeral whose value is no less than half the least float is not cut off by its size. -/
theorem Numeral.le_size {c : ℕ} {e : ℤ} (h : (2 : ℚ) ^ (-1075 : ℤ) ≤ c * 10 ^ e) :
    -400 ≤ (Nat.toDigits 10 c).length + e := by
  have hdigits := lt_ten_pow_length c
  have hbelow : 2 ^ 1075 ≤ 10 ^ 401 := by decide +kernel
  generalize (Nat.toDigits 10 c).length = l at *
  have hp : (0 : ℚ) < 10 ^ e := zpow_pos (by norm_num) e
  by_contra hlt
  have hdigits' : (c : ℚ) < 10 ^ l := by exact_mod_cast hdigits
  have : (c : ℚ) * 10 ^ e < 10 ^ (-401 : ℤ) :=
    calc (c : ℚ) * 10 ^ e < 10 ^ l * 10 ^ e := mul_lt_mul_of_pos_right hdigits' hp
      _ = 10 ^ (l + e) := by rw [zpow_add₀ (by norm_num), zpow_natCast]
      _ ≤ 10 ^ (-401 : ℤ) := zpow_le_zpow_right₀ (by norm_num) (by omega)
  have : (2 : ℚ) ^ (-1075 : ℤ) < 10 ^ (-401 : ℤ) := h.trans_lt this
  rw [zpow_neg, zpow_neg, inv_lt_inv₀ (by positivity) (by positivity)] at this
  have hpow : (2 : ℚ) ^ (1075 : ℤ) ≤ 10 ^ (401 : ℤ) := by exact_mod_cast hbelow
  exact absurd this (not_lt.mpr hpow)

/-- A numeral whose value is less than the end of the floats is not cut off by its size. -/
theorem Numeral.size_le {c : ℕ} {e : ℤ} (hc : 0 < c) (h : (c : ℚ) * 10 ^ e < 2 ^ (1024 : ℤ)) :
    (Nat.toDigits 10 c).length + e ≤ 400 := by
  have hlen : 0 < (Nat.toDigits 10 c).length := Nat.length_toDigits_pos
  have hdigits := ten_pow_length_le hc
  have habove : 2 ^ 1024 ≤ 10 ^ 400 := by decide +kernel
  generalize (Nat.toDigits 10 c).length = l at *
  have hp : (0 : ℚ) < 10 ^ e := zpow_pos (by norm_num) e
  by_contra hlt
  have hdigits' : (10 : ℚ) ^ (l - 1) ≤ c := by exact_mod_cast hdigits
  have : (10 : ℚ) ^ (400 : ℤ) ≤ c * 10 ^ e :=
    calc (10 : ℚ) ^ (400 : ℤ) ≤ 10 ^ (((l - 1 : ℕ) : ℤ) + e) :=
          zpow_le_zpow_right₀ (by norm_num) (by omega)
      _ = 10 ^ (l - 1) * 10 ^ e := by rw [zpow_add₀ (by norm_num), zpow_natCast]
      _ ≤ c * 10 ^ e := mul_le_mul_of_nonneg_right hdigits' hp.le
  have hpow : (2 : ℚ) ^ (1024 : ℤ) ≤ 10 ^ (400 : ℤ) := by exact_mod_cast habove
  exact absurd (this.trans_lt h) (not_lt.mpr hpow)

/-- A numeral that is not cut off by its size is within the reach of the reader of decimals. -/
theorem Numeral.exponent_bounds {c : ℕ} {e : ℤ} (hc : 0 < c)
    (hlow : -400 ≤ (Nat.toDigits 10 c).length + e) (hhigh : (Nat.toDigits 10 c).length + e ≤ 400) :
    -(2048 + c.log2 : ℤ) ≤ e ∧ e ≤ 2048 := by
  have hlen := Nat.length_toDigits_pos (b := 10) (n := c)
  have hlog : (Nat.toDigits 10 c).length - 1 ≤ c.log2 := by
    rw [Nat.le_log2 hc.ne']
    exact (Nat.pow_le_pow_left (by norm_num) _).trans (ten_pow_length_le hc)
  omega

/-- The magnitude of a numeral. -/
def Numeral.value (n : Numeral) : ℚ := n.coefficient * 10 ^ n.exponent

/-- A numeral reads as the float that covers it. -/
theorem Numeral.toFloat_eq {x : Float} (hfin : x.isFinite = true)
    (hM : (Binary.ofFloat x).mantissa ≠ 0) {n : Numeral}
    (hsign : n.negative = (Binary.ofFloat x).negative)
    (hx : (Binary.ofFloat x).Covers n.value) : n.toFloat = x := by
  have hb := Binary.canonical_ofFloat hM
  obtain ⟨hpos, hE, hu⟩ := unpack_of_isFinite hfin hM
  obtain ⟨hlow, hhigh⟩ := hx.bounds hb hE
  have hc : 0 < n.coefficient := by
    rcases n.coefficient.eq_zero_or_pos with h | h
    · rw [Numeral.value, h, Nat.cast_zero, zero_mul] at hlow
      exact absurd hlow (not_le.mpr (two_zpow_pos _))
    · exact h
  have hs1 := Numeral.le_size hlow
  have hs2 := Numeral.size_le hc hhigh
  obtain ⟨he1, he2⟩ := Numeral.exponent_bounds hc hs1 hs2
  have hsci : (Float.ofScientific n.coefficient (n.exponent < 0) n.exponent.natAbs).toModel.unpack =
      .finite .positive (Binary.ofFloat x).mantissa (Binary.ofFloat x).exponent hb.pos := by
    refine ofScientific_eq hb hE (e := n.exponent) ?_ hc hx he1 he2
    by_cases h : n.exponent < 0
    · rw [if_pos (decide_eq_true h)]; omega
    · rw [if_neg (by simpa using h)]; omega
  have hx' : n.toFloat = if n.negative then
      -Float.ofScientific n.coefficient (n.exponent < 0) n.exponent.natAbs
      else Float.ofScientific n.coefficient (n.exponent < 0) n.exponent.natAbs := by
    have h1 : ¬(n.coefficient = 0 ∨ ((Nat.toDigits 10 n.coefficient).length + n.exponent < -400)) := by
      omega
    have h2 : ¬(400 < (Nat.toDigits 10 n.coefficient).length + n.exponent) := by omega
    unfold Numeral.toFloat
    simp only [if_neg h1, if_neg h2]
  -- the magnitude has been read; what is left is the sign
  refine eq_of_unpack_eq ?_
  rw [hu, hx', Binary.sign, ← hsign]
  cases n.negative
  · exact hsci
  · show (Float.Model.pack (Float.ofScientific n.coefficient (n.exponent < 0)
      n.exponent.natAbs).toModel.unpack.neg).unpack = _
    rw [hsci]
    exact hb.unpack_pack hE _

end ChatClient.Decimal
