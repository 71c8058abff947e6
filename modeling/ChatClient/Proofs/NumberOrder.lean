import ChatClient.Number
import ChatClient.Proofs.Floats

/-!
# The order of numbers

A number stands for an extended real number: a whole number for itself, a float for its magnitude
with its sign or for an infinity. What is not a number stands for none. `Number.worth?` is what a
number stands for, and the comparisons of numbers are those of extended reals wherever both sides
stand for one. So they are transitive across whole numbers and floats, which is more than can be
seen from the way in which they are computed.
-/

namespace ChatClient.Decimal

open Float.Model Float.Model.UnpackedFloat

/-! ## Rationals among the extended reals -/

/-- A rational as an extended real. -/
noncomputable def ofRat (q : ℚ) : EReal := ((q : ℝ) : EReal)

theorem ofRat_lt {p q : ℚ} : ofRat p < ofRat q ↔ p < q := by
  rw [ofRat, ofRat, EReal.coe_lt_coe_iff, Rat.cast_lt]

theorem ofRat_le {p q : ℚ} : ofRat p ≤ ofRat q ↔ p ≤ q := by
  rw [ofRat, ofRat, EReal.coe_le_coe_iff, Rat.cast_le]

theorem ofRat_inj {p q : ℚ} (h : ofRat p = ofRat q) : p = q :=
  le_antisymm (ofRat_le.mp h.le) (ofRat_le.mp h.ge)

theorem ofRat_lt_top (q : ℚ) : ofRat q < ⊤ := EReal.coe_lt_top _

theorem bot_lt_ofRat (q : ℚ) : ⊥ < ofRat q := EReal.bot_lt_coe _

theorem compare_ofRat (p q : ℚ) : compare (ofRat p) (ofRat q) = compare p q := by
  rcases lt_trichotomy p q with h | h | h
  · rw [compare_lt_iff_lt.mpr h, compare_lt_iff_lt.mpr (ofRat_lt.mpr h)]
  · rw [compare_eq_iff_eq.mpr h, compare_eq_iff_eq.mpr (congrArg ofRat h)]
  · rw [compare_gt_iff_gt.mpr h, compare_gt_iff_gt.mpr (ofRat_lt.mpr h)]

theorem compare_top_ofRat (q : ℚ) : compare ⊤ (ofRat q) = .gt :=
  compare_gt_iff_gt.mpr (ofRat_lt_top q)

theorem compare_ofRat_top (q : ℚ) : compare (ofRat q) ⊤ = .lt :=
  compare_lt_iff_lt.mpr (ofRat_lt_top q)

theorem compare_bot_ofRat (q : ℚ) : compare ⊥ (ofRat q) = .lt :=
  compare_lt_iff_lt.mpr (bot_lt_ofRat q)

theorem compare_ofRat_bot (q : ℚ) : compare (ofRat q) ⊥ = .gt :=
  compare_gt_iff_gt.mpr (bot_lt_ofRat q)

theorem compare_neg (p q : ℚ) : compare (-p) (-q) = (compare p q).swap := by
  rcases lt_trichotomy p q with h | h | h
  · rw [compare_lt_iff_lt.mpr h, compare_gt_iff_gt.mpr (neg_lt_neg h)]
    rfl
  · rw [compare_eq_iff_eq.mpr h, compare_eq_iff_eq.mpr (congrArg Neg.neg h)]
    rfl
  · rw [compare_gt_iff_gt.mpr h, compare_lt_iff_lt.mpr (neg_lt_neg h)]
    rfl

/-! ## Floats -/

/-- What a float stands for, if it is a number. -/
noncomputable def worth? : UnpackedFloat → Option EReal
  | .notANumber => none
  | .infinity .positive => some ⊤
  | .infinity .negative => some ⊥
  | .zero _ => some (ofRat 0)
  | .finite .positive m e _ => some (ofRat (m * 2 ^ e))
  | .finite .negative m e _ => some (ofRat (-(m * 2 ^ e)))

/-- Mantissa and exponent of a finite float are canonical. -/
def IsFormed : UnpackedFloat → Prop
  | .finite _ m e _ => ∃ b : Binary, b.Canonical ∧ b.mantissa = m ∧ b.exponent = e
  | _ => True

theorem isFormed_unpack (x : Float) : IsFormed x.toModel.unpack := by
  rcases unpack_eq x with h | h | ⟨-, h⟩ | ⟨hpos, -, h⟩
  · rw [h]; trivial
  · rw [h]; trivial
  · rw [h]; trivial
  · rw [h]
    exact ⟨_, Binary.canonical_ofFloat hpos.ne', rfl, rfl⟩

/-- Of two canonical floats the one with the lesser exponent is less. -/
theorem Binary.Canonical.value_lt_of_exponent_lt {b c : Binary} (hb : b.Canonical)
    (hc : c.Canonical) (h : b.exponent < c.exponent) : b.value < c.value := by
  have hleast := hb.least
  have hsmall : (b.mantissa : ℚ) < 2 ^ 53 := by exact_mod_cast hb.small
  have hfull : (2 ^ 52 : ℚ) ≤ c.mantissa := by exact_mod_cast hc.full (by omega)
  calc b.value < 2 ^ 53 * 2 ^ b.exponent := mul_lt_mul_of_pos_right hsmall (two_zpow_pos _)
    _ = 2 ^ 52 * 2 ^ (1 + b.exponent) := by rw [zpow_one_add₀ two_ne_zero]; ring
    _ ≤ 2 ^ 52 * 2 ^ c.exponent :=
        mul_le_mul_of_nonneg_left (zpow_le_zpow_right₀ one_le_two (by omega)) (by positivity)
    _ ≤ c.value := mul_le_mul_of_nonneg_right hfull (two_zpow_pos _).le

/-- Canonical floats compare by exponent, and then by mantissa. -/
theorem Binary.Canonical.compare_value {b c : Binary} (hb : b.Canonical) (hc : c.Canonical) :
    (compare b.exponent c.exponent).then (compare b.mantissa c.mantissa) =
      compare b.value c.value := by
  rcases lt_trichotomy b.exponent c.exponent with h | h | h
  · rw [compare_lt_iff_lt.mpr h, compare_lt_iff_lt.mpr (hb.value_lt_of_exponent_lt hc h)]
    rfl
  · rw [compare_eq_iff_eq.mpr h, Binary.value, Binary.value, ← h]
    show compare b.mantissa c.mantissa = _
    have hp := two_zpow_pos b.exponent
    rcases lt_trichotomy b.mantissa c.mantissa with hm | hm | hm
    · rw [compare_lt_iff_lt.mpr hm, eq_comm, compare_lt_iff_lt]
      exact mul_lt_mul_of_pos_right (by exact_mod_cast hm) hp
    · rw [compare_eq_iff_eq.mpr hm, eq_comm, compare_eq_iff_eq, hm]
    · rw [compare_gt_iff_gt.mpr hm, eq_comm, compare_gt_iff_gt]
      exact mul_lt_mul_of_pos_right (by exact_mod_cast hm) hp
  · rw [compare_gt_iff_gt.mpr h, compare_gt_iff_gt.mpr (hc.value_lt_of_exponent_lt hb h)]
    rfl

/-- The magnitude of a finite float is positive. -/
theorem magnitude_pos {m : ℕ} (hm : 0 < m) (e : ℤ) : (0 : ℚ) < m * 2 ^ e :=
  mul_pos (by exact_mod_cast hm) (two_zpow_pos e)

theorem IsFormed.compare_finite {s s' : Sign} {m m' : ℕ} {e e' : ℤ} {hm : 0 < m} {hm' : 0 < m'}
    (h : IsFormed (.finite s m e hm)) (h' : IsFormed (.finite s' m' e' hm')) :
    (compare e e').then (compare m m') = compare (m * 2 ^ e : ℚ) (m' * 2 ^ e') := by
  obtain ⟨b, hb, rfl, rfl⟩ := h
  obtain ⟨c, hc, rfl, rfl⟩ := h'
  exact hb.compare_value hc

theorem compare_worth_infinity (s : Sign) (v : UnpackedFloat) : (infinity s).compare v =
    (worth? (.infinity s)).bind fun a => (worth? v).map fun b => compare a b := by
  cases v with
  | notANumber => cases s <;> rfl
  | infinity s' =>
      have hends : compare (⊥ : EReal) ⊤ = .lt := compare_lt_iff_lt.mpr bot_lt_top
      have hends' : compare (⊤ : EReal) ⊥ = .gt := compare_gt_iff_gt.mpr bot_lt_top
      have hself (a : EReal) : compare a a = .eq := compare_eq_iff_eq.mpr rfl
      cases s <;> cases s' <;>
        simp only [worth?, Option.bind_some, Option.map_some, hself, hends, hends'] <;> rfl
  | zero s' =>
      cases s <;> simp only [worth?, Option.bind_some, Option.map_some, compare_top_ofRat,
        compare_bot_ofRat] <;> rfl
  | finite s' m e hm =>
      cases s <;> cases s' <;> simp only [worth?, Option.bind_some, Option.map_some,
        compare_top_ofRat, compare_bot_ofRat] <;> rfl

theorem compare_worth_zero (s : Sign) (v : UnpackedFloat) : (zero s).compare v =
    (worth? (.zero s)).bind fun a => (worth? v).map fun b => compare a b := by
  cases v with
  | notANumber => rfl
  | infinity s' =>
      cases s' <;> simp only [worth?, Option.bind_some, Option.map_some, compare_ofRat_top,
        compare_ofRat_bot] <;> rfl
  | zero s' =>
      simp only [worth?, Option.bind_some, Option.map_some, compare_ofRat]
      rfl
  | finite s' m e hm =>
      have hpos := magnitude_pos hm e
      cases s' <;> simp only [worth?, Option.bind_some, Option.map_some, compare_ofRat,
        compare_gt_iff_gt.mpr (neg_lt_zero.mpr hpos), compare_lt_iff_lt.mpr hpos] <;> rfl

theorem compare_worth_finite {s : Sign} {m : ℕ} {e : ℤ} {hm : 0 < m} {v : UnpackedFloat}
    (hu : IsFormed (.finite s m e hm)) (hv : IsFormed v) : (finite s m e hm).compare v =
      (worth? (.finite s m e hm)).bind fun a => (worth? v).map fun b => compare a b := by
  have hpos := magnitude_pos hm e
  cases v with
  | notANumber => cases s <;> rfl
  | infinity s' =>
      cases s <;> cases s' <;> simp only [worth?, Option.bind_some, Option.map_some,
        compare_ofRat_top, compare_ofRat_bot] <;> rfl
  | zero s' =>
      cases s <;> simp only [worth?, Option.bind_some, Option.map_some, compare_ofRat,
        compare_lt_iff_lt.mpr (neg_lt_zero.mpr hpos), compare_gt_iff_gt.mpr hpos] <;> rfl
  | finite s' m' e' hm' =>
      have hpos' := magnitude_pos hm' e'
      have hlt : -(m * 2 ^ e : ℚ) < m' * 2 ^ e' := (neg_lt_zero.mpr hpos).trans hpos'
      have hgt : -(m' * 2 ^ e' : ℚ) < m * 2 ^ e := (neg_lt_zero.mpr hpos').trans hpos
      cases s <;> cases s' <;>
        simp only [worth?, Option.bind_some, Option.map_some, compare_ofRat, compare_neg,
          compare_lt_iff_lt.mpr hlt, compare_gt_iff_gt.mpr hgt, ← hu.compare_finite hv] <;> rfl

/-- **Floats are compared as what they stand for.** -/
theorem compare_worth {u v : UnpackedFloat} (hu : IsFormed u) (hv : IsFormed v) :
    u.compare v = (worth? u).bind fun a => (worth? v).map fun b => compare a b := by
  cases u with
  | notANumber => rfl
  | infinity s => exact compare_worth_infinity s v
  | zero s => exact compare_worth_zero s v
  | finite s m e hm => exact compare_worth_finite hu hv

end ChatClient.Decimal

namespace ChatClient

open Decimal Float.Model Float.Model.UnpackedFloat

/-! ## Numbers -/

/-- What a number stands for. -/
noncomputable def Number.worth? : Number → Option EReal
  | .int n => some (ofRat n)
  | .float x => Decimal.worth? x.toModel.unpack

namespace Number

/-- A finite float as a whole number compares with it. -/
theorem compareInt_eq (b : Binary) (n : ℤ) :
    b.compareInt n = compare (if b.negative then -b.value else b.value) (n : ℚ) := by
  have hdown : (0 : ℚ) < b.down := by
    have : 0 < b.down := Nat.pow_pos two_pos
    exact_mod_cast this
  have hcross (m : ℤ) (q : ℚ) (hq : q = m / b.down) :
      compare m (n * (b.down : ℤ)) = compare q (n : ℚ) := by
    rcases lt_trichotomy m (n * (b.down : ℤ)) with h | h | h
    · rw [compare_lt_iff_lt.mpr h, eq_comm, compare_lt_iff_lt, hq, div_lt_iff₀ hdown]
      exact_mod_cast h
    · rw [compare_eq_iff_eq.mpr h, eq_comm, compare_eq_iff_eq, hq, div_eq_iff hdown.ne']
      exact_mod_cast h
    · rw [compare_gt_iff_gt.mpr h, eq_comm, compare_gt_iff_gt, hq, lt_div_iff₀ hdown]
      exact_mod_cast h
  unfold Binary.compareInt
  refine hcross _ _ ?_
  rw [b.value_eq]
  split
  · push_cast
    rw [neg_div]
  · push_cast
    rfl

theorem worth?_zeroFloat : (Number.float 0.0).worth? = some (ofRat 0) := by
  have hzero : (0.0 : Float).toModel.unpack = .zero .positive := by rfl
  rw [Number.worth?, hzero]
  rfl

/-- How two numbers compare, if both stand for one. -/
noncomputable def order? (a b : Number) : Option Ordering :=
  a.worth?.bind fun x => b.worth?.map fun y => compare x y

theorem order?_eq_some {a b : Number} {o : Ordering} :
    order? a b = some o ↔ ∃ x ∈ a.worth?, ∃ y ∈ b.worth?, compare x y = o := by
  simp only [order?, Option.bind_eq_some_iff, Option.map_eq_some_iff, Option.mem_def]

theorem compare_unpack (x y : Float) :
    x.toModel.unpack.compare y.toModel.unpack = order? (.float x) (.float y) :=
  compare_worth (isFormed_unpack x) (isFormed_unpack y)

theorem float_lt_iff {x y : Float} : x < y ↔ order? (.float x) (.float y) = some .lt := by
  rw [← compare_unpack]
  show decide ((x.toModel.unpack.compare y.toModel.unpack == some .lt) = true) = true ↔ _
  rw [decide_eq_true_iff, beq_iff_eq]

theorem float_le_iff {x y : Float} : x ≤ y ↔
    order? (.float x) (.float y) = some .lt ∨ order? (.float x) (.float y) = some .eq := by
  rw [← compare_unpack]
  show decide ((x.toModel.unpack.compare y.toModel.unpack).any (·.isLE) = true) = true ↔ _
  rw [decide_eq_true_iff]
  rcases x.toModel.unpack.compare y.toModel.unpack with _ | _ | _ | _ <;> simp

/-- A float as a whole number compares with it. -/
theorem compareFloatInt_eq (x : Float) (n : ℤ) :
    compareFloatInt x n = (float x).worth?.map fun a => compare a (ofRat n) := by
  rw [compareFloatInt]
  rcases unpack_eq x with h | h | ⟨hM, h⟩ | ⟨hpos, -, h⟩
  · have hnan : x.isNaN = true := congrArg UnpackedFloat.isNaN h
    rw [if_pos hnan, Number.worth?, h]
    rfl
  · have hnan : x.isNaN = false := congrArg UnpackedFloat.isNaN h
    have hinf : x.isInf = true := congrArg UnpackedFloat.isInf h
    have hnegative : x < 0.0 ↔ (Binary.ofFloat x).negative = true := by
      rw [float_lt_iff, order?_eq_some, worth?_zeroFloat, Number.worth?, h, Binary.sign]
      cases (Binary.ofFloat x).negative <;>
        simp [Decimal.worth?, compare_lt_iff_lt, bot_lt_ofRat]
    rw [hnan, if_neg (by simp), if_pos hinf, Number.worth?, h, Binary.sign]
    simp only [hnegative]
    cases (Binary.ofFloat x).negative
    · exact congrArg some (compare_top_ofRat _).symm
    · exact congrArg some (compare_bot_ofRat _).symm
  · have hnan : x.isNaN = false := congrArg UnpackedFloat.isNaN h
    have hinf : x.isInf = false := congrArg UnpackedFloat.isInf h
    have hzero : (Binary.ofFloat x).value = 0 := by rw [Binary.value, hM, Nat.cast_zero, zero_mul]
    rw [hnan, hinf, if_neg (by simp), if_neg (by simp), compareInt_eq, hzero, neg_zero, ite_self,
      Number.worth?, h]
    exact congrArg some (compare_ofRat 0 n).symm
  · have hnan : x.isNaN = false := congrArg UnpackedFloat.isNaN h
    have hinf : x.isInf = false := congrArg UnpackedFloat.isInf h
    rw [hnan, hinf, if_neg (by simp), if_neg (by simp), compareInt_eq, Number.worth?, h, Binary.sign]
    cases (Binary.ofFloat x).negative
    · exact congrArg some (compare_ofRat _ n).symm
    · exact congrArg some (compare_ofRat _ n).symm

theorem lt_iff_order {a b : Number} : a.lt b = true ↔ order? a b = some .lt := by
  cases a with
  | int m =>
      cases b with
      | int n =>
          show decide (m < n) = true ↔ some (compare (ofRat m) (ofRat n)) = some .lt
          rw [decide_eq_true_iff, compare_ofRat, Option.some_inj, compare_lt_iff_lt, Int.cast_lt]
      | float y =>
          show (compareFloatInt y m == some .gt) = true ↔ _
          rw [beq_iff_eq, compareFloatInt_eq, order?_eq_some]
          simp [Number.worth?, compare_gt_iff_gt, compare_lt_iff_lt]
  | float x =>
      cases b with
      | int n =>
          show (compareFloatInt x n == some .lt) = true ↔ _
          rw [beq_iff_eq, compareFloatInt_eq, order?_eq_some]
          simp [Number.worth?]
      | float y => exact decide_eq_true_iff.trans float_lt_iff

theorem le_iff_order {a b : Number} :
    a.le b = true ↔ order? a b = some .lt ∨ order? a b = some .eq := by
  cases a with
  | int m =>
      cases b with
      | int n =>
          show decide (m ≤ n) = true ↔ some (compare (ofRat m) (ofRat n)) = some .lt ∨
            some (compare (ofRat m) (ofRat n)) = some .eq
          rw [decide_eq_true_iff, compare_ofRat, Option.some_inj, Option.some_inj,
            compare_lt_iff_lt, compare_eq_iff_eq, Int.cast_lt, Int.cast_inj, ← le_iff_lt_or_eq]
      | float y =>
          show (compareFloatInt y m == some .gt || compareFloatInt y m == some .eq) = true ↔ _
          rw [Bool.or_eq_true, beq_iff_eq, beq_iff_eq, compareFloatInt_eq, order?_eq_some,
            order?_eq_some]
          simp [Number.worth?, compare_gt_iff_gt, compare_lt_iff_lt, @eq_comm EReal (ofRat m)]
  | float x =>
      cases b with
      | int n =>
          show (compareFloatInt x n == some .lt || compareFloatInt x n == some .eq) = true ↔ _
          rw [Bool.or_eq_true, beq_iff_eq, beq_iff_eq, compareFloatInt_eq, order?_eq_some,
            order?_eq_some]
          simp [Number.worth?]
      | float y => exact decide_eq_true_iff.trans float_le_iff

/-- One number is less than another if what it stands for is. -/
theorem lt_iff {a b : Number} : a.lt b = true ↔ ∃ x ∈ a.worth?, ∃ y ∈ b.worth?, x < y := by
  rw [lt_iff_order, order?_eq_some]
  simp only [compare_lt_iff_lt]

theorem le_iff {a b : Number} : a.le b = true ↔ ∃ x ∈ a.worth?, ∃ y ∈ b.worth?, x ≤ y := by
  rw [le_iff_order, order?_eq_some, order?_eq_some]
  simp only [compare_lt_iff_lt, compare_eq_iff_eq, le_iff_lt_or_eq, and_or_left, exists_or]

section Worth

variable {a b : Number} {r : EReal}

theorem worth_eq_none : a.worth? = none ↔ ∃ x, a = .float x ∧ x.isNaN = true := by
  cases a with
  | int n => simp [worth?]
  | float x =>
      have hnan : x.isNaN = true ↔ Decimal.worth? x.toModel.unpack = none := by
        show x.toModel.unpack.isNaN = true ↔ _
        rcases x.toModel.unpack with s | _ | s | ⟨s, m, e, hm⟩
        · cases s <;> simp [UnpackedFloat.isNaN, Decimal.worth?]
        · simp [UnpackedFloat.isNaN, Decimal.worth?]
        · simp [UnpackedFloat.isNaN, Decimal.worth?]
        · cases s <;> simp [UnpackedFloat.isNaN, Decimal.worth?]
      rw [worth?, ← hnan]
      exact ⟨fun h => ⟨x, rfl, h⟩, fun ⟨y, hy, h⟩ => float.inj hy ▸ h⟩

/-- Nothing is less than what is not a number, so that is kept. -/
theorem min_of_worth_none (h : a.worth? = none) : a.min b = a := by
  refine if_neg fun hlt => ?_
  obtain ⟨y, -, x, hx, -⟩ := lt_iff.mp hlt
  rw [h] at hx
  exact absurd hx (by simp)

/-- What is not a number is no bound. -/
theorem worth_min (h : a.worth? = some r) : (a.min b).worth? = some (b.worth?.elim r (r ⊓ ·)) := by
  rw [min]
  cases hb : b.worth? with
  | none =>
      have hnot : ¬ b.lt a = true := by
        rw [lt_iff, hb]
        simp
      rw [if_neg hnot, h]
      rfl
  | some y =>
      have hlt : b.lt a = true ↔ y < r := by
        rw [lt_iff, hb, h]
        simp
      by_cases hyr : y < r
      · rw [if_pos (hlt.mpr hyr), hb]
        exact congrArg some (inf_of_le_right hyr.le).symm
      · rw [if_neg (mt hlt.mp hyr), h]
        exact congrArg some (inf_of_le_left (not_lt.mp hyr)).symm

theorem worth_min_le (h : a.worth? = some r) : ∃ z, (a.min b).worth? = some z ∧ z ≤ r := by
  refine ⟨_, worth_min h, ?_⟩
  cases b.worth? with
  | none => exact le_rfl
  | some y => exact inf_le_left

theorem lt_of_worth {x y : EReal} (ha : a.worth? = some x) (hb : b.worth? = some y) :
    a.lt b = true ↔ x < y := by
  rw [lt_iff, ha, hb]
  simp

theorem le_of_worth {x y : EReal} (ha : a.worth? = some x) (hb : b.worth? = some y) :
    a.le b = true ↔ x ≤ y := by
  rw [le_iff, ha, hb]
  simp

theorem worth_zero : zero.worth? = some (ofRat 0) := by
  rw [zero, worth?, Int.cast_zero]

end Worth

end Number

end ChatClient
