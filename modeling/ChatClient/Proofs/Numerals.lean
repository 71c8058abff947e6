import ChatClient.Json.Printer
import ChatClient.Json.Reader
import ChatClient.Proofs.Shortest

/-!
# Numerals are read back

A whole number is written with all its digits, and a float with the shortest ones, as a
decimal or with an exponent. Reading goes the other way: the sign, the whole part, fraction and
exponent are taken off one after the other, each up to the first character that cannot belong to
it. So what is read depends on what follows, and a numeral is read as what was written where
no character of a numeral follows.
-/

namespace ChatClient

/-! ## Digits -/

namespace Text

theorem ofDigits_eq (cs : List Char) : ofDigits cs = Nat.ofDigitChars 10 cs 0 := by
  simp only [ofDigits, Nat.ofDigitChars_eq_foldl, Nat.mul_comm]
  rfl

theorem ofDigits_toDigits (n : ℕ) : ofDigits (Nat.toDigits 10 n) = n := by
  rw [ofDigits_eq, Nat.ofDigitChars_ten_toDigits]

/-- Zeros behind a numeral are powers of ten. -/
theorem ofDigits_append_zeros (cs : List Char) (k : ℕ) :
    ofDigits (cs ++ List.replicate k '0') = ofDigits cs * 10 ^ k := by
  rw [ofDigits_eq, ofDigits_eq, Nat.ofDigitChars_append, Nat.ofDigitChars_replicate_zero, mul_comm]

/-- Zeros before a numeral do not count. -/
theorem ofDigits_zeros_append (cs : List Char) (k : ℕ) :
    ofDigits (List.replicate k '0' ++ cs) = ofDigits cs := by
  rw [ofDigits_eq, ofDigits_eq, Nat.ofDigitChars_append, Nat.ofDigitChars_replicate_zero, mul_zero]

/-- A row of ASCII digits. -/
def AreDigits (cs : List Char) : Prop := ∀ c ∈ cs, isAsciiDigit c = true

theorem areDigits_toDigits (n : ℕ) : AreDigits (Nat.toDigits 10 n) := by
  intro c hc
  have h := Nat.isDigit_of_mem_toDigits (by norm_num) (by norm_num) hc
  simpa [Char.isDigit, isAsciiDigit, Char.le_def] using h

theorem areDigits_zeros (k : ℕ) : AreDigits (List.replicate k '0') := by
  intro c hc
  rw [List.eq_of_mem_replicate hc]
  rfl

theorem AreDigits.append {as bs : List Char} (ha : AreDigits as) (hb : AreDigits bs) :
    AreDigits (as ++ bs) := by
  intro c hc
  exact (List.mem_append.mp hc).elim (ha c) (hb c)

/-- A positive whole number starts with a digit that is not zero. -/
theorem toDigits_eq_cons {n : ℕ} (hn : 0 < n) :
    ∃ d ds, Nat.toDigits 10 n = d :: ds ∧ d ≠ '0' := by
  induction n using Nat.strongRecOn with
  | ind n ih =>
      by_cases h : n < 10
      · refine ⟨n.digitChar, [], Nat.toDigits_of_lt_base h, ?_⟩
        interval_cases n <;> decide
      · obtain ⟨d, ds, hd, h0⟩ := ih (n / 10) (by omega) (by omega)
        exact ⟨d, ds ++ [(n % 10).digitChar],
          by rw [Nat.toDigits_of_base_le (by norm_num) (by omega), hd, List.cons_append], h0⟩

/-- Each digit makes a number ten times as large at most. -/
theorem ofDigits_lt {ds : List Char} (hds : AreDigits ds) : ofDigits ds < 10 ^ ds.length := by
  induction ds using List.reverseRecOn with
  | nil => exact Nat.one_pos
  | append_singleton ds d ih =>
      have hd : d.toNat - 48 < 10 := by
        have hdigit := hds d (List.mem_append_right _ List.mem_cons_self)
        simp only [isAsciiDigit, Bool.and_eq_true, decide_eq_true_eq, Char.le_def,
          UInt32.le_iff_toNat_le] at hdigit
        have hnine : d.toNat ≤ 57 := hdigit.2
        omega
      have ih := ih fun c hc => hds c (List.mem_append_left _ hc)
      have hlast : ofDigits (ds ++ [d]) = ofDigits ds * 10 + (d.toNat - 48) := List.foldl_append
      rw [hlast, List.length_append, List.length_singleton, pow_succ]
      omega

/-- A number has no more digits than a numeral that writes it. -/
theorem length_toDigits_ofDigits {ds : List Char} (hds : AreDigits ds) (hne : ds ≠ []) :
    (Nat.toDigits 10 (ofDigits ds)).length ≤ ds.length :=
  Nat.toDigits_length 10 _ _ (List.length_pos_iff.mpr hne) (ofDigits_lt hds)

/-- What is dropped from the end of a text is a row of the characters dropped. -/
theorem eq_dropEndWhile_append (c : Char) (cs : List Char) :
    ∃ k, cs = dropEndWhile (· == c) cs ++ List.replicate k c := by
  refine ⟨(cs.reverse.takeWhile (· == c)).length, ?_⟩
  have hrow : cs.reverse.takeWhile (· == c) =
      List.replicate (cs.reverse.takeWhile (· == c)).length c := by
    rw [List.eq_replicate_iff]
    refine ⟨rfl, fun a ha => ?_⟩
    have := List.mem_takeWhile_imp ha
    exact beq_iff_eq.mp this
  have h := congrArg List.reverse (List.takeWhile_append_dropWhile (p := (· == c)) (l := cs.reverse))
  rw [List.reverse_append, List.reverse_reverse, hrow, List.reverse_replicate] at h
  exact h.symm

end Text

namespace Decimal

open Text

theorem Numeral.value_mk (negative : Bool) (c : ℕ) (e : ℤ) :
    Numeral.value ⟨negative, c, e⟩ = c * 10 ^ e := rfl

/-- The digits of a float: they start with one that is not zero, and the numeral that they make
with the exponent lies among the reals that round to the float. -/
theorem Binary.Canonical.digits_spec {b : Binary} (hb : b.Canonical) :
    ∃ d ds e, b.digits = (d :: ds, e) ∧ d ≠ '0' ∧ AreDigits (d :: ds) ∧
      b.Covers (ofDigits (d :: ds) * 10 ^ (e + 1 - (d :: ds).length : ℤ)) := by
  have hcovers := hb.covers_shortest
  unfold Binary.digits
  generalize b.target.shortest = s at hcovers ⊢
  obtain ⟨c, e⟩ := s
  dsimp only at hcovers ⊢
  have hc : 0 < c := by
    rcases c.eq_zero_or_pos with h | h
    · have hlow := hcovers.low
      have hpos : (1 : ℚ) ≤ b.mantissa := by exact_mod_cast hb.pos
      rw [h, Nat.cast_zero, zero_mul, zero_div] at hlow
      linarith [b.margin_le]
    · exact h
  obtain ⟨d, ds, hd, h0⟩ := toDigits_eq_cons hc
  obtain ⟨k, hk⟩ := eq_dropEndWhile_append '0' (Nat.toDigits 10 c)
  have hall := areDigits_toDigits c
  have hval := ofDigits_toDigits c
  rw [hk, ofDigits_append_zeros] at hval
  rw [hk] at hall
  have hlen := congrArg List.length hk
  rw [List.length_append, List.length_replicate] at hlen
  generalize dropEndWhile (· == '0') (Nat.toDigits 10 c) = kept at *
  -- the first digit is kept, since it is not zero
  obtain ⟨ds', rfl⟩ : ∃ ds', kept = d :: ds' := by
    rw [hd] at hk
    cases kept with
    | nil =>
        have : d ∈ List.replicate k '0' := by
          rw [← List.nil_append (List.replicate k '0'), ← hk]
          exact List.mem_cons_self
        exact absurd (List.eq_of_mem_replicate this) h0
    | cons a kept =>
        obtain ⟨rfl, -⟩ := List.cons.inj hk
        exact ⟨kept, rfl⟩
  refine ⟨d, ds', _, rfl, h0, fun x hx => hall x (List.mem_append_left _ hx), ?_⟩
  have hexp : (e + (Nat.toDigits 10 c).length - 1 + 1 - ((d :: ds').length : ℤ)) = k + e := by
    omega
  rw [hexp, zpow_add₀ (by norm_num), zpow_natCast, ← mul_assoc]
  have hval' : (ofDigits (d :: ds') : ℚ) * 10 ^ k = c := by exact_mod_cast hval
  rwa [hval']

end Decimal

namespace Json

open Text

/-- Where a numeral ends: no digit, point or mark of an exponent follows. -/
def EndsNumeral (rest : List Char) : Prop :=
  ∀ c ∈ rest.head?, isAsciiDigit c = false ∧ c ≠ '.' ∧ c ≠ 'e' ∧ c ≠ 'E'

theorem spanDigits_append {ds rest : List Char} (hds : AreDigits ds)
    (hrest : ∀ c ∈ rest.head?, isAsciiDigit c = false) :
    Decimal.spanDigits (ds ++ rest) = (ds, rest) := by
  rw [Decimal.spanDigits, List.span_eq_takeWhile_dropWhile, List.takeWhile_append_of_pos hds,
    List.dropWhile_append_of_pos hds]
  cases rest with
  | nil => rw [List.takeWhile_nil, List.dropWhile_nil, List.append_nil]
  | cons c cs =>
      have hc : ¬isAsciiDigit c = true := by rw [hrest c rfl]; decide
      rw [List.takeWhile_cons_of_neg hc, List.dropWhile_cons_of_neg hc, List.append_nil]

/-- The digits before the point of a numeral: a zero, or digits of which the first is none. -/
def IsWhole (ds : List Char) : Prop :=
  ds = ['0'] ∨ ∃ d ds', ds = d :: ds' ∧ d ≠ '0' ∧ AreDigits ds

theorem whole?_append {ds rest : List Char} (hds : IsWhole ds)
    (hrest : ∀ c ∈ rest.head?, isAsciiDigit c = false) :
    whole? (ds ++ rest) = some (ds, rest) := by
  rcases hds with rfl | ⟨d, ds, rfl, h0, hds⟩
  · rfl
  · have hd := hds d List.mem_cons_self
    have hspan := spanDigits_append (fun c hc => hds c (List.mem_cons_of_mem _ hc)) hrest
    simp only [List.cons_append, whole?, hspan, hd, if_neg h0, if_true]

theorem areDigits_of_whole? {cs ds rest : List Char} (h : whole? cs = some (ds, rest)) :
    AreDigits ds ∧ ds ≠ [] := by
  cases cs with
  | nil => exact absurd h (by simp [whole?])
  | cons c cs =>
      simp only [whole?] at h
      split_ifs at h with hzero hdigit
      · obtain ⟨rfl, -⟩ := Prod.mk.inj (Option.some.inj h)
        exact ⟨areDigits_zeros 1, List.cons_ne_nil _ _⟩
      · obtain ⟨rfl, -⟩ := Prod.mk.inj (Option.some.inj h)
        refine ⟨List.forall_mem_cons.mpr ⟨hdigit, fun d hd => ?_⟩, List.cons_ne_nil _ _⟩
        rw [Decimal.spanDigits, List.span_eq_takeWhile_dropWhile] at hd
        exact List.mem_takeWhile_imp hd

theorem fraction_append {frac rest : List Char} (hfrac : AreDigits frac) (hne : frac ≠ [])
    (hrest : ∀ c ∈ rest.head?, isAsciiDigit c = false) :
    fraction ('.' :: (frac ++ rest)) = (some frac, rest) := by
  simp only [fraction, spanDigits_append hfrac hrest]

theorem fraction_none {rest : List Char} (h : ∀ c ∈ rest.head?, c ≠ '.') :
    fraction rest = (none, rest) := by
  unfold fraction
  split
  · exact absurd rfl (h '.' rfl)
  · rfl

theorem exponent_none {rest : List Char} (h : ∀ c ∈ rest.head?, c ≠ 'e' ∧ c ≠ 'E') :
    exponent rest = (none, rest) := by
  cases rest with
  | nil => rfl
  | cons c cs =>
      have hc := h c rfl
      simp only [exponent, hc.1, hc.2, or_self, if_false]

/-- The exponent that a layout writes is read back. -/
theorem exponent_append {l : Decimal.Layout} (hl : l.mark = 'e') (e : ℤ) {rest : List Char}
    (hrest : ∀ c ∈ rest.head?, isAsciiDigit c = false) :
    exponent (l.exponent e ++ rest) = (some e, rest) := by
  unfold Decimal.Layout.exponent
  dsimp only
  generalize hz : List.replicate (l.exponentWidth - (Nat.toDigits 10 e.natAbs).length) '0' = zeros
  have hds : AreDigits (zeros ++ Nat.toDigits 10 e.natAbs) := by
    rw [← hz]
    exact (areDigits_zeros _).append (areDigits_toDigits _)
  have hval : ofDigits (zeros ++ Nat.toDigits 10 e.natAbs) = e.natAbs := by
    rw [← hz, ofDigits_zeros_append, ofDigits_toDigits]
  have hspan := spanDigits_append hds hrest
  have hne : zeros ++ Nat.toDigits 10 e.natAbs ≠ [] := by simp
  generalize zeros ++ Nat.toDigits 10 e.natAbs = ds at hval hspan hne ⊢
  obtain ⟨d, ds, rfl⟩ := List.exists_cons_of_ne_nil hne
  rw [hl]
  by_cases he : e < 0
  · rw [if_pos he]
    simp only [List.cons_append, exponent, Decimal.splitSign] at hspan ⊢
    simp only [hspan, hval, if_true, true_or]
    rw [show -(e.natAbs : ℤ) = e by omega]
  · rw [if_neg he]
    simp only [List.cons_append, exponent, Decimal.splitSign] at hspan ⊢
    simp only [hspan, hval, if_true, true_or, Bool.false_eq_true, if_false]
    rw [show (e.natAbs : ℤ) = e by omega]

/-- A numeral with a point or an exponent is read as a float. -/
theorem unsigned?_float (negative : Bool) {ds rest rest' rest'' : List Char}
    {frac : Option (List Char)} {e : Option ℤ} (hds : IsWhole ds)
    (hrest : ∀ c ∈ rest.head?, isAsciiDigit c = false) (hf : fraction rest = (frac, rest'))
    (he : exponent rest' = (e, rest'')) (hfloat : frac ≠ none ∨ e ≠ none) :
    unsigned? negative (ds ++ rest) =
      some (.float (Decimal.Numeral.toFloat
        ⟨negative, ofDigits (ds ++ frac.getD []), e.getD 0 - (frac.getD []).length⟩), rest'') := by
  unfold unsigned?
  rw [whole?_append hds hrest]
  simp only [Option.bind_some, hf, he]
  -- a numeral is a whole number only without both
  rw [if_neg]
  rintro ⟨h1, h2⟩
  rcases hfloat with h | h
  · exact h (Option.isNone_iff_eq_none.mp h1)
  · exact h (Option.isNone_iff_eq_none.mp h2)

theorem not_digit_point (cs : List Char) : ∀ c ∈ ('.' :: cs).head?, isAsciiDigit c = false := by
  rintro c ⟨⟩
  rfl

/-- A numeral with a point and no exponent. -/
theorem unsigned?_point (negative : Bool) {ds frac rest : List Char} (hds : IsWhole ds)
    (hfrac : AreDigits frac) (hne : frac ≠ []) (hrest : EndsNumeral rest) :
    unsigned? negative (ds ++ '.' :: (frac ++ rest)) =
      some (.float (Decimal.Numeral.toFloat ⟨negative, ofDigits (ds ++ frac), -frac.length⟩),
        rest) := by
  have h := unsigned?_float negative hds (not_digit_point _)
    (fraction_append hfrac hne fun c hc => (hrest c hc).1)
    (exponent_none fun c hc => (hrest c hc).2.2) (.inl (by simp))
  rw [h, Option.getD_some, Option.getD_none, zero_sub]

/-- A numeral with one digit before the point and an exponent. -/
theorem unsigned?_scientific {l : Decimal.Layout} (hl : l.mark = 'e') (negative : Bool) {d : Char}
    {ds rest : List Char} (e : ℤ) (h0 : d ≠ '0') (hds : AreDigits (d :: ds))
    (hrest : EndsNumeral rest) :
    unsigned? negative
        ([d] ++ ((if ds.isEmpty then [] else '.' :: ds) ++ (l.exponent e ++ rest))) =
      some (.float (Decimal.Numeral.toFloat ⟨negative, ofDigits (d :: ds), e - ds.length⟩),
        rest) := by
  have hd : IsWhole [d] := by
    refine .inr ⟨d, [], rfl, h0, fun c hc => hds c ?_⟩
    rw [List.mem_singleton.mp hc]
    exact List.mem_cons_self
  have hexp := exponent_append hl e fun c hc => (hrest c hc).1
  have hmark : ∀ c ∈ (l.exponent e ++ rest).head?, isAsciiDigit c = false ∧ c ≠ '.' := by
    have : (l.exponent e ++ rest).head? = some 'e' := by rw [← hl]; rfl
    rw [this]
    rintro c ⟨⟩
    decide
  cases ds with
  | nil =>
      have h := unsigned?_float negative hd (fun c hc => (hmark c hc).1)
        (fraction_none fun c hc => (hmark c hc).2) hexp (.inr (by simp))
      simpa using h
  | cons a ds =>
      have hfrac : AreDigits (a :: ds) := fun c hc => hds c (List.mem_cons_of_mem _ hc)
      have h := unsigned?_float negative hd (not_digit_point _)
        (fraction_append hfrac (by simp) fun c hc => (hmark c hc).1) hexp (.inl (by simp))
      simpa using h

/-- The numeral of a layout reads as a float of the same value. -/
theorem unsigned?_numeral {l : Decimal.Layout} (hl : l.mark = 'e') (negative : Bool) {d : Char}
    {ds rest : List Char} (e : ℤ) (h0 : d ≠ '0') (hds : AreDigits (d :: ds))
    (hrest : EndsNumeral rest) :
    ∃ n : Decimal.Numeral, n.negative = negative ∧
      n.value = ofDigits (d :: ds) * 10 ^ (e + 1 - (d :: ds).length : ℤ) ∧
      unsigned? negative (l.numeral (d :: ds) e ++ rest) = some (.float n.toFloat, rest) := by
  unfold Decimal.Layout.numeral
  split_ifs with hpos hneg
  · -- below one: zeros and the digits behind the point
    have hfrac := (areDigits_zeros (-e - 1).toNat).append hds
    have h := unsigned?_point negative (.inl rfl) hfrac (by simp) hrest
    rw [show ['0'] = List.replicate 1 '0' from rfl, ofDigits_zeros_append,
      ofDigits_zeros_append] at h
    refine ⟨_, rfl, ?_, h⟩
    rw [Decimal.Numeral.value_mk, List.length_append, List.length_replicate]
    congr 2
    omega
  · -- the point is behind digit `e + 1`, with zeros if there are not so many
    obtain ⟨k, rfl⟩ := Int.eq_ofNat_of_zero_le (not_lt.mp hneg)
    rw [Int.toNat_natCast]
    have hwhole : IsWhole ((d :: ds).take (k + 1) ++
        List.replicate (k + 1 - (d :: ds).length) '0') := by
      refine .inr ⟨d, _, rfl, h0, ?_⟩
      exact AreDigits.append (fun c hc => hds c (List.mem_of_mem_take hc)) (areDigits_zeros _)
    by_cases hlen : (d :: ds).length ≤ k + 1
    · have h := unsigned?_point negative hwhole (areDigits_zeros 1) (by simp) hrest
      rw [ofDigits_append_zeros, List.take_of_length_le hlen, ofDigits_append_zeros,
        pow_one, List.length_replicate] at h
      dsimp only
      rw [List.take_of_length_le hlen, List.drop_of_length_le hlen, List.append_assoc]
      refine ⟨⟨negative, ofDigits (d :: ds) * 10 ^ (k + 1 - (d :: ds).length) * 10, -1⟩, rfl,
        ?_, h⟩
      rw [Decimal.Numeral.value_mk]
      push_cast
      rw [mul_assoc, mul_assoc, ← zpow_natCast, ← zpow_one_add₀ (by norm_num),
        ← zpow_add₀ (by norm_num)]
      congr 2
      omega
    · have hfrac : AreDigits ((d :: ds).drop (k + 1)) := fun c hc => hds c (List.mem_of_mem_drop hc)
      have hne : (d :: ds).drop (k + 1) ≠ [] := by
        rw [Ne, List.drop_eq_nil_iff]
        exact hlen
      have h := unsigned?_point negative hwhole hfrac hne hrest
      rw [Nat.sub_eq_zero_of_le (by omega), List.replicate_zero, List.append_nil,
        List.take_append_drop] at h
      dsimp only
      rw [Nat.sub_eq_zero_of_le (by omega), List.replicate_zero, List.append_nil,
        if_neg (by rwa [List.isEmpty_iff]), List.append_assoc]
      refine ⟨⟨negative, ofDigits (d :: ds), -((d :: ds).drop (k + 1)).length⟩, rfl, ?_, h⟩
      rw [Decimal.Numeral.value_mk, List.length_drop]
      congr 2
      omega
  · have h := unsigned?_scientific hl negative e h0 hds hrest
    refine ⟨_, rfl, ?_, by simpa only [List.take_succ_cons, List.take_zero,
      List.drop_succ_cons, List.drop_zero, List.append_assoc] using h⟩
    rw [Decimal.Numeral.value_mk, List.length_cons]
    congr 2
    push_cast
    ring

theorem numeral_eq_cons (l : Decimal.Layout) {d : Char} {ds : List Char} (e : ℤ)
    (hds : AreDigits (d :: ds)) :
    ∃ c cs, l.numeral (d :: ds) e = c :: cs ∧ isAsciiDigit c = true := by
  unfold Decimal.Layout.numeral
  split_ifs
  · exact ⟨_, _, rfl, rfl⟩
  · exact ⟨_, _, rfl, hds d List.mem_cons_self⟩
  · exact ⟨_, _, rfl, hds d List.mem_cons_self⟩

/-- Before a digit there is only the sign to look at. -/
theorem scalar?_digit {c : Char} (hc : isAsciiDigit c = true) (cs : List Char) :
    scalar? (c :: cs) = unsigned? false (c :: cs) := by
  unfold scalar?
  split
  all_goals
    first
    | rfl
    | next heq =>
      obtain ⟨rfl, -⟩ := List.cons.inj heq
      exact absurd hc (by decide)

theorem scalar?_minus_digit {c : Char} (hc : isAsciiDigit c = true) (cs : List Char) :
    scalar? ('-' :: c :: cs) = unsigned? true (c :: cs) := by
  -- with an `I` it would have to be the word for minus infinity
  have hI : c ≠ 'I' := by
    rintro rfl
    exact absurd hc (by decide)
  simp [scalar?, hI]

/-- Two infinite floats of one sign are the same. -/
theorem eq_of_isInf {x y : Float} (hx : x.isInf = true) (hy : y.isInf = true)
    (h : (Decimal.Binary.ofFloat x).negative = (Decimal.Binary.ofFloat y).negative) : x = y := by
  have key (z : Float) (hz : z.isInf = true) :
      z.toModel.unpack = .infinity (Decimal.Binary.ofFloat z).sign := by
    have hz : z.toModel.unpack.isInf = true := hz
    rcases Decimal.unpack_eq z with h | h | ⟨-, h⟩ | ⟨_, -, h⟩
    · simp [h, Float.Model.UnpackedFloat.isInf] at hz
    · exact h
    · simp [h, Float.Model.UnpackedFloat.isInf] at hz
    · simp [h, Float.Model.UnpackedFloat.isInf] at hz
  refine Decimal.eq_of_unpack_eq ?_
  rw [key x hx, key y hy, Decimal.Binary.sign, Decimal.Binary.sign, h]

/-- Two zeros of one sign are the same. -/
theorem eq_of_zero {x y : Float} (hx : x.isFinite = true) (hy : y.isFinite = true)
    (hx0 : (Decimal.Binary.ofFloat x).mantissa = 0) (hy0 : (Decimal.Binary.ofFloat y).mantissa = 0)
    (h : (Decimal.Binary.ofFloat x).negative = (Decimal.Binary.ofFloat y).negative) : x = y := by
  have key (z : Float) (hz : z.isFinite = true) (h0 : (Decimal.Binary.ofFloat z).mantissa = 0) :
      z.toModel.unpack = .zero (Decimal.Binary.ofFloat z).sign := by
    have hz : z.toModel.unpack.isFinite = true := hz
    rcases Decimal.unpack_eq z with h | h | ⟨-, h⟩ | ⟨hpos, -, -⟩
    · simp [h, Float.Model.UnpackedFloat.isFinite] at hz
    · simp [h, Float.Model.UnpackedFloat.isFinite] at hz
    · exact h
    · exact absurd h0 hpos.ne'
  refine Decimal.eq_of_unpack_eq ?_
  rw [key x hx hx0, key y hy hy0, Decimal.Binary.sign, Decimal.Binary.sign, h]

theorem isFinite_of_not {x : Float} (hnan : ¬x.isNaN = true) (hinf : ¬x.isInf = true) :
    x.isFinite = true := by
  have hnan : ¬x.toModel.unpack.isNaN = true := hnan
  have hinf : ¬x.toModel.unpack.isInf = true := hinf
  show x.toModel.unpack.isFinite = true
  cases hu : x.toModel.unpack <;> simp_all [Float.Model.UnpackedFloat.isFinite,
    Float.Model.UnpackedFloat.isNaN, Float.Model.UnpackedFloat.isInf]

theorem scalar?_nan {x : Float} (hnan : x.isNaN = true) (rest : List Char) :
    scalar? (floatLayout.nan.toList ++ rest) = some (.float x, rest) := by
  have hy : (0.0 / 0.0 : Float).isNaN = true := by decide +kernel
  rw [Float.isNaN_eq_decide_eq_nan, decide_eq_true_eq] at hnan hy
  have htext : floatLayout.nan.toList = ['N', 'a', 'N'] := String.toList_ofList
  rw [htext, hnan, ← hy]
  rfl

theorem scalar?_infinity {x : Float} (hinf : x.isInf = true) (rest : List Char) :
    scalar? ((if (Decimal.Binary.ofFloat x).negative then ['-'] else []) ++
      floatLayout.infinity.toList ++ rest) = some (.float x, rest) := by
  have htext : floatLayout.infinity.toList = 'I' :: "nfinity".toList :=
    String.toList_ofList.trans (congrArg ('I' :: ·) String.toList_ofList.symm)
  have hafter : after? "nfinity".toList ("nfinity".toList ++ rest) = some rest :=
    after?_eq_some_iff.mpr rfl
  rw [htext]
  cases hneg : (Decimal.Binary.ofFloat x).negative
  · -- the reader makes its infinities as quotients
    rw [eq_of_isInf hinf (y := 1.0 / 0.0) (by decide +kernel) (hneg.trans (by decide +kernel))]
    show (after? "nfinity".toList ("nfinity".toList ++ rest)).map _ = _
    rw [hafter, Option.map_some]
  · rw [eq_of_isInf hinf (y := -1.0 / 0.0) (by decide +kernel) (hneg.trans (by decide +kernel))]
    show (after? "nfinity".toList ("nfinity".toList ++ rest)).map _ = _
    rw [hafter, Option.map_some]

/-- A signed numeral that starts with a digit. -/
theorem scalar?_signed (negative : Bool) {c : Char} {cs : List Char} (hc : isAsciiDigit c = true) :
    scalar? ((if negative then ['-'] else []) ++ c :: cs) = unsigned? negative (c :: cs) := by
  cases negative
  · exact scalar?_digit hc cs
  · exact scalar?_minus_digit hc cs

theorem scalar?_zero {x : Float} (hfin : x.isFinite = true)
    (h0 : (Decimal.Binary.ofFloat x).mantissa = 0) {rest : List Char} (hrest : EndsNumeral rest) :
    scalar? ((if (Decimal.Binary.ofFloat x).negative then ['-'] else []) ++ ['0', '.', '0'] ++
      rest) = some (.float x, rest) := by
  have h := unsigned?_point (Decimal.Binary.ofFloat x).negative (.inl rfl) (areDigits_zeros 1)
    (by simp) hrest
  rw [List.append_assoc]
  show scalar? (_ ++ '0' :: _) = _
  rw [scalar?_signed _ rfl]
  refine h.trans ?_
  cases hneg : (Decimal.Binary.ofFloat x).negative
  · rw [eq_of_zero hfin (y := 0.0) (by decide +kernel) h0 (by decide +kernel)
      (hneg.trans (by decide +kernel))]
    rfl
  · rw [eq_of_zero hfin (y := -0.0) (by decide +kernel) h0 (by decide +kernel)
      (hneg.trans (by decide +kernel))]
    rfl

/-- The text of a float reads as the float. -/
theorem scalar?_text (x : Float) {rest : List Char} (hrest : EndsNumeral rest) :
    scalar? (floatLayout.text x ++ rest) = some (.float x, rest) := by
  unfold Decimal.Layout.text
  by_cases hnan : x.isNaN = true
  · rw [if_pos hnan]
    exact scalar?_nan hnan rest
  rw [if_neg hnan]
  dsimp only
  by_cases hinf : x.isInf = true
  · rw [if_pos hinf]
    exact scalar?_infinity hinf rest
  rw [if_neg hinf]
  have hfin := isFinite_of_not hnan hinf
  by_cases h0 : (Decimal.Binary.ofFloat x).mantissa = 0
  · rw [if_pos h0]
    exact scalar?_zero hfin h0 hrest
  rw [if_neg h0]
  -- the numeral lies among the reals that round to the float
  obtain ⟨d, ds, e, hdigits, hd, hds, hcovers⟩ := (Decimal.Binary.canonical_ofFloat h0).digits_spec
  obtain ⟨n, hneg, hval, hread⟩ := unsigned?_numeral (l := floatLayout) rfl
    (Decimal.Binary.ofFloat x).negative e hd hds hrest
  obtain ⟨c, cs, hcons, hc⟩ := numeral_eq_cons floatLayout e hds
  rw [← hval] at hcovers
  rw [hdigits, List.append_assoc, hcons, List.cons_append, scalar?_signed _ hc, ← List.cons_append,
    ← hcons, hread, Decimal.Numeral.toFloat_eq hfin h0 hneg hcovers]

theorem isWhole_toDigits (n : ℕ) : IsWhole (Nat.toDigits 10 n) := by
  rcases n.eq_zero_or_pos with rfl | hn
  · exact .inl rfl
  · obtain ⟨d, ds, hd, h0⟩ := toDigits_eq_cons hn
    exact .inr ⟨d, ds, hd, h0, areDigits_toDigits n⟩

/-- A whole number without its sign, if it is not too long. -/
theorem unsigned?_toDigits (negative : Bool) {n : ℕ}
    (hn : (Nat.toDigits 10 n).length ≤ Decimal.maxDigits) {rest : List Char}
    (hrest : EndsNumeral rest) :
    unsigned? negative (Nat.toDigits 10 n ++ rest) =
      some (.int (if negative then -(n : ℤ) else n), rest) := by
  have hwhole := whole?_append (isWhole_toDigits n) fun c hc => (hrest c hc).1
  have hfrac := fraction_none fun c hc => (hrest c hc).2.1
  have hexp := exponent_none fun c hc => (hrest c hc).2.2
  unfold unsigned?
  simp only [hwhole, Option.bind_some, hfrac, hexp, ofDigits?, if_pos hn, ofDigits_toDigits]
  rfl

/-- The text of a whole number reads as the number, if it is not too long. -/
theorem scalar?_wholeText {n : ℤ} (hn : (Nat.toDigits 10 n.natAbs).length ≤ Decimal.maxDigits)
    {rest : List Char} (hrest : EndsNumeral rest) :
    scalar? (Decimal.wholeText n ++ rest) = some (.int n, rest) := by
  have hcons (k : ℕ) : ∃ c cs, Nat.toDigits 10 k = c :: cs ∧ isAsciiDigit c = true := by
    obtain ⟨c, cs, h⟩ := List.exists_cons_of_ne_nil (Nat.toDigits_ne_nil (b := 10) (n := k))
    exact ⟨c, cs, h, areDigits_toDigits k c (h ▸ List.mem_cons_self)⟩
  cases n with
  | ofNat n =>
      obtain ⟨c, cs, h, hc⟩ := hcons n
      have hread := unsigned?_toDigits false (n := n) hn hrest
      rw [Decimal.wholeText]
      rw [h, List.cons_append] at hread ⊢
      rw [scalar?_digit hc, hread]
      rfl
  | negSucc n =>
      obtain ⟨c, cs, h, hc⟩ := hcons (n + 1)
      have hread := unsigned?_toDigits true (n := n + 1) hn hrest
      rw [Decimal.wholeText]
      rw [h, List.cons_append] at hread ⊢
      rw [List.cons_append, scalar?_minus_digit hc, hread]
      rfl

end Json

end ChatClient
