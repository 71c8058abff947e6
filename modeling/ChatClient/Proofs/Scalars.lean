import Mathlib.Data.List.TakeDrop
import Mathlib.Tactic.SplitIfs
import ChatClient.Proofs.JsonText

/-!
# Where a scalar ends

A word or a numeral in a JSON text ends where a character follows that neither of them goes on
with. So it is read in the same way whatever stands behind such a character, which is what makes
the reading of a text a matter of its parts.
-/

namespace ChatClient.Json

open Text

/-- A character that words and numerals do not go on with. -/
def isStop (c : Char) : Bool := !c.isAlphanum && c ∉ ['+', '-', '.']

/-- The text is at its end, or the next character is a stop. -/
def Stops (rest : List Char) : Prop := ∀ c ∈ rest.head?, isStop c = true

theorem stops_cons {c : Char} (hc : isStop c = true) (cs : List Char) : Stops (c :: cs) := by
  intro d hd
  obtain rfl := Option.some.inj hd
  exact hc

variable {rest : List Char}

theorem isStop_of_all {cs : List Char} (h : cs.all (fun c => !isStop c) = true) :
    ∀ c ∈ cs, isStop c = false :=
  fun c hc => by simpa using List.all_eq_true.mp h c hc

/-- A stop is none of the characters of words and numerals. -/
theorem Stops.ne {c d : Char} {cs : List Char} (h : Stops (d :: cs)) (hc : isStop c = false) :
    d ≠ c := by
  rintro rfl
  exact absurd ((h d rfl).symm.trans hc) (by decide)

theorem isDigit_of_isAsciiDigit {c : Char} (h : isAsciiDigit c = true) : c.isDigit = true := by
  simp only [isAsciiDigit, Bool.and_eq_true, decide_eq_true_eq] at h
  simp only [Char.isDigit, Bool.and_eq_true, decide_eq_true_eq]
  exact h

theorem Stops.not_digit (h : Stops rest) : ∀ c ∈ rest.head?, isAsciiDigit c = false := by
  intro c hc
  have hstop := h c hc
  by_contra hd
  have hdigit := isDigit_of_isAsciiDigit ((Bool.not_eq_false _).mp hd)
  simp [isStop, Char.isAlphanum, hdigit] at hstop

/-! ## Numerals -/

theorem spanDigits_stop (cs : List Char) (h : Stops rest) :
    Decimal.spanDigits (cs ++ rest) =
      ((Decimal.spanDigits cs).1, (Decimal.spanDigits cs).2 ++ rest) := by
  unfold Decimal.spanDigits
  rw [List.span_eq_takeWhile_dropWhile, List.span_eq_takeWhile_dropWhile]
  induction cs with
  | nil =>
      cases rest with
      | nil => rfl
      | cons c cs =>
          have hc : ¬isAsciiDigit c = true := by rw [h.not_digit c rfl]; decide
          rw [List.nil_append, List.takeWhile_cons_of_neg hc, List.dropWhile_cons_of_neg hc]
          rfl
  | cons c cs ih =>
      obtain ⟨htake, hdrop⟩ := Prod.mk.inj ih
      by_cases hc : isAsciiDigit c = true
      · rw [List.cons_append, List.takeWhile_cons_of_pos hc, List.dropWhile_cons_of_pos hc,
          List.takeWhile_cons_of_pos hc, List.dropWhile_cons_of_pos hc, htake, hdrop]
      · rw [List.cons_append, List.takeWhile_cons_of_neg hc, List.dropWhile_cons_of_neg hc,
          List.takeWhile_cons_of_neg hc, List.dropWhile_cons_of_neg hc]
        rfl

theorem splitSign_stop (cs : List Char) (h : Stops rest) :
    Decimal.splitSign (cs ++ rest) =
      ((Decimal.splitSign cs).1, (Decimal.splitSign cs).2 ++ rest) := by
  cases cs with
  | nil =>
      cases rest with
      | nil => rfl
      | cons c cs =>
          have hminus := h.ne (c := '-') rfl
          have hplus := h.ne (c := '+') rfl
          unfold Decimal.splitSign
          split
          · next heq => exact absurd (List.cons.inj heq).1 hminus
          · next heq => exact absurd (List.cons.inj heq).1 hplus
          · rfl
  | cons c cs =>
      by_cases hminus : c = '-'
      · subst hminus
        rfl
      · by_cases hplus : c = '+'
        · subst hplus
          rfl
        · have hsign (ds : List Char) : Decimal.splitSign (c :: ds) = (false, c :: ds) := by
            unfold Decimal.splitSign
            split
            · next heq => exact absurd (List.cons.inj heq).1 hminus
            · next heq => exact absurd (List.cons.inj heq).1 hplus
            · rfl
          rw [List.cons_append, hsign, hsign]
          rfl

theorem fraction_stop (cs : List Char) (h : Stops rest) :
    fraction (cs ++ rest) = ((fraction cs).1, (fraction cs).2 ++ rest) := by
  cases cs with
  | nil =>
      exact fraction_none fun c hc => by
        rintro rfl
        exact absurd (h '.' hc) (by decide)
  | cons c cs =>
      by_cases hpoint : c = '.'
      · subst hpoint
        simp only [List.cons_append, fraction, spanDigits_stop cs h]
        generalize Decimal.spanDigits cs = p
        obtain ⟨ds, tail⟩ := p
        cases ds <;> rfl
      · have hnone (ds : List Char) : fraction (c :: ds) = (none, c :: ds) :=
          fraction_none fun d hd => by
            obtain rfl := Option.some.inj hd
            exact hpoint
        rw [List.cons_append, hnone, hnone]
        rfl

theorem exponent_stop (cs : List Char) (h : Stops rest) :
    exponent (cs ++ rest) = ((exponent cs).1, (exponent cs).2 ++ rest) := by
  cases cs with
  | nil =>
      exact exponent_none fun c hc => by
        constructor <;> rintro rfl <;> exact absurd (h _ hc) (by decide)
  | cons c cs =>
      by_cases hmark : c = 'e' ∨ c = 'E'
      · simp only [List.cons_append, exponent, if_pos hmark, splitSign_stop cs h,
          spanDigits_stop _ h]
        generalize Decimal.spanDigits (Decimal.splitSign cs).2 = p
        obtain ⟨ds, tail⟩ := p
        cases ds <;> rfl
      · simp only [List.cons_append, exponent, if_neg hmark]

theorem whole?_stop (cs : List Char) (h : Stops rest) :
    whole? (cs ++ rest) = (whole? cs).map fun (ds, tail) => (ds, tail ++ rest) := by
  cases cs with
  | nil =>
      cases rest with
      | nil => rfl
      | cons c cs =>
          have hc := h.not_digit c rfl
          have hzero := h.ne (c := '0') rfl
          simp [whole?, hc, hzero]
  | cons c cs =>
      unfold whole?
      simp only [List.cons_append, spanDigits_stop cs h]
      split_ifs <;> rfl

theorem unsigned?_stop (negative : Bool) (cs : List Char) (h : Stops rest) :
    unsigned? negative (cs ++ rest) =
      (unsigned? negative cs).map fun (v, tail) => (v, tail ++ rest) := by
  unfold unsigned?
  rw [whole?_stop cs h, Option.bind_map, Option.map_bind]
  refine congrArg (fun f => (whole? cs).bind f) (funext fun p => ?_)
  simp only [Function.comp_apply, fraction_stop _ h, exponent_stop _ h]
  split_ifs
  · rw [Option.map_map]
    rfl
  · rfl

/-! ## Words -/

theorem after?_stop {word : List Char} (hword : ∀ c ∈ word, isStop c = false) (cs : List Char)
    (h : Stops rest) : after? word (cs ++ rest) = (after? word cs).map (· ++ rest) := by
  induction word generalizing cs with
  | nil => rfl
  | cons c word ih =>
      obtain ⟨hc, hword⟩ := List.forall_mem_cons.mp hword
      cases cs with
      | nil =>
          cases rest with
          | nil => rfl
          | cons d ds =>
              simp [after?, (h.ne hc).symm]
      | cons d cs =>
          simp only [List.cons_append, after?]
          split_ifs
          · exact ih hword cs
          · rfl

/-- No word starts with this character, so a scalar that does is a numeral. -/
theorem scalar?_of_notMem {c : Char} (hc : c ∉ ['n', 't', 'f', 'N', 'I', '-']) (cs : List Char) :
    scalar? (c :: cs) = unsigned? false (c :: cs) := by
  simp only [List.mem_cons, List.not_mem_nil, or_false, not_or] at hc
  unfold scalar?
  split
  case h_8 => rfl
  all_goals
    next heq =>
      obtain ⟨rfl, -⟩ := List.cons.inj heq
      simp at hc

/-- The words, each without its first letter, and what they stand for. -/
def words : List (Char × List Char × Json) := [
  ('n', ['u', 'l', 'l'], .null),
  ('t', ['r', 'u', 'e'], .bool true),
  ('f', ['a', 'l', 's', 'e'], .bool false),
  ('N', ['a', 'N'], .float (0.0 / 0.0)),
  ('I', ['n', 'f', 'i', 'n', 'i', 't', 'y'], .float (1.0 / 0.0))]

/-- A scalar that starts as a word does is that word. -/
theorem scalar?_word {c : Char} {word : List Char} {v : Json} (hmem : (c, word, v) ∈ words)
    (cs : List Char) : scalar? (c :: cs) = (after? word cs).map fun tail => (v, tail) := by
  simp only [words, List.mem_cons, List.not_mem_nil, or_false, Prod.mk.injEq] at hmem
  cases hword : after? word cs with
  | some tail =>
      obtain rfl := after?_eq_some_iff.mp hword
      rcases hmem with ⟨rfl, rfl, rfl⟩ | ⟨rfl, rfl, rfl⟩ | ⟨rfl, rfl, rfl⟩ | ⟨rfl, rfl, rfl⟩ |
        ⟨rfl, rfl, rfl⟩ <;> rfl
  | none =>
      have hnone (tail : List Char) : cs ≠ word ++ tail := fun h =>
        absurd (hword.symm.trans (after?_eq_some_iff.mpr h)) (by simp)
      rcases hmem with ⟨rfl, rfl, rfl⟩ | ⟨rfl, rfl, rfl⟩ | ⟨rfl, rfl, rfl⟩ | ⟨rfl, rfl, rfl⟩ |
        ⟨rfl, rfl, rfl⟩
      all_goals
        unfold scalar?
        split
        all_goals first
          | rfl
          | (next heq => exact absurd (List.cons.inj heq).1 (by decide))
          | (next heq => exact absurd (List.cons.inj heq).2 (hnone _))
          | (next heq =>
              rw [← (List.cons.inj heq).2]
              exact congrArg (Option.map _) hword)

theorem words_noStop : ∀ w ∈ words, ∀ c ∈ w.2.1, isStop c = false := by
  intro w hw
  simp only [words, List.mem_cons, List.not_mem_nil, or_false] at hw
  rcases hw with rfl | rfl | rfl | rfl | rfl <;> exact isStop_of_all (by decide)

theorem scalar?_minus {cs : List Char} (hcs : cs.head? ≠ some 'I') :
    scalar? ('-' :: cs) = unsigned? true cs := by
  unfold scalar?
  split
  all_goals first
    | (next heq => exact absurd (List.cons.inj heq).1 (by decide))
    | skip
  · next heq =>
    rw [(List.cons.inj heq).2] at hcs
    exact absurd rfl hcs
  · next heq => rw [(List.cons.inj heq).2]
  · next hminus => exact absurd rfl (hminus cs)

theorem scalar?_minus_stop (cs : List Char) (h : Stops rest) :
    scalar? ('-' :: (cs ++ rest)) =
      (scalar? ('-' :: cs)).map fun (v, tail) => (v, tail ++ rest) := by
  by_cases hword : cs.head? = some 'I'
  · obtain ⟨cs, rfl⟩ := List.head?_eq_some_iff.mp hword
    show (after? ['n', 'f', 'i', 'n', 'i', 't', 'y'] (cs ++ rest)).map _ =
      ((after? ['n', 'f', 'i', 'n', 'i', 't', 'y'] cs).map _).map _
    rw [after?_stop (isStop_of_all (by decide)) cs h, Option.map_map, Option.map_map]
    rfl
  · have hword' : (cs ++ rest).head? ≠ some 'I' := by
      cases cs with
      | nil => exact fun hc => absurd (h 'I' hc) (by decide)
      | cons c cs => exact hword
    rw [scalar?_minus hword', scalar?_minus hword]
    exact unsigned?_stop true cs h

/-- **What stands behind a stop does not matter to a scalar.** -/
theorem scalar?_stop (cs : List Char) (h : Stops rest) :
    scalar? (cs ++ rest) = (scalar? cs).map fun (v, tail) => (v, tail ++ rest) := by
  cases cs with
  | nil =>
      cases rest with
      | nil => rfl
      | cons c rest =>
          have hc : c ∉ ['n', 't', 'f', 'N', 'I', '-'] := by
            intro hc
            exact h.ne (isStop_of_all (by decide) c hc) rfl
          rw [List.nil_append, scalar?_of_notMem hc]
          exact unsigned?_stop false [] h
  | cons c cs =>
      by_cases hword : c ∈ words.map (·.1)
      · obtain ⟨⟨c, word, v⟩, hmem, rfl⟩ := List.mem_map.mp hword
        rw [List.cons_append, scalar?_word hmem, scalar?_word hmem,
          after?_stop (words_noStop _ hmem) cs h, Option.map_map, Option.map_map]
        rfl
      · by_cases hminus : c = '-'
        · subst hminus
          exact scalar?_minus_stop cs h
        · have hc : c ∉ ['n', 't', 'f', 'N', 'I', '-'] := by
            intro hc
            rcases List.mem_append.mp (show c ∈ words.map (·.1) ++ ['-'] from hc) with hc | hc
            · exact hword hc
            · exact hminus (List.mem_singleton.mp hc)
          rw [List.cons_append, scalar?_of_notMem hc, scalar?_of_notMem hc]
          exact unsigned?_stop false (c :: cs) h

/-! ## What is left of a text -/

theorem spanDigits_suffix (cs : List Char) : (Decimal.spanDigits cs).2 <:+ cs := by
  rw [Decimal.spanDigits, List.span_eq_takeWhile_dropWhile]
  exact List.dropWhile_suffix _

theorem splitSign_suffix (cs : List Char) : (Decimal.splitSign cs).2 <:+ cs := by
  unfold Decimal.splitSign
  split
  · exact List.suffix_cons _ _
  · exact List.suffix_cons _ _
  · exact List.suffix_refl _

theorem fraction_suffix (cs : List Char) : (fraction cs).2 <:+ cs := by
  unfold fraction
  split
  · next cs =>
    have hspan := spanDigits_suffix cs
    split
    · exact List.suffix_refl _
    · next heq =>
      rw [heq] at hspan
      exact hspan.trans (List.suffix_cons _ _)
  · exact List.suffix_refl _

theorem exponent_suffix (cs : List Char) : (exponent cs).2 <:+ cs := by
  cases cs with
  | nil => exact List.suffix_refl _
  | cons c cs =>
      unfold exponent
      dsimp only
      split
      · have hspan := (spanDigits_suffix (Decimal.splitSign cs).2).trans (splitSign_suffix cs)
        split
        · exact List.suffix_refl _
        · next heq =>
          rw [heq] at hspan
          exact hspan.trans (List.suffix_cons _ _)
      · exact List.suffix_refl _

theorem suffix_of_whole? {cs ds : List Char} (h : whole? cs = some (ds, rest)) : rest <:+ cs := by
  cases cs with
  | nil => exact absurd h (by simp [whole?])
  | cons c cs =>
      simp only [whole?] at h
      split_ifs at h
      · obtain ⟨-, rfl⟩ := Prod.mk.inj (Option.some.inj h)
        exact List.suffix_cons _ _
      · obtain ⟨-, rfl⟩ := Prod.mk.inj (Option.some.inj h)
        exact (spanDigits_suffix cs).trans (List.suffix_cons _ _)

theorem suffix_of_unsigned? {negative : Bool} {cs : List Char} {v : Json}
    (h : unsigned? negative cs = some (v, rest)) : rest <:+ cs := by
  obtain ⟨⟨ds, tail⟩, hwhole, h⟩ := Option.bind_eq_some_iff.mp h
  have hsuffix := ((exponent_suffix _).trans (fraction_suffix tail)).trans (suffix_of_whole? hwhole)
  dsimp only at h
  split_ifs at h
  · obtain ⟨w, -, h⟩ := Option.map_eq_some_iff.mp h
    obtain ⟨-, rfl⟩ := Prod.mk.inj h
    exact hsuffix
  · obtain ⟨-, rfl⟩ := Prod.mk.inj (Option.some.inj h)
    exact hsuffix

theorem suffix_of_after? {word cs : List Char} {v w : Json}
    (h : (after? word cs).map (fun tail => (v, tail)) = some (w, rest)) : rest <:+ cs := by
  obtain ⟨tail, hafter, h⟩ := Option.map_eq_some_iff.mp h
  obtain ⟨-, rfl⟩ := Prod.mk.inj h
  exact ⟨word, (after?_eq_some_iff.mp hafter).symm⟩

theorem suffix_of_scalar? {cs : List Char} {v : Json} (h : scalar? cs = some (v, rest)) :
    rest <:+ cs := by
  unfold scalar? at h
  split at h
  case h_5 => exact (suffix_of_after? h).trans (List.suffix_cons _ _)
  case h_6 =>
    exact ((suffix_of_after? h).trans (List.suffix_cons _ _)).trans (List.suffix_cons _ _)
  case h_7 => exact (suffix_of_unsigned? h).trans (List.suffix_cons _ _)
  case h_8 => exact suffix_of_unsigned? h
  all_goals
    obtain ⟨-, rfl⟩ := Prod.mk.inj (Option.some.inj h)
    simp only [List.suffix_cons_iff, List.suffix_refl, or_true]

/-- **A scalar is over where a stop is left.** It is read in the same way from any text that goes on
with the same stop. -/
theorem scalar?_past {cs : List Char} {v : Json} (h : scalar? cs = some (v, rest))
    (hrest : rest ≠ []) (hstops : Stops rest) (more : List Char) :
    scalar? (cs ++ more) = some (v, rest ++ more) := by
  obtain ⟨word, rfl⟩ := suffix_of_scalar? h
  rw [scalar?_stop word hstops] at h
  obtain ⟨⟨w, tail⟩, hword, heq⟩ := Option.map_eq_some_iff.mp h
  obtain ⟨rfl, htail⟩ := Prod.mk.inj heq
  have hmore : Stops (rest ++ more) := by
    intro c hc
    obtain ⟨d, ds, rfl⟩ := List.exists_cons_of_ne_nil hrest
    exact hstops c hc
  obtain rfl : tail = [] := by simpa using htail
  rw [List.append_assoc, scalar?_stop word hmore, hword]
  rfl

end ChatClient.Json
