import Mathlib.Data.List.Basic
import ChatClient.Proofs.AskedWaits
import ChatClient.Proofs.Forms
import ChatClient.Proofs.ReadAlike

/-!
# Keys that stand apart

Two keys of which no character occurs anywhere else: not in the words that this library knows, and
not in the texts around them. Such a key is found in a text just where it was put, and what it is
put into is no word to the library. So a form with one key in its holes is read as the same form
with the other.
-/

namespace ChatClient

open Holed (Fills mark)

/-! ## Names -/

/-- A relation of texts in which equal ones are related to equal ones only. -/
def KeepsApart (T : String → String → Prop) : Prop :=
  ∀ s s' t t', T s s' → T t t' → (s = t ↔ s' = t')

namespace Json

variable {T : String → String → Prop} {es fs : Entries}

theorem put_alike (hT : KeepsApart T) (h : AlikeEntries T es fs) {k l : String} (hkl : T k l)
    {v w : Json} (hvw : v.Alike T w) : AlikeEntries T (es.put k v) (fs.put l w) := by
  induction es generalizing fs with
  | nil =>
      cases h with
      | nil => exact .cons hkl hvw .nil
  | cons e es ih =>
      cases h with
      | @cons k' l' v' w' _ fs' hk' hv' hes =>
          rw [Entries.put, Entries.put]
          by_cases hname : k' = k
          · rw [if_pos hname, if_pos ((hT _ _ _ _ hk' hkl).mp hname)]
            exact .cons hk' hvw hes
          · rw [if_neg hname, if_neg (fun h => hname ((hT _ _ _ _ hk' hkl).mpr h))]
            exact .cons hk' hv' (ih hes)

theorem foldl_put_alike (hT : KeepsApart T) {acc acc' : Entries} (hacc : AlikeEntries T acc acc')
    (h : AlikeEntries T es fs) :
    AlikeEntries T (es.foldl (fun entries (k, v) => Entries.put entries k v) acc)
      (fs.foldl (fun entries (k, v) => Entries.put entries k v) acc') := by
  induction es generalizing fs acc acc' with
  | nil =>
      cases h
      exact hacc
  | cons e es ih =>
      cases h with
      | cons hk hv hes =>
          rw [List.foldl_cons, List.foldl_cons]
          exact ih (put_alike hT hacc hk hv) hes

theorem ofList_alike (hT : KeepsApart T) (h : AlikeEntries T es fs) :
    AlikeEntries T (Entries.ofList es) (Entries.ofList fs) :=
  foldl_put_alike hT .nil h

end Json

/-! ## Forms -/

namespace Form

variable {T : String → String → Prop} {k₁ k₂ : List Char}

mutual

/-- A form with one key in its holes is like the form with another, if its texts are. -/
theorem fill_alike (hT : KeepsApart T) : ∀ f : Form,
    (∀ h ∈ f.texts, T (String.ofList (h.fill k₁)) (String.ofList (h.fill k₂))) →
      (f.fill k₁).Alike T (f.fill k₂)
  | atom v hv, _ => by
      cases v with
      | null => exact .null
      | bool b => exact .bool b
      | int n => exact .int n
      | float x => exact .float x
      | text _ | list _ | object _ => exact hv.elim
  | text h, htexts => .text (htexts h (List.mem_singleton_self h))
  | list items, htexts => .list (fillItems_alike hT items htexts)
  | object entries, htexts => .object (Json.ofList_alike hT (fillEntries_alike hT entries htexts))

theorem fillItems_alike (hT : KeepsApart T) : ∀ fs : List Form,
    (∀ h ∈ itemTexts fs, T (String.ofList (h.fill k₁)) (String.ofList (h.fill k₂))) →
      Json.AlikeItems T (fillItems k₁ fs) (fillItems k₂ fs)
  | [], _ => .nil
  | f :: fs, htexts => .cons
      (fill_alike hT f fun h hh => htexts h (List.mem_append_left _ hh))
      (fillItems_alike hT fs fun h hh => htexts h (List.mem_append_right _ hh))

theorem fillEntries_alike (hT : KeepsApart T) : ∀ es : List (Holed × Form),
    (∀ h ∈ entryTexts es, T (String.ofList (h.fill k₁)) (String.ofList (h.fill k₂))) →
      Json.AlikeEntries T (fillEntries k₁ es) (fillEntries k₂ es)
  | [], _ => .nil
  | (h, f) :: es, htexts => .cons (htexts h (by simp [entryTexts]))
      (fill_alike hT f fun h hh => htexts h (by simp [entryTexts, hh]))
      (fillEntries_alike hT es fun h hh => htexts h (by simp [entryTexts, hh]))

end

end Form

/-! ## Letters are no digits -/

namespace Text

variable {c : Char}

theorem isAlpha_toNat (h : c.isAlpha = true) :
    (65 ≤ c.toNat ∧ c.toNat ≤ 90) ∨ (97 ≤ c.toNat ∧ c.toNat ≤ 122) := by
  simp only [Char.isAlpha, Char.isUpper, Char.isLower, Bool.or_eq_true, Bool.and_eq_true,
    decide_eq_true_eq, UInt32.le_iff_toNat_le, ge_iff_le] at h
  exact h

theorem not_isAsciiDigit (h : c.isAlpha = true) : isAsciiDigit c = false := by
  have hrange := isAlpha_toNat h
  by_contra hdigit
  have hd := Json.isDigit_of_isAsciiDigit ((Bool.not_eq_false _).mp hdigit)
  simp only [Char.isDigit, Bool.and_eq_true, decide_eq_true_eq, UInt32.le_iff_toNat_le,
    ge_iff_le] at hd
  change 48 ≤ c.toNat ∧ c.toNat ≤ 57 at hd
  omega

/-- Digits of other scripts are no ASCII characters. -/
theorem digitValue?_letter (h : c.isAlpha = true) : digitValue? c = none := by
  have hrange := isAlpha_toNat h
  have hzeros : ∀ z ∈ zeroDigits, z = 48 ∨ 1632 ≤ z := by decide
  rw [digitValue?, Option.map_eq_none_iff, List.find?_eq_none]
  intro z hz
  rcases hzeros z hz with rfl | hlarge
  · simp only [Bool.and_eq_true, decide_eq_true_eq, not_and]
    omega
  · simp only [Bool.and_eq_true, decide_eq_true_eq, not_and]
    omega

theorem letter_ne {d : Char} (h : c.isAlpha = true) (hd : d.isAlpha = false) : c ≠ d := by
  rintro rfl
  exact absurd (h.symm.trans hd) (by decide)

end Text

theorem Text.isDecimal_letter {c : Char} (h : c.isAlpha = true) : Text.isDecimal c = false := by
  rw [Text.isDecimal, Text.digitValue?_letter h]
  rfl

/-- There is no letter among digits and points. -/
theorem RetryAfter.Writes.not_letter {cs : List Char} {x : Float} (h : Writes cs x) {c : Char}
    (hc : c ∈ cs) : c.isAlpha = false := by
  have hdigit : ∀ {ds}, AreDigits ds → c ∈ ds → c.isAlpha = false := fun hds hc => by
    by_contra hletter
    have hnot := Text.isDecimal_letter ((Bool.not_eq_false _).mp hletter)
    exact absurd ((hds.2 c hc).symm.trans hnot) (by decide)
  cases h with
  | whole hds => exact hdigit hds hc
  | point hds hes =>
      rcases List.mem_append.mp hc with hc | hc
      · exact hdigit hds hc
      · rcases List.mem_cons.mp hc with rfl | hc
        · decide
        · exact hdigit hes hc

/-- A duration has no letter but its last. -/
theorem RetryAfter.duration?_letter {s : String} {c : Char} (hc : c ∈ s.toList)
    (hletter : c.isAlpha = true) (hs : c ≠ 's') : RetryAfter.duration? s = none := by
  rw [Option.eq_none_iff_forall_ne_some]
  intro x hx
  obtain ⟨cs, hwrites, hunit⟩ := RetryAfter.duration?_eq_some.mp hx
  have hmem : c ∈ cs := by
    rcases hunit with hunit | hunit
    · simpa [hunit, hs] using hc
    · simpa [hunit, hs, Text.letter_ne hletter (d := '\n') (by decide)] using hc
  exact absurd hletter (by rw [hwrites.not_letter hmem]; decide)

namespace Payload

variable {c : Char} {cs ds : List Char}

theorem mem_dropWhile {p : Char → Bool} (hc : c ∈ cs) (hp : p c = false) : c ∈ cs.dropWhile p := by
  rw [← List.takeWhile_append_dropWhile (p := p) (l := cs)] at hc
  rcases List.mem_append.mp hc with h | h
  · exact absurd ((List.mem_takeWhile_imp h).symm.trans hp) (by decide)
  · exact h

theorem isNumeralSpace_letter (h : c.isAlpha = true) : isNumeralSpace c = false := by
  have hrange := Text.isAlpha_toNat h
  simp only [isNumeralSpace, Text.isBlank, Bool.and_eq_false_iff, Bool.or_eq_false_iff,
    beq_eq_false_iff_ne, decide_eq_false_iff_not]
  omega

/-- No numeral has a letter, and reading one drops none. -/
theorem mem_afterZeros (h : c.isAlpha = true) {last : Char} (hc : c ∈ cs)
    (hds : afterZeros last cs = some ds) : c ∈ ds := by
  induction cs generalizing last with
  | nil => exact absurd hc (by simp)
  | cons d cs ih =>
      by_cases hpoint : d = '.'
      · subst hpoint
        obtain rfl := Option.some.inj hds
        exact List.mem_cons_of_mem _ hc
      · rw [afterZeros.eq_3 _ _ _ (by simpa using hpoint)] at hds
        split_ifs at hds with hzero
        · rcases List.mem_cons.mp hc with rfl | hc
          · rcases hzero with rfl | rfl <;> exact absurd h (by decide)
          · exact ih hc hds
        · obtain rfl := Option.some.inj hds
          exact hc

theorem mem_dropZeros (h : c.isAlpha = true) (hc : c ∈ cs) (hds : dropZeros cs = some ds) :
    c ∈ ds := by
  unfold dropZeros at hds
  split at hds
  · exact absurd hc (by simp)
  · rcases List.mem_cons.mp hc with rfl | hc
    · exact absurd h (by decide)
    · exact mem_afterZeros h hc hds
  · split_ifs at hds
    obtain rfl := Option.some.inj hds
    exact hc

theorem mem_dropFraction (h : c.isAlpha = true) (hc : c ∈ cs) : c ∈ dropFraction cs := by
  unfold dropFraction
  split
  · next whole zeros hcut =>
    split_ifs with hzeros
    · have hne (d : Char) (hd : d.isAlpha = false) : c ≠ d := Text.letter_ne h hd
      rw [Text.eq_of_cut? hcut] at hc
      simp only [List.mem_append, List.mem_cons, List.not_mem_nil, or_false] at hc
      rcases hc with (hc | hc) | hc | hc
      · exact hc
      · exact absurd hc (hne '.' (by decide))
      · exact absurd hc (hne '0' (by decide))
      · have hzero := List.all_eq_true.mp hzeros c hc
        exact absurd (beq_iff_eq.mp hzero) (hne '0' (by decide))
    · exact hc
  · exact hc

theorem plainWhole?_letter (h : c.isAlpha = true) (hc : c ∈ cs) : plainWhole? cs = none := by
  have hdigit := Text.not_isAsciiDigit h
  have hsigned : ∀ ds : List Char, c ∈ ds → ¬ ds.all Text.isAsciiDigit = true := fun ds hds hall =>
    absurd ((List.all_eq_true.mp hall c hds).symm.trans hdigit) (by decide)
  unfold plainWhole?
  split
  next negative ds heq =>
  rw [if_neg]
  rintro ⟨-, hall, -⟩
  split at heq
  · obtain ⟨-, rfl⟩ := Prod.mk.inj heq
    rcases List.mem_cons.mp hc with rfl | hc
    · exact absurd h (by decide)
    · exact hsigned _ hc hall
  · obtain ⟨-, rfl⟩ := Prod.mk.inj heq
    exact hsigned _ hc hall

/-- What is left of a numeral with a letter still has it, up to the digits. -/
theorem dropZeros_bind_letter (h : c.isAlpha = true) (hc : c ∈ cs) :
    ((dropZeros cs).bind fun ds => (dropUnderscores? (dropFraction ds)).bind plainWhole?) =
      none := by
  cases hds : dropZeros cs with
  | none => rfl
  | some ds =>
      have hfraction := mem_dropFraction h (mem_dropZeros h hc hds)
      rw [Option.bind_some, dropUnderscores?]
      split_ifs
      · rfl
      · refine plainWhole?_letter h (List.mem_filter.mpr ⟨hfraction, ?_⟩)
        simpa using Text.letter_ne h (d := '_') (by decide)

theorem wholeOfText?_letter {s : String} (hc : c ∈ s.toList) (h : c.isAlpha = true) :
    wholeOfText? s = none := by
  have hspace := isNumeralSpace_letter h
  have hstripped : c ∈ Text.dropEndWhile isNumeralSpace (s.toList.dropWhile isNumeralSpace) :=
    List.mem_reverse.mpr
      (mem_dropWhile (List.mem_reverse.mpr (mem_dropWhile hc hspace)) hspace)
  unfold wholeOfText?
  dsimp only
  split
  · rfl
  · next heq =>
    rw [heq] at hstripped
    rcases List.mem_cons.mp hstripped with rfl | hmem
    · exact absurd h (by decide)
    · exact dropZeros_bind_letter h hmem
  · exact dropZeros_bind_letter h hstripped

end Payload

/-! ## What the library reads in a key -/

/-- Letters and digits that are in no word of this library, and in no word for a truth value in any
letter case, and of which no part belongs to the name of retry information. -/
structure Foreign (k : List Char) : Prop where
  ne_nil : k ≠ []
  alphanum : ∀ c ∈ k, c.isAlphanum = true
  unknown : ∀ w ∈ fieldWords ++ markerWords, ¬ k <:+: w.toList
  noFlag : ∀ w ∈ flagWords, ¬ k.map Char.toLower <:+: w.toList
  retryInfo : ∀ before after, "RetryInfo".toList <:+: before ++ k ++ after →
    "RetryInfo".toList <:+: before ∨ "RetryInfo".toList <:+: after

variable {k k₁ k₂ : List Char}

theorem not_infix_of_disjoint {cs : List Char} (hne : k ≠ []) (h : k.Disjoint cs) :
    ¬ k <:+: cs := by
  obtain ⟨c, hc⟩ := List.exists_mem_of_ne_nil k hne
  exact fun hin => h hc (hin.subset hc)

/-- A key of which no character is in a word is foreign. -/
theorem Foreign.of_disjoint (hne : k ≠ []) (halphanum : ∀ c ∈ k, c.isAlphanum = true)
    (hwords : ∀ w ∈ fieldWords ++ markerWords, k.Disjoint w.toList)
    (hflags : ∀ w ∈ flagWords, (k.map Char.toLower).Disjoint w.toList)
    (hretry : "RetryInfo".toList.Disjoint k) : Foreign k where
  ne_nil := hne
  alphanum := halphanum
  unknown w hw := not_infix_of_disjoint hne (hwords w hw)
  noFlag w hw := not_infix_of_disjoint (by simpa using hne) (hflags w hw)
  retryInfo _ _ := infix_or_infix hne hretry

theorem Foreign.fills (h : Foreign k) : Fills k where
  ne_nil := h.ne_nil
  plain c hc := .inl (h.alphanum c hc)

theorem Foreign.mark_notMem (h : Foreign k) : mark ∉ k := fun hmem =>
  absurd (h.alphanum mark hmem) (by decide)

theorem flatMap_lowerChar (h : ∀ c ∈ k, c.isAlphanum = true) :
    k.flatMap Text.lowerChar = k.map Char.toLower := by
  induction k with
  | nil => rfl
  | cons c k ih =>
      obtain ⟨hc, hk⟩ := List.forall_mem_cons.mp h
      have hrange := Holed.toNat_of_isAlphanum hc
      rw [List.flatMap_cons, ih hk, Text.lowerChar, if_neg (by omega), if_neg (by omega)]
      rfl

/-! ## Texts with a foreign key in them -/

namespace Foreign

variable (hk : Foreign k) (before after : List Char)

/-- A text with the key in it. -/
def around (k before after : List Char) : String := String.ofList (before ++ k ++ after)

theorem toList_around (k before after : List Char) :
    (around k before after).toList = before ++ k ++ after := String.toList_ofList

include hk

theorem isEmpty_around : (around k before after).isEmpty = false := by
  rw [← Bool.not_eq_true, String.isEmpty_iff, ← String.toList_eq_nil_iff, toList_around]
  simp [hk.ne_nil]

theorem around_ne {w : String} (hw : w ∈ fieldWords ++ markerWords) :
    around k before after ≠ w := by
  rintro rfl
  refine hk.unknown _ hw ?_
  rw [toList_around]
  exact ⟨before, after, rfl⟩

theorem lower_around_ne {w : String} (hw : w ∈ flagWords) :
    Text.lower (around k before after) ≠ w := by
  rintro rfl
  refine hk.noFlag _ hw ?_
  rw [Text.lower, String.toList_ofList, toList_around, List.flatMap_append,
    List.flatMap_append, flatMap_lowerChar hk.alphanum]
  exact ⟨_, _, rfl⟩

theorem occurs_around : Text.occurs "RetryInfo" (around k before after) = true ↔
    "RetryInfo".toList <:+: before ∨ "RetryInfo".toList <:+: after := by
  rw [Text.occurs_iff, toList_around]
  refine ⟨hk.retryInfo before after, ?_⟩
  rintro (h | h)
  · exact h.trans (List.append_assoc before k after ▸ (List.prefix_append _ _).isInfix)
  · exact h.trans (List.suffix_append _ _).isInfix

end Foreign

/-- With both keys the text is the same duration or none, and a whole number or none. -/
structure Holed.CountsAlike (k₁ k₂ : List Char) (h : Holed) : Prop where
  duration : RetryAfter.duration? (String.ofList (h.fill k₁)) =
    RetryAfter.duration? (String.ofList (h.fill k₂))
  whole : (Payload.wholeOfText? (String.ofList (h.fill k₁))).isSome =
    (Payload.wholeOfText? (String.ofList (h.fill k₂))).isSome

/-- A key with a letter makes no number of a text. -/
theorem Holed.countsAlike_of_letter (h₁ : ∃ c ∈ k₁, c.isAlpha = true ∧ c ≠ 's')
    (h₂ : ∃ c ∈ k₂, c.isAlpha = true ∧ c ≠ 's') (h : Holed) : h.CountsAlike k₁ k₂ := by
  obtain ⟨c, hc, hletter₁, hs₁⟩ := h₁
  obtain ⟨d, hd, hletter₂, hs₂⟩ := h₂
  cases h with
  | whole cs => exact ⟨rfl, rfl⟩
  | around before after =>
      have hmem₁ : c ∈ (String.ofList ((Holed.around before after).fill k₁)).toList := by
        simp [Holed.fill, hc]
      have hmem₂ : d ∈ (String.ofList ((Holed.around before after).fill k₂)).toList := by
        simp [Holed.fill, hd]
      refine ⟨?_, ?_⟩
      · rw [RetryAfter.duration?_letter hmem₁ hletter₁ hs₁,
          RetryAfter.duration?_letter hmem₂ hletter₂ hs₂]
      · rw [Payload.wholeOfText?_letter hmem₁ hletter₁, Payload.wholeOfText?_letter hmem₂ hletter₂]

/-- **What a foreign key is put into says the same to this library as with another foreign key**,
as far as it is no number. -/
theorem Foreign.readAlike (h₁ : Foreign k₁) (h₂ : Foreign k₂) {h : Holed}
    (hcounts : h.CountsAlike k₁ k₂) :
    ReadAlike (String.ofList (h.fill k₁)) (String.ofList (h.fill k₂)) := by
  cases h with
  | whole cs => exact .refl _
  | around before after =>
      show ReadAlike (Foreign.around k₁ before after) (Foreign.around k₂ before after)
      have hne {w : String} (hw : w ∈ fieldWords ++ markerWords) :
          Foreign.around k₁ before after = w ↔ Foreign.around k₂ before after = w :=
        iff_of_false (h₁.around_ne before after hw) (h₂.around_ne before after hw)
      exact {
        empty := (h₁.isEmpty_around before after).trans (h₂.isEmpty_around before after).symm
        field := fun w hw => hne (List.mem_append_left _ hw)
        marker := fun w hw => hne (List.mem_append_right _ hw)
        retryInfo := Bool.eq_iff_iff.mpr
          ((h₁.occurs_around before after).trans (h₂.occurs_around before after).symm)
        duration := hcounts.duration
        whole := hcounts.whole
        flag := fun w hw =>
          iff_of_false (h₁.lower_around_ne before after hw) (h₂.lower_around_ne before after hw) }

/-! ## Where a key is found -/

/-- After `lead`, the key stands in the hole and nowhere else. -/
def Holed.Apart (lead k : List Char) : Holed → Prop
  | whole cs => ¬ k <:+: lead ++ cs
  | around before after => Text.OnlyBetween k (lead ++ before) after

/-- The characters around the hole. -/
def Holed.chars : Holed → List Char
  | whole cs => cs
  | around before after => before ++ after

/-- A key of which no character occurs elsewhere stands apart. -/
theorem Holed.apart_of_disjoint {lead : List Char} {h : Holed} (hne : k ≠ [])
    (hlead : k.Disjoint lead) (hchars : k.Disjoint h.chars) : h.Apart lead k := by
  cases h with
  | whole cs => exact not_infix_of_disjoint hne (List.disjoint_append_right.mpr ⟨hlead, hchars⟩)
  | around before after =>
      intro x y hxy
      have hlength := congrArg List.length hxy
      simp only [List.length_append] at hlength
      have hkpos := List.length_pos_of_ne_nil hne
      have hbefore : k.Disjoint (lead ++ before) :=
        List.disjoint_append_right.mpr ⟨hlead, (List.disjoint_append_right.mp hchars).1⟩
      -- a key that starts elsewhere overlaps with the text before the hole, or with that after it
      rcases lt_trichotomy x.length (lead ++ before).length with hlt | heq | hgt
      · obtain ⟨c, hc, hmem⟩ := exists_mem_of_overlap x k y [] (lead ++ before) (k ++ after)
          (by simp [← hxy]) hne
          (List.ne_nil_of_length_pos (by omega)) (by simpa using hlt) (by simpa using by omega)
        exact absurd hmem (hbefore hc)
      · exact (List.append_inj_left ((List.append_assoc _ _ _).symm.trans
          (hxy.symm.trans (List.append_assoc _ _ _))) heq)
      · have hne' : after ≠ [] := List.ne_nil_of_length_pos (by
          simp only [List.length_append] at hgt
          omega)
        obtain ⟨c, hc, hmem⟩ := exists_mem_of_overlap x k y (lead ++ before ++ k) after []
          (by simp [← hxy]) hne hne' (by simp only [List.length_append]; omega)
          (by simp only [List.length_append] at hgt ⊢; omega)
        exact absurd hmem ((List.disjoint_append_right.mp hchars).2 hc)

/-- A text that does not tell one key from another: after `lead`, either key stands in the hole and
nowhere else, and with both the text counts for the same. -/
structure Holed.Veils (lead k₁ k₂ : List Char) (h : Holed) : Prop where
  apart₁ : h.Apart lead k₁
  apart₂ : h.Apart lead k₂
  counts : h.CountsAlike k₁ k₂

theorem echoed_of_apart {lead k₁ k₂ : String} {h : Holed} (h₁ : h.Apart lead.toList k₁.toList)
    (h₂ : h.Apart lead.toList k₂.toList) :
    Echoed lead k₁ k₂ (String.ofList (h.fill k₁.toList)) (String.ofList (h.fill k₂.toList)) := by
  cases h with
  | whole cs =>
      have htext : (lead ++ String.ofList cs).toList = lead.toList ++ cs := by simp
      exact .plain (htext ▸ h₁) (htext ▸ h₂)
  | around before after =>
      have hfill (k : String) : String.ofList ((Holed.around before after).fill k.toList) =
          Template.fill ⟨String.ofList before, String.ofList after⟩ k := by
        simp [Holed.fill, Template.fill, String.append_assoc]
      have hmarks (k : String) (h : (Holed.around before after).Apart lead.toList k.toList) :
          Template.Marks ⟨String.ofList before, String.ofList after⟩ lead k := by
        show Text.OnlyBetween _ (lead ++ String.ofList before).toList (String.ofList after).toList
        rw [String.toList_append, String.toList_ofList, String.toList_ofList]
        exact h
      rw [hfill, hfill]
      exact .filled _ (hmarks k₁ h₁) (hmarks k₂ h₂)

/-! ## Keys of spare characters -/

section

variable {t : Template} {lead : List Char} {g : Holed}

/-- Characters that stand nowhere but in the hole of a text, and that no escape there stands for. -/
structure Template.Spares (t : Template) (k : List Char) : Prop where
  before : k.Disjoint t.before.toList
  after : k.Disjoint t.after.toList
  escapes : ∀ ds c used, '\\' :: ds <:+ t.holed.fill [mark] → Json.escape? ds = some (c, used) →
    c ∉ k

theorem Template.Spares.spells (h : t.Spares k) :
    Json.Spells (fun c => c = mark ∨ c ∉ k) (t.holed.fill [mark]) := by
  refine fun c ds hsuffix => ⟨?_, ?_⟩
  · have hmem : c ∈ t.holed.fill [mark] := hsuffix.subset List.mem_cons_self
    simp only [Template.holed, Holed.fill, List.mem_append, List.mem_singleton] at hmem
    rcases hmem with (hmem | rfl) | hmem
    · exact .inr fun hk => h.before hk hmem
    · exact .inl rfl
    · exact .inr fun hk => h.after hk hmem
  · rintro rfl d used hd
    exact .inr (h.escapes ds d used hsuffix hd)

theorem Holed.allOf_chars {P : Char → Prop} (h : g.AllOf P) : ∀ c ∈ g.chars, P c := by
  intro c hc
  refine h c ?_
  cases g with
  | whole cs => exact hc
  | around before after =>
      rcases List.mem_append.mp hc with hc | hc
      · exact List.mem_append_left _ (List.mem_append_left _ hc)
      · exact List.mem_append_right _ hc

/-- Keys of spare characters are not told apart. -/
theorem Holed.veils_of_disjoint (hlead : (k₁ ++ k₂).Disjoint lead)
    (hchars : (k₁ ++ k₂).Disjoint g.chars) (h₁ : ∃ c ∈ k₁, c.isAlpha = true ∧ c ≠ 's')
    (h₂ : ∃ c ∈ k₂, c.isAlpha = true ∧ c ≠ 's') : g.Veils lead k₁ k₂ where
  apart₁ := apart_of_disjoint (h₁.elim fun _ h => List.ne_nil_of_mem h.1)
    (List.disjoint_of_disjoint_append_left_left hlead)
    (List.disjoint_of_disjoint_append_left_left hchars)
  apart₂ := apart_of_disjoint (h₂.elim fun _ h => List.ne_nil_of_mem h.1)
    (List.disjoint_of_disjoint_append_left_right hlead)
    (List.disjoint_of_disjoint_append_left_right hchars)
  counts := countsAlike_of_letter h₁ h₂ g

/-- Nor are they in the texts of a JSON value. -/
theorem Template.exists_writes_veils (h : t.Spares (k₁ ++ k₂)) (hlead : (k₁ ++ k₂).Disjoint lead)
    (hjson : (Json.read? (t.fill (String.ofList [mark]))).isSome) (hmark : mark ∉ k₁ ++ k₂)
    (h₁ : ∃ c ∈ k₁, c.isAlpha = true ∧ c ≠ 's') (h₂ : ∃ c ∈ k₂, c.isAlpha = true ∧ c ≠ 's') :
    ∃ f : Form, t.Writes f ∧ ∀ g ∈ f.texts, g.Veils lead k₁ k₂ := by
  obtain ⟨f, hf, htexts⟩ := t.exists_writes hjson h.spells
  refine ⟨f, hf, fun g hg => Holed.veils_of_disjoint hlead (fun c hk hc => ?_) h₁ h₂⟩
  rcases Holed.allOf_chars (htexts g hg) c hc with rfl | hspare
  · exact hmark hk
  · exact hspare hk

end

theorem not_infix_of_plain {lead k s : String} (h : ¬ k.toList <:+: (lead ++ s).toList)
    (t : Template) : s ≠ t.fill k := by
  rintro rfl
  exact h (t.infix_fill lead k)

theorem keepsApart_echoed (lead k₁ k₂ : String) : KeepsApart (Echoed lead k₁ k₂) := by
  intro s s' t t' hs ht
  cases hs with
  | plain hs₁ hs₂ =>
      cases ht with
      | plain _ _ => exact Iff.rfl
      | filled u _ _ => exact iff_of_false (not_infix_of_plain hs₁ u) (not_infix_of_plain hs₂ u)
  | filled u hu₁ hu₂ =>
      cases ht with
      | plain ht₁ ht₂ =>
          exact iff_of_false (not_infix_of_plain ht₁ u).symm (not_infix_of_plain ht₂ u).symm
      | filled w _ _ =>
          constructor
          · intro h
            rw [hu₁.eq h]
          · intro h
            rw [hu₂.eq h]

end ChatClient
