import ChatClient.Proofs.Redaction
import ChatClient.Proofs.Scalars

/-!
# JSON texts with a hole

A text has a hole in it for a key. If the text is JSON with a mark in the hole that JSON has in
strings only, then the hole is in a string, and the text is JSON with any key in it, and always the
same value but for what the key fills. Such a value with holes in its texts is a `Form`.
-/

namespace ChatClient

/-! ## Texts -/

/-- Characters that may have a hole among them. -/
inductive Holed where
  | whole (cs : List Char)
  | around (before after : List Char)

namespace Holed

/-- The characters with others in the hole. -/
def fill (k : List Char) : Holed → List Char
  | whole cs => cs
  | around before after => before ++ k ++ after

/-- One more character in front. -/
def cons (c : Char) : Holed → Holed
  | whole cs => whole (c :: cs)
  | around before after => around (c :: before) after

@[simp] theorem fill_cons (k : List Char) (c : Char) (h : Holed) :
    (h.cons c).fill k = c :: h.fill k := by
  cases h <;> rfl

/-- What stands for a key: a character that JSON has in strings only. -/
def mark : Char := '#'

/-- What may fill a hole: something, all of it plain characters. -/
structure Fills (k : List Char) : Prop where
  ne_nil : k ≠ []
  plain : ∀ c ∈ k, c.isAlphanum = true ∨ c = mark

theorem fills_mark : Fills [mark] where
  ne_nil := by simp
  plain c hc := .inr (List.mem_singleton.mp hc)

/-- A character that is seen with the mark in the hole stands before the hole. -/
theorem exists_tail {h : Holed} {c : Char} {cs : List Char} (hcs : h.fill [mark] = c :: cs)
    (hc : c ≠ mark) : ∃ t : Holed, h = t.cons c ∧ t.fill [mark] = cs := by
  cases h with
  | whole ds =>
      obtain rfl : ds = c :: cs := hcs
      exact ⟨whole cs, rfl, rfl⟩
  | around before after =>
      cases before with
      | nil => exact absurd (List.cons.inj hcs).1.symm hc
      | cons d before =>
          obtain ⟨rfl, rfl⟩ := List.cons.inj hcs
          exact ⟨around before after, rfl, rfl⟩

variable {k : List Char}

theorem toNat_of_isAlphanum {c : Char} (h : c.isAlphanum = true) :
    (65 ≤ c.toNat ∧ c.toNat ≤ 90) ∨ (97 ≤ c.toNat ∧ c.toNat ≤ 122) ∨
      (48 ≤ c.toNat ∧ c.toNat ≤ 57) := by
  simp only [Char.isAlphanum, Char.isAlpha, Char.isUpper, Char.isLower, Char.isDigit,
    Bool.or_eq_true, Bool.and_eq_true, decide_eq_true_eq, UInt32.le_iff_toNat_le, ge_iff_le] at h
  change ((65 ≤ c.toNat ∧ c.toNat ≤ 90) ∨ (97 ≤ c.toNat ∧ c.toNat ≤ 122)) ∨
    (48 ≤ c.toNat ∧ c.toNat ≤ 57) at h
  tauto

/-- What fills a hole is no blank, and stands for itself in a string. -/
theorem Fills.forall_plain (hk : Fills k) :
    ∀ c ∈ k, c ≠ '"' ∧ c ≠ '\\' ∧ ¬ c.toNat < 0x20 ∧ Json.isSpace c = false := by
  intro c hc
  rcases hk.plain c hc with h | rfl
  · have hrange := toNat_of_isAlphanum h
    have hne (d : Char) (hd : d.isAlphanum = false) : c ≠ d := by
      rintro rfl
      exact absurd (h.symm.trans hd) (by decide)
    refine ⟨hne _ (by decide), hne _ (by decide), by omega, ?_⟩
    simp [Json.isSpace, hne ' ' (by decide), hne '\n' (by decide), hne '\t' (by decide),
      hne '\r' (by decide)]
  · decide

/-- The characters without the blanks in front. -/
def skipSpace : Holed → Holed
  | whole cs => whole (Json.skipSpace cs)
  | around before after => around (Json.skipSpace before) after

theorem fill_skipSpace (hk : Fills k) (h : Holed) :
    Json.skipSpace (h.fill k) = h.skipSpace.fill k := by
  cases h with
  | whole cs => rfl
  | around before after =>
      obtain ⟨c, cs, rfl⟩ := List.exists_cons_of_ne_nil hk.ne_nil
      obtain ⟨-, -, -, hc⟩ := hk.forall_plain c List.mem_cons_self
      induction before with
      | nil => exact Json.skipSpace_cons hc _
      | cons d before ih =>
          by_cases hd : Json.isSpace d = true
          · simp only [fill, skipSpace, Json.skipSpace, List.cons_append,
              List.dropWhile_cons_of_pos hd] at ih ⊢
            exact ih
          · simp only [fill, skipSpace, Json.skipSpace, List.cons_append,
              List.dropWhile_cons_of_neg hd]

/-- With the mark in the hole, all characters are of one sort. -/
def AllOf (P : Char → Prop) (h : Holed) : Prop := ∀ c ∈ h.fill [mark], P c

end Holed

/-! ## Strings -/

namespace Json

open Holed (Fills mark fills_mark)

variable {h : Holed} {k : List Char}

theorem ne_mark_of_hexValue? {c : Char} {n : ℕ} (hc : hexValue? c = some n) : c ≠ mark := by
  rintro rfl
  have hnone : hexValue? mark = none := by decide
  exact absurd (hc.symm.trans hnone) (by simp)

/-- Four digits that are read with the mark in the hole stand before the hole. -/
theorem hex4?_fill {n : ℕ} (hn : hex4? (h.fill [mark]) = some n) :
    ∃ (a b c d : Char) (t : Holed), h = (((t.cons d).cons c).cons b).cons a ∧
      ∀ k, hex4? (h.fill k) = some n := by
  unfold hex4? at hn
  split at hn
  · next a b c d cs heq =>
    simp only [Option.bind_eq_bind, Option.bind_eq_some_iff] at hn
    obtain ⟨na, ha, nb, hb, nc, hc, nd, hd, hn⟩ := hn
    obtain ⟨t, rfl, ht₁⟩ := Holed.exists_tail heq (ne_mark_of_hexValue? ha)
    obtain ⟨t, rfl, ht₂⟩ := Holed.exists_tail ht₁ (ne_mark_of_hexValue? hb)
    obtain ⟨t, rfl, ht₃⟩ := Holed.exists_tail ht₂ (ne_mark_of_hexValue? hc)
    obtain ⟨t, rfl, -⟩ := Holed.exists_tail ht₃ (ne_mark_of_hexValue? hd)
    refine ⟨a, b, c, d, t, rfl, fun k => ?_⟩
    simp only [Holed.fill_cons, hex4?, ha, hb, hc, hd, Option.bind_eq_bind, Option.bind_some, hn]
  · exact absurd hn (by simp)

/-- Leaving characters out and then reading is reading what is left. -/
theorem stringRest_drop (n : ℕ) (cs : List Char) : stringRest n cs = stringRest 0 (cs.drop n) := by
  induction n generalizing cs with
  | zero => rfl
  | succ n ih =>
      cases cs with
      | nil => rfl
      | cons c cs => exact ih cs

/-- What fills a hole in a string becomes part of the string. -/
theorem stringRest_fills (hk : Fills k) (cs : List Char) :
    stringRest 0 (k ++ cs) = (stringRest 0 cs).map fun (s, rest) => (k ++ s, rest) := by
  have hplain := hk.forall_plain
  clear hk
  induction k with
  | nil => simp
  | cons c k ih =>
      obtain ⟨⟨hquote, hslash, hcontrol, -⟩, hplain⟩ := List.forall_mem_cons.mp hplain
      rw [List.cons_append, stringRest, if_neg hquote, if_neg hslash, if_neg hcontrol, ih hplain,
        Option.map_map]
      rfl

/-- The second half of a pair is not in the hole either: what is read behind the first half is a
string only if no escape goes into the hole. -/
theorem lowHalf?_fill {r : List Char × List Char} (hr : stringRest 0 (h.fill [mark]) = some r)
    (hk : Fills k) : lowHalf? (h.fill k) = lowHalf? (h.fill [mark]) := by
  by_cases hslash : ∃ t : Holed, h = t.cons '\\'
  · obtain ⟨t, rfl⟩ := hslash
    rw [Holed.fill_cons, stringRest, if_neg (by decide), if_pos rfl] at hr
    by_cases hu : ∃ t' : Holed, t = t'.cons 'u'
    · obtain ⟨t, rfl⟩ := hu
      simp only [Holed.fill_cons, lowHalf?]
      cases hhex : hex4? (t.fill [mark]) with
      | none => simp [Holed.fill_cons, escape?, hhex] at hr
      | some n =>
          obtain ⟨-, -, -, -, -, -, hall⟩ := hex4?_fill hhex
          rw [hall k]
    · -- with another character behind the backslash there is no second half
      have hnone (k : List Char) (hk : Fills k) : lowHalf? ('\\' :: t.fill k) = none := by
        unfold lowHalf?
        split
        · next cs heq =>
          exfalso
          have htail := (List.cons.inj heq).2
          cases t with
          | whole ds => exact hu ⟨.whole cs, by rw [show ds = 'u' :: cs from htail]; rfl⟩
          | around before after =>
              cases before with
              | nil => simp [Holed.fill, escape?, mark] at hr
              | cons d before =>
                  obtain ⟨rfl, -⟩ := List.cons.inj htail
                  exact hu ⟨.around before after, rfl⟩
        · rfl
      rw [Holed.fill_cons, Holed.fill_cons, hnone k hk, hnone [mark] fills_mark]
  · have hnone (k : List Char) (hk : Fills k) : lowHalf? (h.fill k) = none := by
      unfold lowHalf?
      split
      · next cs heq =>
        exfalso
        cases h with
        | whole ds => exact hslash ⟨.whole ('u' :: cs), by rw [show ds = _ from heq]; rfl⟩
        | around before after =>
            cases before with
            | nil =>
                obtain ⟨c, k, rfl⟩ := List.exists_cons_of_ne_nil hk.ne_nil
                exact (hk.forall_plain c List.mem_cons_self).2.1 (List.cons.inj heq).1
            | cons d before =>
                obtain ⟨rfl, -⟩ := List.cons.inj heq
                exact hslash ⟨.around before after, rfl⟩
      · rfl
    rw [hnone k hk, hnone [mark] fills_mark]

theorem lowHalf?_some {low : ℕ} (hlow : lowHalf? (h.fill [mark]) = some low) :
    ∃ t : Holed, ∀ k, lowHalf? (h.fill k) = some low ∧ (h.fill k).drop 6 = t.fill k := by
  unfold lowHalf? at hlow
  split at hlow
  · next cs heq =>
    obtain ⟨t, rfl, ht⟩ := Holed.exists_tail heq (by decide)
    obtain ⟨t, rfl, rfl⟩ := Holed.exists_tail ht (by decide)
    obtain ⟨a, b, c, d, t, rfl, hall⟩ := hex4?_fill (Option.filter_eq_some_iff.mp hlow).1
    refine ⟨t, fun k => ⟨?_, by simp only [Holed.fill_cons]; rfl⟩⟩
    rw [Holed.fill_cons, Holed.fill_cons, lowHalf?, hall k]
    rwa [hall [mark]] at hlow
  · exact absurd hlow (by simp)

/-- What four digits behind a `u` mean, where `low` is the second half that may follow them. -/
def unicode (n : ℕ) (low : Option ℕ) : Char × ℕ :=
  if 0xD800 ≤ n ∧ n < 0xE000 then
    match low with
    | some low =>
      if n < 0xDC00 then (Char.ofNat (0x10000 + (n - 0xD800) * 0x400 + (low - 0xDC00)), 11)
      else (Char.ofNat 0xFFFD, 5)
    | none => (Char.ofNat 0xFFFD, 5)
  else (Char.ofNat n, 5)

theorem escape?_unicode (cs : List Char) :
    escape? ('u' :: cs) = (hex4? cs).map fun n => unicode n (lowHalf? (cs.drop 4)) := rfl

theorem unicode_used (n : ℕ) (low : Option ℕ) :
    (unicode n low).2 = 5 ∨ ((unicode n low).2 = 11 ∧ low ≠ none) := by
  unfold unicode
  cases low with
  | none => split_ifs <;> exact .inl rfl
  | some low =>
      split_ifs
      · exact .inr ⟨rfl, by simp⟩
      · exact .inl rfl
      · exact .inl rfl

/-- An escape stands before the hole, or behind it. -/
theorem escape?_fill {d : Char} {used : ℕ} {r : List Char × List Char}
    (hd : escape? (h.fill [mark]) = some (d, used))
    (hr : stringRest used (h.fill [mark]) = some r) :
    ∃ t : Holed, ∀ k, Fills k →
      escape? (h.fill k) = some (d, used) ∧ (h.fill k).drop used = t.fill k := by
  cases hcs : h.fill [mark] with
  | nil =>
      rw [hcs] at hd
      exact absurd hd (by simp [escape?])
  | cons c cs =>
      have hmark : c ≠ mark := by
        rintro rfl
        rw [hcs] at hd
        exact absurd hd (by simp [escape?, mark])
      obtain ⟨t, rfl, -⟩ := Holed.exists_tail hcs hmark
      simp only [Holed.fill_cons] at hd hr ⊢
      clear hcs hmark
      by_cases hu : c = 'u'
      · subst hu
        rw [escape?_unicode] at hd
        obtain ⟨n, hn, hescape⟩ := Option.map_eq_some_iff.mp hd
        obtain ⟨a, b, c, e, t, rfl, hall⟩ := hex4?_fill hn
        have hdrop (k : List Char) : (Holed.fill k ((((t.cons e).cons c).cons b).cons a)).drop 4 =
            t.fill k := by simp only [Holed.fill_cons]; rfl
        simp only [escape?_unicode, hall, hdrop, Option.map_some] at hescape ⊢
        rcases unicode_used n (lowHalf? (t.fill [mark])) with hused | ⟨hused, hlow⟩
        · obtain rfl : 5 = used := by rw [← hused, hescape]
          rw [stringRest_drop, List.drop_succ_cons, hdrop] at hr
          refine ⟨t, fun k hk => ⟨?_, by rw [List.drop_succ_cons, hdrop]⟩⟩
          rw [lowHalf?_fill hr hk, hescape]
        · obtain rfl : 11 = used := by rw [← hused, hescape]
          obtain ⟨low, hlow⟩ := Option.ne_none_iff_exists'.mp hlow
          obtain ⟨t', ht'⟩ := lowHalf?_some hlow
          refine ⟨t', fun k _ => ⟨?_, ?_⟩⟩
          · rw [(ht' k).1, ← hlow, hescape]
          · rw [List.drop_succ_cons, show 10 = 4 + 6 from rfl, ← List.drop_drop, hdrop, (ht' k).2]
      · refine ⟨t, fun k _ => ?_⟩
        have hused : used = 1 := by
          simp only [escape?, if_neg hu] at hd
          split_ifs at hd <;> exact (Prod.mk.inj (Option.some.inj hd)).2.symm
        subst hused
        refine ⟨?_, rfl⟩
        simpa only [escape?, if_neg hu] using hd

/-- **A string has the hole in it, or the hole is behind it.** -/
theorem stringRest_fill {r : List Char × List Char} (hr : stringRest 0 (h.fill [mark]) = some r) :
    ∃ s t : Holed, ∀ k, Fills k → stringRest 0 (h.fill k) = some (s.fill k, t.fill k) := by
  -- on the length, as an escape takes more than one character
  induction hn : (h.fill [mark]).length using Nat.strong_induction_on generalizing h r with
  | _ n ih =>
    subst hn
    cases h with
    | whole cs => exact ⟨.whole r.1, .whole r.2, fun _ _ => hr⟩
    | around before after =>
        cases before with
        | nil =>
            have hfills {k : List Char} (hk : Fills k) := stringRest_fills hk after
            obtain ⟨⟨s, rest⟩, hs, -⟩ :=
              Option.map_eq_some_iff.mp ((hfills fills_mark).symm.trans hr)
            refine ⟨.around [] s, .whole rest, fun k hk => (hfills hk).trans ?_⟩
            rw [hs]
            rfl
        | cons c before =>
            obtain ⟨t, ht⟩ : ∃ t, t = Holed.around before after := ⟨_, rfl⟩
            have hcons (k : List Char) :
                (Holed.around (c :: before) after).fill k = c :: t.fill k := by
              rw [ht]
              rfl
            simp only [hcons] at hr ih ⊢
            simp only [stringRest] at hr ⊢
            split_ifs at hr ⊢ with hquote hslash hcontrol
            · exact ⟨.whole [], t, fun _ _ => rfl⟩
            · split at hr
              · next d used hescape =>
                obtain ⟨r', hr', -⟩ := Option.map_eq_some_iff.mp hr
                obtain ⟨t', ht'⟩ := escape?_fill hescape hr'
                rw [stringRest_drop, (ht' _ fills_mark).2] at hr'
                have hlength : (t'.fill [mark]).length < (c :: t.fill [mark]).length := by
                  rw [← (ht' _ fills_mark).2, List.length_drop, List.length_cons]
                  omega
                obtain ⟨s, u, hs⟩ := ih _ hlength hr' rfl
                refine ⟨s.cons d, u, fun k hk => ?_⟩
                simp only [(ht' k hk).1]
                rw [stringRest_drop, (ht' k hk).2, hs k hk, Holed.fill_cons]
                rfl
              · exact absurd hr (by simp)
            · obtain ⟨r', hr', -⟩ := Option.map_eq_some_iff.mp hr
              obtain ⟨s, u, hs⟩ := ih _ (Nat.lt_succ_self _) hr' rfl
              refine ⟨s.cons c, u, fun k hk => ?_⟩
              rw [hs k hk, Holed.fill_cons]
              rfl

end Json

/-! ## What a text spells -/

namespace Json

open Holed (Fills mark fills_mark)

variable {P : Char → Prop} {cs ds : List Char}

/-- All characters of a text, and all that escapes in it stand for, are of one sort. -/
def Spells (P : Char → Prop) (cs : List Char) : Prop :=
  ∀ c ds, c :: ds <:+ cs → P c ∧ (c = '\\' → ∀ d used, escape? ds = some (d, used) → P d)

theorem Spells.suffix (h : Spells P cs) (hds : ds <:+ cs) : Spells P ds :=
  fun c es hes => h c es (hes.trans hds)

theorem Spells.tail {c : Char} (h : Spells P (c :: cs)) : Spells P cs :=
  h.suffix (List.suffix_cons c cs)

theorem Spells.cons {c : Char} {h : Holed} (hP : Spells P ((h.cons c).fill [mark])) :
    Spells P (h.fill [mark]) :=
  Spells.tail (Holed.fill_cons [mark] c h ▸ hP)

theorem Spells.skipSpace {h : Holed} (hP : Spells P (h.fill [mark])) :
    Spells P (h.skipSpace.fill [mark]) :=
  Holed.fill_skipSpace fills_mark h ▸ hP.suffix (List.dropWhile_suffix _)

/-- A string has characters that the text spells, and so has what is left. -/
theorem Spells.stringRest {n : ℕ} {s rest : List Char} (hP : Spells P cs)
    (hs : stringRest n cs = some (s, rest)) : (∀ c ∈ s, P c) ∧ Spells P rest := by
  induction cs generalizing n s with
  | nil => exact absurd hs (by simp [Json.stringRest])
  | cons c cs ih =>
      obtain ⟨hc, hescape⟩ := hP c cs List.suffix_rfl
      cases n with
      | succ n => exact ih hP.tail hs
      | zero =>
          rw [Json.stringRest] at hs
          split_ifs at hs with hquote hslash
          · obtain ⟨rfl, rfl⟩ := Prod.mk.inj (Option.some.inj hs)
            exact ⟨by simp, hP.tail⟩
          · split at hs
            · next d used hd =>
              obtain ⟨⟨s', rest'⟩, hmore, heq⟩ := Option.map_eq_some_iff.mp hs
              obtain ⟨rfl, rfl⟩ := Prod.mk.inj heq
              obtain ⟨hs', hrest⟩ := ih hP.tail hmore
              exact ⟨List.forall_mem_cons.mpr ⟨hescape hslash d used hd, hs'⟩, hrest⟩
            · exact absurd hs (by simp)
          · obtain ⟨⟨s', rest'⟩, hmore, heq⟩ := Option.map_eq_some_iff.mp hs
            obtain ⟨rfl, rfl⟩ := Prod.mk.inj heq
            obtain ⟨hs', hrest⟩ := ih hP.tail hmore
            exact ⟨List.forall_mem_cons.mpr ⟨hc, hs'⟩, hrest⟩

/-- A string with the hole in it, or before it, has characters that the text spells. -/
theorem exists_string {h : Holed} {r : List Char × List Char} (hP : Spells P (h.fill [mark]))
    (hr : Json.stringRest 0 (h.fill [mark]) = some r) :
    ∃ s t : Holed, (∀ k, Fills k → Json.stringRest 0 (h.fill k) = some (s.fill k, t.fill k)) ∧
      s.AllOf P ∧ Spells P (t.fill [mark]) := by
  obtain ⟨s, t, hst⟩ := stringRest_fill hr
  exact ⟨s, t, hst, hP.stringRest (hst _ fills_mark)⟩

end Json

/-! ## Values -/

/-- A JSON value with holes in its texts. The entries of an object are those that are written, so
names may be repeated. -/
inductive Form where
  | atom (v : Json) (h : v.IsAtom)
  | text (h : Holed)
  | list (items : List Form)
  | object (entries : List (Holed × Form))

namespace Form

mutual

/-- The value with a key in the holes. -/
def fill (k : List Char) : Form → Json
  | atom v _ => v
  | text h => .text (String.ofList (h.fill k))
  | list items => .list (fillItems k items)
  | object entries => .object (Entries.ofList (fillEntries k entries))

def fillItems (k : List Char) : List Form → List Json
  | [] => []
  | f :: fs => f.fill k :: fillItems k fs

def fillEntries (k : List Char) : List (Holed × Form) → List (String × Json)
  | [] => []
  | (h, f) :: es => (String.ofList (h.fill k), f.fill k) :: fillEntries k es

end

mutual

/-- The texts of a form, names included. -/
def texts : Form → List Holed
  | atom _ _ => []
  | text h => [h]
  | list items => itemTexts items
  | object entries => entryTexts entries

def itemTexts : List Form → List Holed
  | [] => []
  | f :: fs => f.texts ++ itemTexts fs

def entryTexts : List (Holed × Form) → List Holed
  | [] => []
  | (h, f) :: es => h :: f.texts ++ entryTexts es

end

end Form

namespace Json

open Holed (Fills mark fills_mark)

variable {h : Holed}

/-- What may follow a value: nothing, a blank, a comma or a closing bracket. -/
def Follows (rest : List Char) : Prop :=
  ∀ c ∈ rest.head?, isSpace c = true ∨ c = ',' ∨ c = ']' ∨ c = '\x7d'

theorem follows_of_skipSpace {rest cs : List Char} {c : Char} (h : skipSpace rest = c :: cs)
    (hc : c = ',' ∨ c = ']' ∨ c = '\x7d') : Follows rest := by
  intro d hd
  obtain ⟨ds, rfl⟩ := List.head?_eq_some_iff.mp hd
  by_cases hspace : isSpace d = true
  · exact .inl hspace
  · rw [skipSpace_cons ((Bool.not_eq_true _).mp hspace)] at h
    obtain ⟨rfl, -⟩ := List.cons.inj h
    exact .inr hc

theorem follows_of_skipSpace_eq_nil {rest : List Char} (h : skipSpace rest = []) :
    Follows rest := by
  intro d hd
  obtain ⟨ds, rfl⟩ := List.head?_eq_some_iff.mp hd
  by_cases hspace : isSpace d = true
  · exact .inl hspace
  · rw [skipSpace_cons ((Bool.not_eq_true _).mp hspace)] at h
    exact absurd h (by simp)

theorem isStop_of_isSpace {c : Char} (h : isSpace c = true) : isStop c = true := by
  simp only [isSpace, Bool.or_eq_true, beq_iff_eq] at h
  rcases h with ((rfl | rfl) | rfl) | rfl <;> decide

theorem Follows.stops {rest : List Char} (h : Follows rest) : Stops rest := by
  intro c hc
  rcases h c hc with hspace | rfl | rfl | rfl
  · exact isStop_of_isSpace hspace
  all_goals decide

/-- A scalar stands before the hole and does not touch it. -/
theorem scalar?_fill {v : Json} {rest : List Char} (hv : scalar? (h.fill [mark]) = some (v, rest))
    (hrest : Follows rest) : ∃ t : Holed, ∀ k, scalar? (h.fill k) = some (v, t.fill k) := by
  cases h with
  | whole cs => exact ⟨.whole rest, fun _ => hv⟩
  | around before after =>
      -- the mark is a stop, so the scalar is read from what stands before the hole
      have hmark : Stops (mark :: after) := stops_cons (by decide) after
      have hsplit := scalar?_stop before hmark
      rw [Holed.fill, List.append_assoc] at hv
      obtain ⟨⟨w, tail⟩, htail, heq⟩ := Option.map_eq_some_iff.mp (hsplit.symm.trans hv)
      obtain ⟨rfl, rfl⟩ := Prod.mk.inj heq
      -- and it does not touch the hole, as the mark follows no value
      have hne : tail ≠ [] := by
        rintro rfl
        exact absurd (hrest mark rfl) (by decide)
      have hstops : Stops tail := by
        intro c hc
        obtain ⟨cs, rfl⟩ := List.head?_eq_some_iff.mp hc
        exact hrest.stops c rfl
      refine ⟨.around tail after, fun k => ?_⟩
      rw [Holed.fill, Holed.fill, List.append_assoc, List.append_assoc]
      exact scalar?_past htail hne hstops (k ++ after)

/-- Whatever fills the hole, the text starts with what a form gives, and another text is left. -/
def Starts {α : Type} (read : ℕ → List Char → Option (α × List Char)) (fuel : ℕ) (h : Holed)
    (value : List Char → α) (t : Holed) : Prop :=
  ∀ k, Fills k → ∀ n, fuel ≤ n → read n (h.fill k) = some (value k, t.fill k)

variable {fuel : ℕ} {f : Form} {fs : List Form} {es : List (Holed × Form)} {s t u : Holed}
  {P : Char → Prop}

theorem Starts.rest_eq {α : Type} {read : ℕ → List Char → Option (α × List Char)}
    {value : List Char → α} {a : α} {rest : List Char} (h : Starts read fuel s value t)
    (hrest : read fuel (s.fill [mark]) = some (a, rest)) : rest = t.fill [mark] :=
  (Prod.mk.inj (Option.some.inj (hrest.symm.trans (h _ fills_mark _ le_rfl)))).2

theorem exists_succ {n : ℕ} (h : fuel + 1 ≤ n) : ∃ m, n = m + 1 ∧ fuel ≤ m :=
  ⟨n - 1, by omega, by omega⟩

theorem Starts.scalar {v : Json} (hv : v.IsAtom)
    (h : ∀ k, scalar? (s.fill k) = some (v, t.fill k)) :
    Starts value? (fuel + 1) s (Form.fill · (.atom v hv)) t := by
  intro k hk n hn
  obtain ⟨m, rfl, hm⟩ := exists_succ hn
  exact value?_of_scalar? (h k)

theorem Starts.text (h : ∀ k, Fills k → stringRest 0 (s.fill k) = some (u.fill k, t.fill k)) :
    Starts value? (fuel + 1) (s.cons '"') (Form.fill · (.text u)) t := by
  intro k hk n hn
  obtain ⟨m, rfl, hm⟩ := exists_succ hn
  rw [Holed.fill_cons, value?, h k hk]
  rfl

theorem Starts.emptyList (h : s.skipSpace = t.cons ']') :
    Starts value? (fuel + 1) (s.cons '[') (Form.fill · (.list [])) t := by
  intro k hk n hn
  obtain ⟨m, rfl, hm⟩ := exists_succ hn
  rw [Holed.fill_cons, value?, Holed.fill_skipSpace hk, h, Holed.fill_cons]
  rfl

theorem Starts.list (h : Starts items? fuel s.skipSpace (Form.fillItems · fs) t) :
    Starts value? (fuel + 1) (s.cons '[') (Form.fill · (.list fs)) t := by
  intro k hk n hn
  obtain ⟨m, rfl, hm⟩ := exists_succ hn
  have hitems := h k hk m hm
  rw [Holed.fill_cons, value?, Holed.fill_skipSpace hk]
  split
  · next heq =>
    rw [heq] at hitems
    exact absurd rfl (starts_of_items? hitems).2
  · rw [hitems]
    rfl

theorem Starts.emptyObject (h : s.skipSpace = t.cons '\x7d') :
    Starts value? (fuel + 1) (s.cons '\x7b') (Form.fill · (.object [])) t := by
  intro k hk n hn
  obtain ⟨m, rfl, hm⟩ := exists_succ hn
  rw [Holed.fill_cons, value?, Holed.fill_skipSpace hk, h, Holed.fill_cons]
  rfl

theorem Starts.object (h : Starts members? fuel s.skipSpace (Form.fillEntries · es) t) :
    Starts value? (fuel + 1) (s.cons '\x7b') (Form.fill · (.object es)) t := by
  intro k hk n hn
  obtain ⟨m, rfl, hm⟩ := exists_succ hn
  have hmembers := h k hk m hm
  rw [Holed.fill_cons, value?, Holed.fill_skipSpace hk]
  split
  · next heq =>
    rw [heq] at hmembers
    exact absurd (starts_of_members? hmembers) (by simp)
  · rw [hmembers]
    rfl

theorem Starts.lastItem (h : Starts value? fuel s (Form.fill · f) u)
    (hu : u.skipSpace = t.cons ']') :
    Starts items? (fuel + 1) s (Form.fillItems · [f]) t := by
  intro k hk n hn
  obtain ⟨m, rfl, hm⟩ := exists_succ hn
  rw [items?, h k hk m hm]
  dsimp only
  rw [Holed.fill_skipSpace hk, hu, Holed.fill_cons]
  rfl

theorem Starts.item (h : Starts value? fuel s (Form.fill · f) u) {u' : Holed}
    (hu : u.skipSpace = u'.cons ',')
    (hfs : Starts items? fuel u'.skipSpace (Form.fillItems · fs) t) :
    Starts items? (fuel + 1) s (Form.fillItems · (f :: fs)) t := by
  intro k hk n hn
  obtain ⟨m, rfl, hm⟩ := exists_succ hn
  rw [items?, h k hk m hm]
  dsimp only
  rw [Holed.fill_skipSpace hk, hu, Holed.fill_cons]
  show (items? m (skipSpace (u'.fill k))).map _ = _
  rw [Holed.fill_skipSpace hk, hfs k hk m hm]
  rfl

/-- An entry up to its end: a name, a colon and a value. -/
def Enters (fuel : ℕ) (s name : Holed) (f : Form) (u : Holed) : Prop :=
  ∃ t t' : Holed, (∀ k, Fills k → stringRest 0 (s.fill k) = some (name.fill k, t.fill k)) ∧
    t.skipSpace = t'.cons ':' ∧ Starts value? fuel t'.skipSpace (Form.fill · f) u

theorem Starts.lastMember {name : Holed} (h : Enters fuel s name f u)
    (hu : u.skipSpace = t.cons '\x7d') :
    Starts members? (fuel + 1) (s.cons '"') (Form.fillEntries · [(name, f)]) t := by
  intro k hk n hn
  obtain ⟨m, rfl, hm⟩ := exists_succ hn
  obtain ⟨c, c', hname, hcolon, hvalue⟩ := h
  rw [Holed.fill_cons, members?, hname k hk]
  dsimp only
  rw [Holed.fill_skipSpace hk, hcolon, Holed.fill_cons]
  simp only [Holed.fill_skipSpace hk, hvalue k hk m hm]
  rw [hu, Holed.fill_cons]
  rfl

theorem Starts.member {name u' : Holed} (h : Enters fuel s name f u)
    (hu : u.skipSpace = u'.cons ',')
    (hes : Starts members? fuel u'.skipSpace (Form.fillEntries · es) t) :
    Starts members? (fuel + 1) (s.cons '"') (Form.fillEntries · ((name, f) :: es)) t := by
  intro k hk n hn
  obtain ⟨m, rfl, hm⟩ := exists_succ hn
  obtain ⟨c, c', hname, hcolon, hvalue⟩ := h
  rw [Holed.fill_cons, members?, hname k hk]
  dsimp only
  rw [Holed.fill_skipSpace hk, hcolon, Holed.fill_cons]
  simp only [Holed.fill_skipSpace hk, hvalue k hk m hm]
  rw [hu, Holed.fill_cons]
  show (members? m (skipSpace (u'.fill k))).map _ = _
  rw [Holed.fill_skipSpace hk, hes k hk m hm]
  rfl

/-- A character that is seen behind blanks with the mark in the hole stands before the hole. -/
theorem exists_tail_skipSpace {c : Char} {cs : List Char} (hP : Spells P (s.fill [mark]))
    (h : skipSpace (s.fill [mark]) = c :: cs) (hc : c ≠ mark) :
    ∃ t : Holed, s.skipSpace = t.cons c ∧ t.fill [mark] = cs ∧ Spells P (t.fill [mark]) := by
  rw [Holed.fill_skipSpace fills_mark] at h
  obtain ⟨t, ht, rfl⟩ := Holed.exists_tail h hc
  exact ⟨t, ht, rfl, Spells.cons (ht ▸ hP.skipSpace)⟩

mutual

theorem value?_fill : ∀ (fuel : ℕ) {h : Holed} {v : Json} {rest : List Char},
    Spells P (h.fill [mark]) → value? fuel (h.fill [mark]) = some (v, rest) → Follows rest →
      ∃ (f : Form) (t : Holed), Starts value? fuel h (Form.fill · f) t ∧
        (∀ g ∈ f.texts, g.AllOf P) ∧ Spells P (t.fill [mark])
  | 0, _, _, _, _, hv, _ => absurd hv (by simp [value?])
  | fuel + 1, h, v, rest, hP, hv, hrest => by
      unfold value? at hv
      split at hv
      · next heq => exact absurd heq (Nat.succ_ne_zero _)
      · next heq =>
        obtain ⟨s, rfl, rfl⟩ := Holed.exists_tail heq (by decide)
        obtain ⟨r, hr, -⟩ := Option.map_eq_some_iff.mp hv
        obtain ⟨u, t, hstring, hu, ht⟩ := exists_string hP.cons hr
        exact ⟨.text u, t, .text hstring, List.forall_mem_singleton.mpr hu, ht⟩
      · next hfuel heq =>
        obtain rfl := Nat.succ.inj hfuel
        obtain ⟨s, rfl, rfl⟩ := Holed.exists_tail heq (by decide)
        split at hv
        · next hskip =>
          obtain ⟨t, ht, -, hleft⟩ := exists_tail_skipSpace hP.cons hskip (by decide)
          exact ⟨.list [], t, .emptyList ht, by simp [Form.texts, Form.itemTexts], hleft⟩
        · obtain ⟨r, hitems, -⟩ := Option.map_eq_some_iff.mp hv
          rw [Holed.fill_skipSpace fills_mark] at hitems
          obtain ⟨fs, t, hfs, htexts, ht⟩ := items?_fill _ hP.cons.skipSpace hitems
          exact ⟨.list fs, t, .list hfs, htexts, ht⟩
      · next hfuel heq =>
        obtain rfl := Nat.succ.inj hfuel
        obtain ⟨s, rfl, rfl⟩ := Holed.exists_tail heq (by decide)
        split at hv
        · next hskip =>
          obtain ⟨t, ht, -, hleft⟩ := exists_tail_skipSpace hP.cons hskip (by decide)
          exact ⟨.object [], t, .emptyObject ht, by simp [Form.texts, Form.entryTexts], hleft⟩
        · obtain ⟨r, hmembers, -⟩ := Option.map_eq_some_iff.mp hv
          rw [Holed.fill_skipSpace fills_mark] at hmembers
          obtain ⟨es, t, hes, htexts, ht⟩ := members?_fill _ hP.cons.skipSpace hmembers
          exact ⟨.object es, t, .object hes, htexts, ht⟩
      · obtain ⟨t, ht⟩ := scalar?_fill hv hrest
        have hleft := hP.suffix (suffix_of_scalar? (ht [mark]))
        exact ⟨.atom v (isAtom_of_scalar? hv), t, .scalar _ ht, by simp [Form.texts], hleft⟩

theorem items?_fill : ∀ (fuel : ℕ) {h : Holed} {r : List Json × List Char},
    Spells P (h.fill [mark]) → items? fuel (h.fill [mark]) = some r →
      ∃ (fs : List Form) (t : Holed), Starts items? fuel h (Form.fillItems · fs) t ∧
        (∀ g ∈ Form.itemTexts fs, g.AllOf P) ∧ Spells P (t.fill [mark])
  | 0, _, _, _, hv => absurd hv (by simp [items?])
  | fuel + 1, h, r, hP, hitems => by
      unfold items? at hitems
      split at hitems
      · exact absurd hitems (by simp)
      · next v rest hv =>
        split at hitems
        · next hskip =>
          obtain ⟨f, u, hf, htexts, hu⟩ :=
            value?_fill fuel hP hv (follows_of_skipSpace hskip (by simp))
          obtain rfl := hf.rest_eq hv
          obtain ⟨t, ht, -, hleft⟩ := exists_tail_skipSpace hu hskip (by decide)
          exact ⟨[f], t, .lastItem hf ht, by simpa [Form.itemTexts] using htexts, hleft⟩
        · next hskip =>
          obtain ⟨f, u, hf, htexts, hu⟩ :=
            value?_fill fuel hP hv (follows_of_skipSpace hskip (by simp))
          obtain rfl := hf.rest_eq hv
          obtain ⟨u', hu', rfl, hleft⟩ := exists_tail_skipSpace hu hskip (by decide)
          obtain ⟨r', hmore, -⟩ := Option.map_eq_some_iff.mp hitems
          rw [Holed.fill_skipSpace fills_mark] at hmore
          obtain ⟨fs, t, hfs, hmoreTexts, ht⟩ := items?_fill fuel hleft.skipSpace hmore
          exact ⟨f :: fs, t, .item hf hu' hfs, List.forall_mem_append.mpr ⟨htexts, hmoreTexts⟩, ht⟩
        · exact absurd hitems (by simp)

theorem members?_fill : ∀ (fuel : ℕ) {h : Holed} {r : List (String × Json) × List Char},
    Spells P (h.fill [mark]) → members? fuel (h.fill [mark]) = some r →
      ∃ (es : List (Holed × Form)) (t : Holed), Starts members? fuel h (Form.fillEntries · es) t ∧
        (∀ g ∈ Form.entryTexts es, g.AllOf P) ∧ Spells P (t.fill [mark])
  | 0, _, _, _, hv => absurd hv (by simp [members?])
  | fuel + 1, h, r, hP, hmembers => by
      unfold members? at hmembers
      split at hmembers
      · next heq => exact absurd heq (Nat.succ_ne_zero _)
      · next hfuel heq =>
        obtain rfl := Nat.succ.inj hfuel
        obtain ⟨s, rfl, rfl⟩ := Holed.exists_tail heq (by decide)
        split at hmembers
        · exact absurd hmembers (by simp)
        · next name rest hstring =>
          obtain ⟨name, t, hname, hnameOf, ht⟩ := exists_string hP.cons hstring
          obtain ⟨-, rfl⟩ := Prod.mk.inj (Option.some.inj (hstring.symm.trans (hname _ fills_mark)))
          split at hmembers
          · next hskip =>
            obtain ⟨t', hcolon, rfl, ht'⟩ := exists_tail_skipSpace ht hskip (by decide)
            split at hmembers
            · exact absurd hmembers (by simp)
            · next v rest' hv =>
              rw [Holed.fill_skipSpace fills_mark] at hv
              split at hmembers
              · next hskip =>
                obtain ⟨f, u, hf, htexts, hu⟩ :=
                  value?_fill _ ht'.skipSpace hv (follows_of_skipSpace hskip (by simp))
                obtain rfl := hf.rest_eq hv
                obtain ⟨t₁, ht₁, -, hleft⟩ := exists_tail_skipSpace hu hskip (by decide)
                exact ⟨[(name, f)], t₁, .lastMember ⟨t, t', hname, hcolon, hf⟩ ht₁,
                  by simpa [Form.entryTexts] using ⟨hnameOf, htexts⟩, hleft⟩
              · next hskip =>
                obtain ⟨f, u, hf, htexts, hu⟩ :=
                  value?_fill _ ht'.skipSpace hv (follows_of_skipSpace hskip (by simp))
                obtain rfl := hf.rest_eq hv
                obtain ⟨u', hu', rfl, hleft⟩ := exists_tail_skipSpace hu hskip (by decide)
                obtain ⟨r', hmore, -⟩ := Option.map_eq_some_iff.mp hmembers
                rw [Holed.fill_skipSpace fills_mark] at hmore
                obtain ⟨es, t₁, hes, hmoreTexts, ht₁⟩ :=
                  members?_fill _ hleft.skipSpace hmore
                refine ⟨(name, f) :: es, t₁, .member ⟨t, t', hname, hcolon, hf⟩ hu' hes, ?_, ht₁⟩
                exact List.forall_mem_cons.mpr
                  ⟨hnameOf, List.forall_mem_append.mpr ⟨htexts, hmoreTexts⟩⟩
              · exact absurd hmembers (by simp)
          · exact absurd hmembers (by simp)
      · exact absurd hmembers (by simp)

end

theorem length_fill_mark_le {k : List Char} (hk : Fills k) (h : Holed) :
    (h.fill [mark]).length ≤ (h.fill k).length := by
  have hlength := List.length_pos_of_ne_nil hk.ne_nil
  cases h with
  | whole cs => exact le_rfl
  | around before after =>
      simp only [Holed.fill, List.length_append, List.length_singleton]
      omega

/-- **A text that is JSON with a mark in its hole is a form**, and with a key in the hole it is JSON
too: what the form gives with that key. The texts of the form are spelled in the text. -/
theorem exists_form {v : Json} (hP : Spells P (h.fill [mark]))
    (hv : ofChars? (h.fill [mark]) = some v) :
    ∃ f : Form, (∀ k, Fills k → ofChars? (h.fill k) = some (f.fill k)) ∧
      ∀ g ∈ f.texts, g.AllOf P := by
  unfold ofChars? at hv
  split at hv
  · next w rest hw =>
    split_ifs at hv with hrest
    rw [Holed.fill_skipSpace fills_mark] at hw
    rw [List.isEmpty_iff] at hrest
    obtain ⟨f, t, hf, htexts, -⟩ :=
      value?_fill _ hP.skipSpace hw (follows_of_skipSpace_eq_nil hrest)
    obtain rfl := hf.rest_eq hw
    -- nothing is left with the mark in the hole, so the hole is not in what is left
    have hend : t.skipSpace = .whole [] := by
      rw [Holed.fill_skipSpace fills_mark] at hrest
      revert hrest
      cases t.skipSpace with
      | whole cs => exact congrArg Holed.whole
      | around before after => exact fun h => absurd h (by simp [Holed.fill])
    refine ⟨f, fun k hk => ?_, htexts⟩
    have hlength := length_fill_mark_le hk h
    rw [ofChars?, Holed.fill_skipSpace hk, hf k hk _ (by omega)]
    dsimp only
    rw [Holed.fill_skipSpace hk, hend]
    rfl
  · exact absurd hv (by simp)

end Json

namespace Template

open Holed (Fills mark)

/-- The characters of the text, with its hole. -/
def holed (t : Template) : Holed := .around t.before.toList t.after.toList

theorem toList_fill_holed (t : Template) (key : String) :
    (t.fill key).toList = t.holed.fill key.toList := toList_fill t key

theorem ofList_fill_holed (t : Template) (key : String) :
    String.ofList (t.holed.fill key.toList) = t.fill key := by
  rw [← toList_fill_holed, String.ofList_toList]

/-- The text is JSON with its hole in a string: with any key it reads as a form with that key. -/
def Writes (t : Template) (f : Form) : Prop :=
  ∀ key : String, Fills key.toList → Json.read? (t.fill key) = some (f.fill key.toList)

/-- Whether the hole of a text is in a string of JSON can be seen with the mark in it. The texts of
the JSON value are spelled in the text. -/
theorem exists_writes {P : Char → Prop} (t : Template)
    (h : (Json.read? (t.fill (String.ofList [mark]))).isSome)
    (hP : Json.Spells P (t.holed.fill [mark])) :
    ∃ f : Form, t.Writes f ∧ ∀ g ∈ f.texts, g.AllOf P := by
  obtain ⟨v, hv⟩ := Option.isSome_iff_exists.mp h
  rw [Json.read?, toList_fill_holed, String.toList_ofList] at hv
  obtain ⟨f, hf, htexts⟩ := Json.exists_form hP hv
  refine ⟨f, fun key hkey => ?_, htexts⟩
  rw [Json.read?, toList_fill_holed]
  exact hf key.toList hkey

end Template

end ChatClient
