import ChatClient.Json.Printer
import ChatClient.Proofs.Forms

/-!
# The inside of strings

A reader of a JSON text is outside of its strings, inside one, or behind a backslash in one. Which
of these it is can be told without reading values, by going through the text with `Spot.next`. In a
text that reads as a value the characters that markup starts with stand inside of strings only, and
no blank stands behind a backslash: the text is `Sound`.

How many characters there are inside of the strings of a text is its `interior`. The compact text of
a value has as many as its strings and names need, and every text that reads as the value has at
least as many.
-/

namespace ChatClient.Json

open Text

/-- Where a reader of a text is, as far as strings are concerned. -/
inductive Spot where
  | outside
  | inside
  | escaped
  deriving DecidableEq

/-- The characters that markup starts with. -/
def markStarts : List Char := ['<', '\x60']

theorem mem_markStarts {c : Char} : c ∈ markStarts ↔ c = '<' ∨ c = '\x60' := by simp [markStarts]

namespace Spot

/-- Where the reader is behind a character. -/
def next : Spot → Char → Spot
  | .outside, c => if c = '"' then .inside else .outside
  | .inside, c => if c = '"' then .outside else if c = '\\' then .escaped else .inside
  | .escaped, _ => .inside

/-- Where the reader is behind a text. -/
def after (p : Spot) (cs : List Char) : Spot := cs.foldl next p

/-- Whether a character is one of those inside of a string. -/
def holds : Spot → Char → Bool
  | .outside, _ => false
  | .inside, c => c != '"'
  | .escaped, _ => true

/-- How many characters of a text are inside of strings. -/
def interior (p : Spot) : List Char → Nat
  | [] => 0
  | c :: cs => (p.holds c).toNat + (p.next c).interior cs

/-- Which characters may stand somewhere: what markup starts with stands inside of strings, and a
blank stands behind no backslash. -/
def Takes : Spot → Char → Prop
  | .outside, c => c ∉ markStarts
  | .inside, _ => True
  | .escaped, c => c ∉ markStarts ∧ isBlank c = false

/-- Each character of a text may stand where it stands. -/
def Sound (p : Spot) : List Char → Prop
  | [] => True
  | c :: cs => p.Takes c ∧ (p.next c).Sound cs

instance (p : Spot) (c : Char) : Decidable (p.Takes c) :=
  match p with
  | .outside => inferInstanceAs (Decidable (c ∉ markStarts))
  | .inside => inferInstanceAs (Decidable True)
  | .escaped => inferInstanceAs (Decidable (c ∉ markStarts ∧ isBlank c = false))

variable {p q r : Spot} {cs ds rest : List Char} {n m : Nat}

@[simp] theorem after_nil (p : Spot) : p.after [] = p := rfl

@[simp] theorem after_cons (p : Spot) (c : Char) (cs : List Char) :
    p.after (c :: cs) = (p.next c).after cs := rfl

@[simp] theorem after_append (p : Spot) (cs ds : List Char) :
    p.after (cs ++ ds) = (p.after cs).after ds :=
  List.foldl_append

@[simp] theorem interior_append (p : Spot) (cs ds : List Char) :
    p.interior (cs ++ ds) = p.interior cs + (p.after cs).interior ds := by
  induction cs generalizing p with
  | nil => simp [interior]
  | cons c cs ih => simp only [List.cons_append, interior, after_cons, ih]; omega

@[simp] theorem sound_append (p : Spot) (cs ds : List Char) :
    p.Sound (cs ++ ds) ↔ p.Sound cs ∧ (p.after cs).Sound ds := by
  induction cs generalizing p with
  | nil => simp [Sound]
  | cons c cs ih => simp only [List.cons_append, Sound, after_cons, ih, and_assoc]

theorem interior_le_length (p : Spot) (cs : List Char) : p.interior cs ≤ cs.length := by
  induction cs generalizing p with
  | nil => exact Nat.le_refl 0
  | cons c cs ih =>
      have hrest := ih (p.next c)
      have hone := (p.holds c).toNat_le
      rw [interior, List.length_cons]
      omega

/-- What markup starts with stands inside of a string. -/
theorem inside_of_takes {c : Char} (hc : c ∈ markStarts) (h : p.Takes c) : p = .inside := by
  cases p with
  | outside => exact absurd hc h
  | inside => rfl
  | escaped => exact absurd hc h.1

/-! ## Pieces that are easily told -/

/-- A character without a meaning for strings. -/
def IsPlain (c : Char) : Prop := c ≠ '"' ∧ c ≠ '\\'

theorem next_inside {c : Char} (hc : IsPlain c) : inside.next c = .inside := by
  rw [next, if_neg hc.1, if_neg hc.2]

/-- Inside of a string a plain text leads on inside of it, and all of it counts. -/
theorem inside_plain (h : ∀ c ∈ cs, IsPlain c) :
    inside.Sound cs ∧ inside.after cs = .inside ∧ inside.interior cs = cs.length := by
  induction cs with
  | nil => exact ⟨trivial, rfl, rfl⟩
  | cons c cs ih =>
      obtain ⟨hc, hcs⟩ := List.forall_mem_cons.mp h
      obtain ⟨hsound, hafter, hinterior⟩ := ih hcs
      have hholds : inside.holds c = true := by simpa [holds] using hc.1
      simp only [Sound, after_cons, interior, next_inside hc, hholds, List.length_cons]
      exact ⟨⟨trivial, hsound⟩, hafter, by simp only [hinterior, Bool.toNat_true]; omega⟩

/-- Outside of strings nothing counts that is no quote. -/
theorem outside_quoteless (h : ∀ c ∈ cs, c ≠ '"') :
    outside.after cs = .outside ∧ outside.interior cs = 0 := by
  induction cs with
  | nil => exact ⟨rfl, rfl⟩
  | cons c cs ih =>
      obtain ⟨hc, hcs⟩ := List.forall_mem_cons.mp h
      have hnext : outside.next c = .outside := if_neg hc
      simp only [after_cons, interior, hnext, holds]
      exact ⟨(ih hcs).1, by simpa using (ih hcs).2⟩

theorem sound_of_forall (h : ∀ c ∈ cs, c ∉ markStarts) (hquote : ∀ c ∈ cs, c ≠ '"') :
    outside.Sound cs := by
  induction cs with
  | nil => trivial
  | cons c cs ih =>
      obtain ⟨hc, hcs⟩ := List.forall_mem_cons.mp h
      obtain ⟨hne, hquote⟩ := List.forall_mem_cons.mp hquote
      have hnext : outside.next c = .outside := if_neg hne
      exact ⟨hc, hnext.symm ▸ ih hcs hquote⟩

/-! ## Reading -/

/-- A reader that is at `p` comes through a sound piece of a text to `q`, where `rest` is left, and
the piece has at least so many characters inside of strings. -/
def Reads (p : Spot) (cs : List Char) (q : Spot) (rest : List Char) (n : Nat) : Prop :=
  ∃ used, cs = used ++ rest ∧ p.Sound used ∧ p.after used = q ∧ n ≤ p.interior used

theorem Reads.refl (p : Spot) (cs : List Char) : p.Reads cs p cs 0 :=
  ⟨[], rfl, trivial, rfl, Nat.zero_le _⟩

theorem Reads.trans (h : p.Reads cs q ds n) (h' : q.Reads ds r rest m) :
    p.Reads cs r rest (n + m) := by
  obtain ⟨used, rfl, hsound, rfl, hn⟩ := h
  obtain ⟨used', rfl, hsound', rfl, hm⟩ := h'
  refine ⟨used ++ used', (List.append_assoc _ _ _).symm, ?_, after_append _ _ _, ?_⟩
  · exact (sound_append _ _ _).mpr ⟨hsound, hsound'⟩
  · rw [interior_append]
    exact Nat.add_le_add hn hm

theorem Reads.mono (h : p.Reads cs q rest n) (hm : m ≤ n) : p.Reads cs q rest m := by
  obtain ⟨used, hcs, hsound, hafter, hn⟩ := h
  exact ⟨used, hcs, hsound, hafter, hm.trans hn⟩

/-- One character is read, and then the others. -/
theorem Reads.cons {c : Char} (hc : p.Takes c) (h : (p.next c).Reads cs q rest n) :
    p.Reads (c :: cs) q rest ((p.holds c).toNat + n) := by
  obtain ⟨used, rfl, hsound, hafter, hn⟩ := h
  exact ⟨c :: used, rfl, ⟨hc, hsound⟩, hafter, Nat.add_le_add_left hn _⟩

/-- A sign of the grammar is read, and then the others. -/
theorem Reads.sign {c : Char} (hc : c ∈ ['[', ']', '\x7b', '\x7d', ',', ':'])
    (h : outside.Reads cs q rest n) : outside.Reads (c :: cs) q rest n := by
  obtain ⟨hmark, hquote⟩ : c ∉ markStarts ∧ c ≠ '"' := by
    simp only [List.mem_cons, List.not_mem_nil, or_false] at hc
    rcases hc with rfl | rfl | rfl | rfl | rfl | rfl <;> decide
  have hnext : outside.next c = .outside := if_neg hquote
  have hread := Reads.cons (p := .outside) hmark (hnext ▸ h)
  rwa [holds, Bool.toNat_false, Nat.zero_add] at hread

theorem Reads.space (h : outside.Reads (skipSpace cs) q rest n) : outside.Reads cs q rest n := by
  have hspaces : ∀ c ∈ cs.takeWhile isSpace, c ∉ markStarts ∧ c ≠ '"' := by
    intro c hc
    have hspace := List.mem_takeWhile_imp hc
    simp only [isSpace, Bool.or_eq_true, beq_iff_eq] at hspace
    rcases hspace with ((rfl | rfl) | rfl) | rfl <;> decide
  obtain ⟨hafter, hinterior⟩ := outside_quoteless fun c hc => (hspaces c hc).2
  have hskipped : outside.Reads cs .outside (skipSpace cs) 0 := by
    refine ⟨cs.takeWhile isSpace, List.takeWhile_append_dropWhile.symm, ?_, hafter, Nat.zero_le _⟩
    exact sound_of_forall (fun c hc => (hspaces c hc).1) fun c hc => (hspaces c hc).2
  exact Nat.zero_add n ▸ hskipped.trans h

/-- A sign stands behind blanks, and what is behind it may come after more of them. -/
theorem Reads.then_sign {c : Char} {tail s : List Char} (h : p.Reads cs .outside rest n)
    (hsign : skipSpace rest = c :: tail) (hc : c ∈ ['[', ']', '\x7b', '\x7d', ',', ':'])
    (hmore : outside.Reads tail q s m) : p.Reads cs q s (n + m) :=
  h.trans (space (hsign ▸ sign hc hmore))

end Spot

open Spot

variable {cs rest : List Char}

/-! ## Strings -/

theorem isPlain_of_hexValue? {c : Char} {n : Nat} (h : hexValue? c = some n) : IsPlain c := by
  have hquote : hexValue? '"' = none := by decide
  have hslash : hexValue? '\\' = none := by decide
  refine ⟨fun hc => ?_, fun hc => ?_⟩
  · simp [hc, hquote] at h
  · simp [hc, hslash] at h

/-- Four digits are plain, and stand in a text before what is behind them. -/
theorem plain_of_hex4? {n : Nat} (h : hex4? cs = some n) :
    ∃ ds, cs = ds ++ cs.drop 4 ∧ ds.length = 4 ∧ ∀ c ∈ ds, IsPlain c := by
  unfold hex4? at h
  split at h
  · next a b c d cs =>
    simp only [Option.bind_eq_bind, Option.bind_eq_some_iff] at h
    obtain ⟨na, ha, nb, hb, nc, hc, nd, hd, -⟩ := h
    refine ⟨[a, b, c, d], rfl, rfl, ?_⟩
    simp only [List.forall_mem_cons]
    exact ⟨isPlain_of_hexValue? ha, isPlain_of_hexValue? hb, isPlain_of_hexValue? hc,
      isPlain_of_hexValue? hd, by simp⟩
  · exact absurd h (by simp)

/-- A character is written as it is, or behind a backslash as one letter or as four digits. -/
theorem escapeChar_cases (c : Char) :
    (IsPlain c ∧ escapeChar c = [c]) ∨ (∃ e, e ∉ markStarts ∧ escapeChar c = ['\\', e]) ∨
      (c.toNat < 0x20 ∧ escapeChar c = '\\' :: 'u' :: Text.hexDigits 4 c.toNat) := by
  unfold escapeChar
  split_ifs with hself hn hr ht hb hf hcontrol
  · have hc : c ∉ markStarts := by rcases hself with rfl | rfl <;> simp [mem_markStarts]
    exact .inr (.inl ⟨c, hc, rfl⟩)
  · exact .inr (.inl ⟨'n', by simp [mem_markStarts], rfl⟩)
  · exact .inr (.inl ⟨'r', by simp [mem_markStarts], rfl⟩)
  · exact .inr (.inl ⟨'t', by simp [mem_markStarts], rfl⟩)
  · exact .inr (.inl ⟨'b', by simp [mem_markStarts], rfl⟩)
  · exact .inr (.inl ⟨'f', by simp [mem_markStarts], rfl⟩)
  · exact .inr (.inr ⟨hcontrol, rfl⟩)
  · exact .inl ⟨not_or.mp hself, rfl⟩

theorem length_escapeChar (c : Char) : 1 ≤ (escapeChar c).length ∧ (escapeChar c).length ≤ 6 := by
  rcases escapeChar_cases c with ⟨-, h⟩ | ⟨e, -, h⟩ | ⟨-, h⟩
  · simp [h]
  · simp [h]
  · simp [h, Text.hexDigits]

/-- Four digits behind a `u` are read as what is behind a backslash. -/
theorem reads_unicode {n : Nat} (h : hex4? cs = some n) :
    escaped.Reads ('u' :: cs) .inside (cs.drop 4) 5 := by
  obtain ⟨ds, hcs, hlength, hplain⟩ := plain_of_hex4? h
  obtain ⟨hsound, hafter, hinterior⟩ := inside_plain hplain
  have hdigits : inside.Reads cs .inside (cs.drop 4) 4 :=
    ⟨ds, hcs, hsound, hafter, by rw [hinterior, hlength]⟩
  exact Reads.cons (p := .escaped) (by decide) hdigits

/-- An escape is read, with no fewer characters than the compact form needs. -/
theorem reads_escape? {d : Char} {used : Nat} (h : escape? cs = some (d, used)) :
    escaped.Reads cs .inside (cs.drop used) ((escapeChar d).length - 1) := by
  cases cs with
  | nil => exact absurd h (by simp [escape?])
  | cons c cs =>
      by_cases hu : c = 'u'
      · subst hu
        have hlength := length_escapeChar d
        rw [escape?_unicode] at h
        obtain ⟨n, hn, hescape⟩ := Option.map_eq_some_iff.mp h
        rcases unicode_used n (lowHalf? (cs.drop 4)) with hused | ⟨hused, hlow⟩
        · obtain rfl : 5 = used := by rw [← hused, hescape]
          exact (reads_unicode hn).mono (by omega)
        · -- the second half of a pair is an escape of its own
          obtain rfl : 11 = used := by rw [← hused, hescape]
          obtain ⟨low, hlow⟩ := Option.ne_none_iff_exists'.mp hlow
          unfold lowHalf? at hlow
          split at hlow
          · next ds heq =>
            have hhalf := reads_unicode (Option.filter_eq_some_iff.mp hlow).1
            have hsecond : inside.Reads ('\\' :: 'u' :: ds) .inside (ds.drop 4) (1 + 5) :=
              Reads.cons (p := .inside) trivial hhalf
            have hdrop : ('u' :: cs).drop 11 = ds.drop 4 := by
              rw [List.drop_succ_cons, show 10 = 4 + 6 from rfl, ← List.drop_drop, heq]
              rfl
            rw [hdrop]
            exact ((heq ▸ reads_unicode hn).trans hsecond).mono (by omega)
          · exact absurd hlow (by simp)
      · have hsimple : ∀ e ∈ [('"', '"'), ('\\', '\\'), ('/', '/'), ('n', '\n'), ('r', '\r'),
            ('t', '\t'), ('b', '\x08'), ('f', '\x0c')],
            (escapeChar e.2).length ≤ 2 ∧ escaped.Takes e.1 := by
          simp only [List.forall_mem_cons]
          decide
        have hone : (c, d) ∈ [('"', '"'), ('\\', '\\'), ('/', '/'), ('n', '\n'), ('r', '\r'),
            ('t', '\t'), ('b', '\x08'), ('f', '\x0c')] ∧ used = 1 := by
          simp only [escape?, if_neg hu] at h
          split_ifs at h with hself hn hr ht hb hf
          all_goals obtain ⟨rfl, rfl⟩ := Prod.mk.inj (Option.some.inj h)
          · rcases hself with rfl | rfl | rfl <;> simp
          all_goals subst c; simp
        obtain ⟨hmem, rfl⟩ := hone
        obtain ⟨hlength, htakes⟩ := hsimple _ hmem
        dsimp only at hlength htakes
        have hread := Reads.cons htakes (Reads.refl .inside cs)
        exact hread.mono (by simp only [holds, Bool.toNat_true]; omega)

/-- A string is read, with no fewer characters inside than the compact form needs. -/
theorem reads_string {s : List Char} (h : stringRest 0 cs = some (s, rest)) :
    inside.Reads cs .outside rest (s.flatMap escapeChar).length := by
  -- on the length, as an escape takes more than one character
  induction hn : cs.length using Nat.strong_induction_on generalizing cs s with
  | _ n ih =>
    cases cs with
    | nil => exact absurd h (by simp [stringRest])
    | cons c cs =>
        simp only [List.length_cons] at hn
        rw [stringRest] at h
        split_ifs at h with hquote hslash hcontrol
        · obtain ⟨rfl, rfl⟩ := Prod.mk.inj (Option.some.inj h)
          subst hquote
          exact Reads.cons (p := .inside) (c := '"') trivial (Reads.refl .outside cs)
        · subst hslash
          split at h
          · next d used hescape =>
            obtain ⟨⟨s', rest'⟩, hmore, heq⟩ := Option.map_eq_some_iff.mp h
            obtain ⟨rfl, rfl⟩ := Prod.mk.inj heq
            rw [stringRest_drop] at hmore
            have hless : (cs.drop used).length < n := by rw [List.length_drop]; omega
            have hrest := ih _ hless hmore rfl
            have hread := Reads.cons (p := .inside) (c := '\\') trivial
              ((reads_escape? hescape).trans hrest)
            refine hread.mono ?_
            have hpos := (length_escapeChar d).1
            have hholds : inside.holds '\\' = true := rfl
            rw [List.flatMap_cons, List.length_append, hholds, Bool.toNat_true]
            omega
          · exact absurd h (by simp)
        · obtain ⟨⟨s', rest'⟩, hmore, heq⟩ := Option.map_eq_some_iff.mp h
          obtain ⟨rfl, rfl⟩ := Prod.mk.inj heq
          have hplain : IsPlain c := ⟨hquote, hslash⟩
          have hwritten : (escapeChar c).length ≤ 1 := by
            unfold escapeChar
            split_ifs <;> simp_all
          have hrest := ih _ (by omega) hmore rfl
          rw [← next_inside hplain] at hrest
          refine (Reads.cons (p := .inside) trivial hrest).mono ?_
          have hholds : inside.holds c = true := by simpa [holds] using hquote
          rw [List.flatMap_cons, List.length_append, hholds, Bool.toNat_true]
          omega

/-! ## Values -/

/-- Nothing of what a scalar is read from is a stop. -/
theorem noStop_of_scalar? {word : List Char} {v : Json}
    (h : scalar? (word ++ rest) = some (v, rest)) : ∀ c ∈ word, isStop c = false := by
  intro c hc
  by_contra hstop
  obtain ⟨before, after, rfl⟩ := List.append_of_mem hc
  have hstops : Stops (c :: after ++ rest) := stops_cons (by simpa using hstop) _
  -- the scalar would be over where the stop is
  rw [List.append_assoc, scalar?_stop before hstops] at h
  obtain ⟨⟨w, tail⟩, -, heq⟩ := Option.map_eq_some_iff.mp h
  have hlength := congrArg List.length (Prod.mk.inj heq).2
  simp only [List.length_append, List.length_cons] at hlength
  omega

theorem ne_of_noStop {c d : Char} (hc : isStop c = false) (hd : isStop d = true) : c ≠ d := by
  rintro rfl
  exact absurd (hc.symm.trans hd) (by simp)

theorem reads_scalar? {v : Json} (h : scalar? cs = some (v, rest)) :
    outside.Reads cs .outside rest 0 := by
  obtain ⟨word, rfl⟩ := suffix_of_scalar? h
  have hword := noStop_of_scalar? h
  have hquote : ∀ c ∈ word, c ≠ '"' := fun c hc => ne_of_noStop (hword c hc) (by decide)
  refine ⟨word, rfl, sound_of_forall (fun c hc hmark => ?_) hquote, (outside_quoteless hquote).1,
    Nat.zero_le _⟩
  have hstop : isStop c = true := by
    rcases mem_markStarts.mp hmark with rfl | rfl <;> decide
  exact absurd ((hword c hc).symm.trans hstop) (by simp)

/-- How many characters the compact form of a text has between its quotes. -/
def textSize (s : String) : ℕ := (s.toList.flatMap escapeChar).length

mutual

/-- How many characters of the compact text of a value are inside of strings. -/
def stringSize : Json → ℕ
  | text s => textSize s
  | list items => itemsSize items
  | object entries => entriesSize entries
  | _ => 0

def itemsSize : List Json → ℕ
  | [] => 0
  | v :: vs => stringSize v + itemsSize vs

def entriesSize : List (String × Json) → ℕ
  | [] => 0
  | (k, v) :: es => textSize k + (stringSize v + entriesSize es)

end

theorem IsAtom.stringSize {v : Json} (h : v.IsAtom) : v.stringSize = 0 := by
  cases v with
  | text s => exact absurd h id
  | list items => exact absurd h id
  | object entries => exact absurd h id
  | _ => rfl

theorem entriesSize_put (entries : Entries) (name : String) (v : Json) :
    entriesSize (Entries.put entries name v) ≤
      entriesSize entries + (textSize name + v.stringSize) := by
  induction entries with
  | nil => simp [Entries.put, entriesSize]
  | cons e rest ih =>
      obtain ⟨k, w⟩ := e
      rw [Entries.put]
      split_ifs with hk
      · simp only [entriesSize]
        omega
      · simp only [entriesSize]
        omega

/-- A value that is replaced by a later one leaves less to write. -/
theorem entriesSize_ofList (es : List (String × Json)) :
    entriesSize (Entries.ofList es) ≤ entriesSize es := by
  have key (es : List (String × Json)) : ∀ acc : Entries,
      entriesSize (es.foldl (fun entries e => Entries.put entries e.1 e.2) acc) ≤
        entriesSize acc + entriesSize es := by
    induction es with
    | nil => exact fun acc => Nat.le_add_right _ _
    | cons e es ih =>
        intro acc
        obtain ⟨k, v⟩ := e
        have hput := entriesSize_put acc k v
        have hrest := ih (Entries.put acc k v)
        simp only [List.foldl_cons, entriesSize]
        omega
  exact (key es []).trans_eq (Nat.zero_add _)

/-- The quote of a string is read, and then the string. -/
theorem reads_quoted {s : List Char} (h : stringRest 0 cs = some (s, rest)) :
    outside.Reads ('"' :: cs) .outside rest (textSize (String.ofList s)) := by
  have hread := Reads.cons (p := .outside) (c := '"') (by decide) (reads_string h)
  rw [textSize, String.toList_ofList]
  exact hread.mono (Nat.le_add_left _ _)

mutual

/-- A value is read, with no fewer characters inside of strings than its compact text has. -/
theorem reads_value? : ∀ (fuel : ℕ) {cs rest : List Char} {v : Json},
    value? fuel cs = some (v, rest) → outside.Reads cs .outside rest v.stringSize
  | 0, _, _, _, h => absurd h (by simp [value?])
  | fuel + 1, cs, rest, v, h => by
      unfold value? at h
      split at h
      · next heq => exact absurd heq (Nat.succ_ne_zero _)
      · obtain ⟨r, hstring, hr⟩ := Option.map_eq_some_iff.mp h
        obtain ⟨rfl, rfl⟩ := Prod.mk.inj hr
        exact reads_quoted hstring
      · next heq =>
        obtain rfl := Nat.succ.inj heq
        split at h
        · next hclose =>
          obtain ⟨rfl, rfl⟩ := Prod.mk.inj (Option.some.inj h)
          refine .sign (by decide) (.space ?_)
          rw [hclose]
          exact .sign (by decide) (.refl _ _)
        · obtain ⟨r, hitems, hr⟩ := Option.map_eq_some_iff.mp h
          obtain ⟨rfl, rfl⟩ := Prod.mk.inj hr
          exact .sign (by decide) (.space (reads_items? _ hitems))
      · next heq =>
        obtain rfl := Nat.succ.inj heq
        split at h
        · next hclose =>
          obtain ⟨rfl, rfl⟩ := Prod.mk.inj (Option.some.inj h)
          refine .sign (by decide) (.space ?_)
          rw [hclose]
          exact .sign (by decide) (.refl _ _)
        · obtain ⟨r, hmembers, hr⟩ := Option.map_eq_some_iff.mp h
          obtain ⟨rfl, rfl⟩ := Prod.mk.inj hr
          have hread := (reads_members? _ hmembers).mono (entriesSize_ofList r.1)
          exact .sign (by decide) (.space hread)
      · exact (isAtom_of_scalar? h).stringSize ▸ reads_scalar? h

theorem reads_items? : ∀ (fuel : ℕ) {cs rest : List Char} {vs : List Json},
    items? fuel cs = some (vs, rest) → outside.Reads cs .outside rest (itemsSize vs)
  | 0, _, _, _, h => absurd h (by simp [items?])
  | fuel + 1, cs, rest, vs, h => by
      unfold items? at h
      split at h
      · exact absurd h (by simp)
      · next v rest' hv =>
        have hread := reads_value? fuel hv
        split at h
        · next hclose =>
          obtain ⟨rfl, rfl⟩ := Prod.mk.inj (Option.some.inj h)
          exact hread.then_sign hclose (by decide) (.refl _ _)
        · next hcomma =>
          obtain ⟨r, hitems, hr⟩ := Option.map_eq_some_iff.mp h
          obtain ⟨rfl, rfl⟩ := Prod.mk.inj hr
          exact hread.then_sign hcomma (by decide) (.space (reads_items? fuel hitems))
        · exact absurd h (by simp)

theorem reads_members? : ∀ (fuel : ℕ) {cs rest : List Char} {es : List (String × Json)},
    members? fuel cs = some (es, rest) → outside.Reads cs .outside rest (entriesSize es)
  | 0, _, _, _, h => absurd h (by simp [members?])
  | fuel + 1, cs, rest, es, h => by
      unfold members? at h
      split at h
      · next heq => exact absurd heq (Nat.succ_ne_zero _)
      · next heq =>
        obtain rfl := Nat.succ.inj heq
        split at h
        · exact absurd h (by simp)
        · next k rest' hname =>
          have hquoted := reads_quoted hname
          split at h
          · next hcolon =>
            split at h
            · exact absurd h (by simp)
            · next v rest' hv =>
              have hread := reads_value? _ hv
              have hentry := hquoted.then_sign hcolon (by decide) (.space hread)
              split at h
              · next hclose =>
                obtain ⟨rfl, rfl⟩ := Prod.mk.inj (Option.some.inj h)
                have hclosed := hentry.then_sign hclose (by decide) (.refl _ _)
                exact hclosed.mono (by simp only [entriesSize]; omega)
              · next hcomma =>
                obtain ⟨r, hmembers, hr⟩ := Option.map_eq_some_iff.mp h
                obtain ⟨rfl, rfl⟩ := Prod.mk.inj hr
                have hmore := reads_members? _ hmembers
                have hgone := hentry.then_sign hcomma (by decide) (.space hmore)
                exact hgone.mono (by simp only [entriesSize]; omega)
              · exact absurd h (by simp)
          · exact absurd h (by simp)
      · exact absurd h (by simp)

end

/-- **A text that reads as a value is sound**, and has no fewer characters inside of strings than
the compact text of the value. -/
theorem sound_of_ofChars? {v : Json} (h : ofChars? cs = some v) :
    outside.Sound cs ∧ outside.after cs = .outside ∧ v.stringSize ≤ outside.interior cs := by
  unfold ofChars? at h
  split at h
  · next w rest hread =>
    split_ifs at h with hend
    obtain rfl := Option.some.inj h
    have hnone : skipSpace rest = [] := List.isEmpty_iff.mp hend
    have hempty : outside.Reads rest .outside [] 0 := .space (hnone ▸ .refl _ _)
    obtain ⟨used, hused, hsound, hafter, hsize⟩ := (reads_value? _ hread).space.trans hempty
    rw [List.append_nil] at hused
    subst hused
    exact ⟨hsound, hafter, hsize⟩
  · exact absurd h (by simp)

/-! ## The compact text -/

/-- What is written for a character stays inside of the string. -/
theorem inside_escapeChar (c : Char) :
    inside.after (escapeChar c) = .inside ∧
      inside.interior (escapeChar c) = (escapeChar c).length := by
  rcases escapeChar_cases c with ⟨hplain, h⟩ | ⟨e, -, h⟩ | ⟨hcontrol, h⟩
  · rw [h]
    exact (inside_plain (List.forall_mem_singleton.mpr hplain)).2
  · rw [h]
    exact ⟨rfl, rfl⟩
  · have hread := hex4?_hexDigits hcontrol []
    obtain ⟨ds, hds, hlength, hplain⟩ := plain_of_hex4? hread
    have hwidth : (Text.hexDigits 4 c.toNat).length = 4 := by simp [Text.hexDigits]
    have hnone : (Text.hexDigits 4 c.toNat ++ []).drop 4 = [] := by simp [hwidth]
    rw [hnone, List.append_nil, List.append_nil] at hds
    obtain ⟨-, hafter, hinterior⟩ := inside_plain hplain
    rw [h, hds]
    refine ⟨hafter, ?_⟩
    show 1 + (1 + inside.interior ds) = _
    rw [hinterior, List.length_cons, List.length_cons]
    omega

theorem inside_text (cs : List Char) :
    inside.after (cs.flatMap escapeChar) = .inside ∧
      inside.interior (cs.flatMap escapeChar) = (cs.flatMap escapeChar).length := by
  induction cs with
  | nil => exact ⟨rfl, rfl⟩
  | cons c cs ih =>
      obtain ⟨hafter, hinterior⟩ := inside_escapeChar c
      rw [List.flatMap_cons, after_append, interior_append, hafter, hinterior, List.length_append,
        ih.1, ih.2]
      exact ⟨rfl, rfl⟩

/-- A text has so many characters inside of strings, and ends outside of them. -/
def Encloses (cs : List Char) (n : ℕ) : Prop :=
  outside.after cs = .outside ∧ outside.interior cs = n

theorem Encloses.append {ds : List Char} {n m : ℕ} (h : Encloses cs n) (h' : Encloses ds m) :
    Encloses (cs ++ ds) (n + m) := by
  refine ⟨?_, ?_⟩
  · rw [after_append, h.1, h'.1]
  · rw [interior_append, h.1, h.2, h'.2]

theorem Encloses.cons {c : Char} {n : ℕ} (hc : c ≠ '"') (h : Encloses cs n) :
    Encloses (c :: cs) n := by
  have hone : Encloses [c] 0 := outside_quoteless (List.forall_mem_singleton.mpr hc)
  exact Nat.zero_add n ▸ hone.append h

theorem encloses_scalar {v : Json} (h : scalar? (cs ++ []) = some (v, [])) : Encloses cs 0 :=
  outside_quoteless fun c hc => ne_of_noStop (noStop_of_scalar? h c hc) (by decide)

theorem encloses_wholeText (n : ℤ) : Encloses (Decimal.wholeText n) 0 := by
  refine outside_quoteless fun c hc => ?_
  have hdigit (k : ℕ) (hk : c ∈ Nat.toDigits 10 k) : c ≠ '"' := by
    rintro rfl
    exact absurd (Text.areDigits_toDigits k _ hk) (by decide)
  cases n with
  | ofNat n => exact hdigit n hc
  | negSucc n =>
      rcases List.mem_cons.mp hc with rfl | hc
      · decide
      · exact hdigit (n + 1) hc

theorem encloses_writeText (s : String) : Encloses (writeText s) (textSize s) := by
  obtain ⟨hafter, hinterior⟩ := inside_text s.toList
  refine ⟨?_, ?_⟩
  · rw [writeText, after_append, after_cons]
    show (inside.after _).after ['"'] = _
    rw [hafter]
    rfl
  · rw [writeText, interior_append]
    show 0 + inside.interior _ + (inside.after _).interior ['"'] = _
    rw [hafter, hinterior, Nat.zero_add]
    rfl

mutual

/-- The compact text of a value has as many characters inside of strings as that takes. -/
theorem encloses_write : ∀ v : Json, Encloses (write v) v.stringSize
  | .null => ⟨rfl, rfl⟩
  | .bool true => ⟨rfl, rfl⟩
  | .bool false => ⟨rfl, rfl⟩
  | .int n => encloses_wholeText n
  | .float x => encloses_scalar (scalar?_text x fun c hc => absurd hc (by simp))
  | .text s => encloses_writeText s
  | .list items => (encloses_writeItems items).cons (by decide)
  | .object entries => (encloses_writeEntries entries).cons (by decide)

theorem encloses_writeItems : ∀ vs : List Json, Encloses (writeItems vs) (itemsSize vs)
  | [] => ⟨rfl, rfl⟩
  | [v] => (encloses_write v).append ⟨rfl, rfl⟩
  | v :: w :: vs =>
      (encloses_write v).append ((encloses_writeItems (w :: vs)).cons (by decide))

theorem encloses_writeEntries : ∀ es : List (String × Json),
    Encloses (writeEntries es) (entriesSize es)
  | [] => ⟨rfl, rfl⟩
  | [(k, v)] => by
      rw [writeEntries, List.append_assoc]
      exact (encloses_writeText k).append (((encloses_write v).append ⟨rfl, rfl⟩).cons (by decide))
  | (k, v) :: e :: es => by
      rw [writeEntries, List.append_assoc]
      have hrest := (encloses_writeEntries (e :: es)).cons (c := ',') (by decide)
      exact (encloses_writeText k).append (((encloses_write v).append hrest).cons (by decide))

end

end ChatClient.Json
