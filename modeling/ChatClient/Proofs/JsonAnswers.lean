import ChatClient.Proofs.Interiors
import ChatClient.Proofs.Wrapping

/-!
# Answers that are JSON texts

Markup is taken off a text before it is read. A JSON text without markup comes out as what it says,
in the compact form, and a JSON string as its text. Where a string inside of it has markup, that is
taken off too.

A pass takes nothing but whole pieces of strings out of a sound text, since marks start inside of
strings only: the text stays `Sound`, ends where it ended, and has less in its strings than before.
The compact text of a value has no more in its strings than any text that reads as the value, so
what is left of a marked one does not read as the value any more.
-/

namespace ChatClient

/-- What a value stands for as an answer. -/
def Json.answer : Json → String
  | text t => t
  | v => v.compact

namespace Markup

open Text Json Json.Spot

variable {p : Spot} {start stop mark cs ds kept between rest : List Char}
  {keep : List Char → List Char}

/-- A text has markup: a fence with another one behind it, or the tag that starts thoughts with the
one that ends them behind it. -/
def Marked (cs : List Char) : Prop :=
  HasSpan fence fence cs ∨ HasSpan "<think>".toList "</think>".toList cs

/-! ## Less of a text -/

/-- What is left of a text stands to strings as the text did. -/
structure Shrinks (p : Spot) (cs kept : List Char) : Prop where
  sound : p.Sound kept
  after : p.after kept = p.after cs
  interior : p.interior kept ≤ p.interior cs
  sublist : kept.Sublist cs

/-- Something has gone from inside of strings, and a character of marks with it. -/
def Loses (p : Spot) (cs kept : List Char) : Prop :=
  p.interior kept < p.interior cs ∧ ∃ c ∈ markStarts, kept.count c < cs.count c

theorem Shrinks.refl (h : p.Sound cs) : Shrinks p cs cs :=
  ⟨h, rfl, Nat.le_refl _, .refl _⟩

theorem Shrinks.trans (h : Shrinks p cs ds) (h' : Shrinks p ds kept) : Shrinks p cs kept :=
  ⟨h'.sound, h'.after.trans h.after, h'.interior.trans h.interior, h'.sublist.trans h.sublist⟩

theorem Loses.trans (h : Loses p cs ds) (h' : Shrinks p ds kept) : Loses p cs kept := by
  obtain ⟨hless, c, hc, hcount⟩ := h
  exact ⟨h'.interior.trans_lt hless, c, hc, (h'.sublist.count_le c).trans_lt hcount⟩

theorem Shrinks.cons {c : Char} (hc : p.Takes c) (h : Shrinks (p.next c) cs kept) :
    Shrinks p (c :: cs) (c :: kept) :=
  ⟨⟨hc, h.sound⟩, h.after, Nat.add_le_add_left h.interior _, h.sublist.cons_cons c⟩

theorem Loses.cons {c : Char} (h : Loses (p.next c) cs kept) : Loses p (c :: cs) (c :: kept) := by
  obtain ⟨hless, d, hd, hcount⟩ := h
  refine ⟨Nat.add_lt_add_left hless _, d, hd, ?_⟩
  simp only [List.count_cons]
  omega

/-! ## Blanks and strings -/

/-- Blanks change nothing, except behind a backslash. -/
theorem after_blanks (hp : p ≠ .escaped) (h : Blanks cs) : p.after cs = p := by
  induction cs with
  | nil => rfl
  | cons c cs ih =>
      obtain ⟨hc, hcs⟩ := List.forall_mem_cons.mp h
      have hquote : c ≠ '"' := (ne_of_isBlank hc (by decide)).symm
      have hslash : c ≠ '\\' := (ne_of_isBlank hc (by decide)).symm
      have hnext : p.next c = p := by
        cases p with
        | outside => exact if_neg hquote
        | inside => exact next_inside ⟨hquote, hslash⟩
        | escaped => exact absurd rfl hp
      rw [after_cons, hnext, ih hcs]

/-- Trimming takes blanks only. -/
theorem shrinks_trim (hp : p ≠ .escaped) (hsound : p.Sound cs) (hafter : p.after cs = p) :
    Shrinks p cs (trim cs) := by
  obtain ⟨before, after, hbefore, hafters, hcs⟩ := exists_blanks cs
  have hstart := after_blanks hp hbefore
  rw [hcs, sound_append, sound_append, after_append, hstart] at hsound
  rw [hcs, after_append, after_append, hstart] at hafter
  obtain ⟨⟨-, hkept⟩, hrest⟩ := hsound
  have hend : p.after (trim cs) = p := by
    cases after with
    | nil => exact hafter
    | cons c after =>
        -- a blank stands behind no backslash, so the trimmed text does not end in one
        have hnot : p.after (trim cs) ≠ .escaped := by
          intro heq
          rw [heq] at hrest
          exact absurd (hrest.1.2.symm.trans (hafters c List.mem_cons_self)) (by simp)
        rwa [after_blanks hnot hafters] at hafter
  refine ⟨hkept, ?_, ?_, ?_⟩
  · conv_rhs => rw [hcs]
    rw [after_append, after_append, hstart, hend, after_blanks hp hafters]
  · conv_rhs => rw [hcs]
    rw [interior_append, interior_append, hstart]
    omega
  · conv_rhs => rw [hcs]
    exact (List.sublist_append_right before _).trans (List.sublist_append_left _ _)

/-! ## One pass -/

/-- A mark starts as marks do, and has no part in strings. -/
def IsMark (mark : List Char) : Prop :=
  (∃ c ∈ markStarts, mark.head? = some c) ∧ ∀ c ∈ mark, IsPlain c

/-- A mark stands inside of a string, and leads on inside of it. -/
theorem inside_of_mark (hmark : IsMark mark) (h : p.Sound (mark ++ rest)) :
    p = .inside ∧ inside.Sound rest := by
  obtain ⟨⟨c, hc, hhead⟩, hplain⟩ := hmark
  cases mark with
  | nil => exact absurd hhead (by simp)
  | cons d ds =>
      obtain rfl := Option.some.inj hhead
      have hp := inside_of_takes hc h.1
      subst hp
      rw [sound_append, (inside_plain hplain).2.1] at h
      exact ⟨rfl, h.2⟩

/-- What is kept of what stands between two marks stands to strings as that did. -/
def Tidy (keep : List Char → List Char) : Prop :=
  ∀ between, inside.Sound between → inside.after between = .inside →
    Shrinks .inside between (keep between)

/-- Of a span there is left what is kept, and both marks are gone. -/
theorem shrinks_span (hstart : IsMark start) (hstop : IsMark stop)
    (hmiddle : Shrinks .inside between (keep between)) (hinside : inside.after between = .inside)
    (hrest : Shrinks .inside rest kept) :
    Shrinks .inside (start ++ (between ++ stop ++ rest)) (keep between ++ kept) ∧
      Loses .inside (start ++ (between ++ stop ++ rest)) (keep between ++ kept) := by
  obtain ⟨-, hstartAfter, hstartInterior⟩ := inside_plain hstart.2
  obtain ⟨-, hstopAfter, hstopInterior⟩ := inside_plain hstop.2
  have hkept : inside.after (keep between) = .inside := hmiddle.after.trans hinside
  have hall : inside.interior (start ++ (between ++ stop ++ rest)) =
      start.length + (inside.interior between + stop.length + inside.interior rest) := by
    simp only [interior_append, after_append, hstartAfter, hstartInterior, hinside, hstopAfter,
      hstopInterior]
  have hleft : inside.interior (keep between ++ kept) =
      inside.interior (keep between) + inside.interior kept := by
    rw [interior_append, hkept]
  have hmiddleLe := hmiddle.interior
  have hrestLe := hrest.interior
  obtain ⟨⟨c, hc, hhead⟩, -⟩ := hstart
  have hmem : c ∈ start := List.mem_of_mem_head? hhead
  refine ⟨⟨?_, ?_, ?_, ?_⟩, ?_, c, hc, ?_⟩
  · exact (sound_append _ _ _).mpr ⟨hmiddle.sound, hkept.symm ▸ hrest.sound⟩
  · simp only [after_append, hkept, hrest.after, hstartAfter, hinside, hstopAfter]
  · omega
  · rw [List.append_assoc]
    have htail := hrest.sublist.trans (List.sublist_append_right stop rest)
    exact (hmiddle.sublist.append htail).trans (List.sublist_append_right start _)
  · have hpos := List.length_pos_of_mem hmem
    omega
  · have hpos := List.count_pos_iff.mpr hmem
    have hmiddleCount := hmiddle.sublist.count_le c
    have hrestCount := hrest.sublist.count_le c
    simp only [List.count_append]
    omega

/-- **A pass takes pieces of strings only**, and some if there is a span. -/
theorem Stripped.shrinks (h : Stripped start stop keep cs kept) (hstart : IsMark start)
    (hstop : IsMark stop) (hkeep : Tidy keep) : ∀ {p : Spot}, p.Sound cs →
    Shrinks p cs kept ∧ (HasSpan start stop cs → Loses p cs kept) := by
  -- on the pass; the spot is any, as each character may change it
  induction h with
  | nil =>
      refine fun hp => ⟨.refl hp, fun hspan => ?_⟩
      obtain ⟨⟨c, -, hhead⟩, -⟩ := hstart
      have hcount := (Nat.le_add_right _ _).trans (hspan.count_le c)
      exact absurd (List.mem_of_mem_head? hhead) (List.count_eq_zero.mp (Nat.le_zero.mp hcount))
  | @span cs between rest kept hspan _ ih =>
      intro p hp
      have hcs := eq_of_spanAt? hspan
      rw [hcs] at hp ⊢
      obtain ⟨rfl, hbehind⟩ := inside_of_mark hstart hp
      -- both marks stand inside of the same string
      rw [List.append_assoc, sound_append] at hbehind
      obtain ⟨hbetween, hbehind⟩ := hbehind
      obtain ⟨hinside, hrest⟩ := inside_of_mark hstop hbehind
      obtain ⟨hshrinks, hloses⟩ :=
        shrinks_span hstart hstop (hkeep between hbetween hinside) hinside (ih hrest).1
      exact ⟨hshrinks, fun _ => hloses⟩
  | @char c cs kept hnone _ ih =>
      intro p hp
      obtain ⟨hshrinks, hloses⟩ := ih hp.2
      refine ⟨.cons hp.1 hshrinks, fun hspan => ?_⟩
      rcases hasSpan_cons hspan with hhere | hbehind
      · exact absurd hnone hhere
      · exact (hloses hbehind).cons

/-! ## All passes -/

theorem isPlain_of_all (h : cs.all (fun c => c != '"' && c != '\\') = true) :
    ∀ c ∈ cs, IsPlain c :=
  fun c hc => by simpa [IsPlain] using List.all_eq_true.mp h c hc

theorem isMark_fence : IsMark fence := ⟨⟨'\x60', by decide, rfl⟩, isPlain_of_all (by decide)⟩

theorem isMark_jsonFence : IsMark jsonFence :=
  ⟨⟨'\x60', by decide, rfl⟩, isPlain_of_all (by decide)⟩

theorem isMark_thoughts : IsMark "<think>".toList ∧ IsMark "</think>".toList :=
  ⟨⟨⟨'<', by decide, rfl⟩, isPlain_of_all (by decide)⟩,
    ⟨⟨'<', by decide, rfl⟩, isPlain_of_all (by decide)⟩⟩

theorem shrinks_dropFences (hstart : IsMark start) (hp : p.Sound cs) :
    Shrinks p cs (dropFences start cs) ∧
      (HasSpan start fence cs → Loses p cs (dropFences start cs)) := by
  have hne : start ≠ [] := by
    rintro rfl
    obtain ⟨⟨c, -, hhead⟩, -⟩ := hstart
    exact absurd hhead (by simp)
  have hpass : Stripped start fence trim cs (dropFences start cs) := (stripped_iff hne).mpr rfl
  exact hpass.shrinks hstart isMark_fence
    (fun _ hsound hafter => shrinks_trim (by decide) hsound hafter) hp

theorem shrinks_dropThoughts (hp : p.Sound cs) :
    Shrinks p cs (dropThoughts cs) ∧
      (HasSpan "<think>".toList "</think>".toList cs → Loses p cs (dropThoughts cs)) := by
  have hpass : Stripped "<think>".toList "</think>".toList (fun _ => []) cs (dropThoughts cs) :=
    (stripped_iff (by simp)).mpr rfl
  refine hpass.shrinks isMark_thoughts.1 isMark_thoughts.2 (fun between _ hafter => ?_) hp
  exact ⟨trivial, hafter.symm, Nat.zero_le _, List.nil_sublist between⟩

/-- What starts a block of JSON starts a block. -/
theorem HasSpan.of_jsonFence (h : HasSpan jsonFence fence cs) : HasSpan fence fence cs := by
  obtain ⟨before, tail, rfl, hstop⟩ := h
  refine ⟨before, "json".toList ++ tail, by rw [jsonFence, List.append_assoc], ?_⟩
  exact hstop.trans (List.suffix_append _ tail).isInfix

/-- A text without markup is trimmed, and that is all. -/
theorem plain_of_not_marked (h : ¬ Marked cs) : plain cs = trim cs := by
  obtain ⟨hfence, hthoughts⟩ := not_or.mp h
  have hjson : dropFences jsonFence cs = cs :=
    (stripped_iff (by simp [jsonFence, fence])).mp
      (.of_not_hasSpan fun hspan => hfence hspan.of_jsonFence)
  have hblocks : dropFences fence cs = cs :=
    (stripped_iff (by simp [fence])).mp (.of_not_hasSpan hfence)
  have hdropped : dropThoughts cs = cs :=
    (stripped_iff (by simp)).mp (.of_not_hasSpan hthoughts)
  rw [plain, hjson, hblocks, hdropped]

/-- **A marked text loses something in its strings**, if it is sound. -/
theorem loses_plain (hsound : outside.Sound cs) (hafter : outside.after cs = .outside)
    (hmarked : Marked cs) : Loses .outside cs (plain cs) := by
  obtain ⟨hjson, hjsonLoses⟩ := shrinks_dropFences isMark_jsonFence hsound
  obtain ⟨hblocks, hblocksLoses⟩ := shrinks_dropFences isMark_fence hjson.sound
  obtain ⟨hthoughts, hthoughtsLoses⟩ := shrinks_dropThoughts hblocks.sound
  have hall := (hjson.trans hblocks).trans hthoughts
  have htrim := shrinks_trim (by decide) hall.sound (hall.after.trans hafter)
  by_cases hhasJson : HasSpan jsonFence fence cs
  · exact ((hjsonLoses hhasJson).trans hblocks).trans (hthoughts.trans htrim)
  · -- the first pass leaves the text as it is
    have hfirst : dropFences jsonFence cs = cs :=
      (stripped_iff (by simp [jsonFence, fence])).mp (.of_not_hasSpan hhasJson)
    simp only [plain]
    rw [hfirst] at hblocksLoses hthoughts hthoughtsLoses htrim ⊢
    by_cases hhasFence : HasSpan fence fence cs
    · exact (hblocksLoses hhasFence).trans (hthoughts.trans htrim)
    · have hsecond : dropFences fence cs = cs :=
        (stripped_iff (by simp [fence])).mp (.of_not_hasSpan hhasFence)
      rw [hsecond] at hthoughtsLoses htrim ⊢
      exact (hthoughtsLoses (hmarked.resolve_left hhasFence)).trans htrim

/-! ## Answers -/

/-- What is left of a text is its answer, if it reads as a value. -/
theorem strip_eq (s : String) :
    strip s = ((ofChars? (plain s.toList)).map Json.answer).getD
      (String.ofList (plain s.toList)) := by
  rw [strip]
  cases ofChars? (plain s.toList) with
  | none => rfl
  | some v => cases v <;> rfl

/-- What stands in front of a text, without the first character of a mark, stays there. -/
theorem dropFences_prepend {ms : List Char} (hcs : '\x60' ∉ cs) (ds : List Char) :
    dropFences ('\x60' :: ms) (cs ++ ds) = cs ++ dropFences ('\x60' :: ms) ds :=
  (stripped_iff (by simp)).mp (.prepend ((stripped_iff (by simp)).mpr rfl) hcs)

theorem dropThoughts_prepend (hcs : '<' ∉ cs) (ds : List Char) :
    dropThoughts (cs ++ ds) = cs ++ dropThoughts ds := by
  have hpass : Stripped ('<' :: "think>".toList) "</think>".toList (fun _ => []) ds
      (dropThoughts ds) :=
    (stripped_iff (by simp)).mpr rfl
  exact (stripped_iff (by simp)).mp (hpass.prepend hcs)

/-- A text that starts with a character that is no blank does so when it is trimmed. -/
theorem head?_trim {c : Char} (hc : isBlank c = false) (cs : List Char) :
    (trim (c :: cs)).head? = some c := by
  obtain ⟨before, after, hbefore, hafter, heq⟩ := exists_blanks (c :: cs)
  cases before with
  | cons b before =>
      obtain ⟨rfl, -⟩ := List.cons.inj heq
      exact absurd ((hbefore c List.mem_cons_self).symm.trans hc) (by simp)
  | nil =>
      cases htrim : trim (c :: cs) with
      | cons d ds =>
          rw [htrim] at heq
          obtain ⟨rfl, -⟩ := List.cons.inj heq
          rfl
      | nil =>
          rw [htrim] at heq
          have hmem : c ∈ after := by
            rw [show after = c :: cs from heq.symm]
            exact List.mem_cons_self
          exact absurd ((hafter c hmem).symm.trans hc) (by simp)

/-- A text that is a JSON string but for blanks around it still starts as one. -/
theorem head?_plain {body : List Char} (h : trim cs = '"' :: body) :
    (plain cs).head? = some '"' := by
  obtain ⟨before, after, hbefore, -, hcs⟩ := exists_blanks cs
  have hfence : '\x60' ∉ before ++ ['"'] := by
    have hblank : '\x60' ∉ before := fun hmem => absurd (hbefore _ hmem) (by decide)
    simp [hblank]
  have htag : '<' ∉ before ++ ['"'] := by
    have hblank : '<' ∉ before := fun hmem => absurd (hbefore _ hmem) (by decide)
    simp [hblank]
  have hstart : cs = (before ++ ['"']) ++ (body ++ after) := by
    rw [hcs, h]
    simp
  rw [hstart, plain, jsonFence, fence, List.cons_append, dropFences_prepend hfence,
    dropFences_prepend hfence, dropThoughts_prepend htag, List.append_assoc]
  have hnone : Blanks [] := fun c hc => absurd hc (by simp)
  have htrim := trim_around hbefore hnone
    (['"'] ++ dropThoughts (dropFences ('\x60' :: ['\x60', '\x60'])
      (dropFences ('\x60' :: (['\x60', '\x60'] ++ "json".toList)) (body ++ after))))
  rw [List.append_nil] at htrim
  rw [htrim]
  exact head?_trim (by decide) _

/-- What starts as a JSON string reads as one. -/
theorem text_of_head? {v : Json} (h : ofChars? cs = some v) (hhead : cs.head? = some '"') :
    ∃ t, v = .text t := by
  cases cs with
  | nil => exact absurd hhead (by simp)
  | cons c cs =>
      obtain rfl := Option.some.inj hhead
      have hskip : skipSpace ('"' :: cs) = '"' :: cs := rfl
      unfold ofChars? at h
      rw [hskip, value?] at h
      split at h
      · next w rest hread =>
        split_ifs at h
        obtain rfl := Option.some.inj h
        obtain ⟨r, -, hr⟩ := Option.map_eq_some_iff.mp hread
        exact ⟨_, (Prod.mk.inj hr).1.symm⟩
      · exact absurd h (by simp)

/-- No character of marks is written where there is none in the text. -/
theorem count_escapeChar_le {c : Char} (hc : c ∈ markStarts) (d : Char) :
    (escapeChar d).count c ≤ [d].count c := by
  have hslash : '\\' ∉ markStarts := by simp [mem_markStarts]
  rcases escapeChar_cases d with ⟨-, h⟩ | ⟨e, he, h⟩ | ⟨hcontrol, h⟩
  · rw [h]
  · have hnone : c ∉ ['\\', e] := by
      simp only [List.mem_cons, List.not_mem_nil, or_false, not_or]
      exact ⟨fun hsame => hslash (hsame ▸ hc), fun hsame => he (hsame ▸ hc)⟩
    rw [h, List.count_eq_zero.mpr hnone]
    exact Nat.zero_le _
  · have hnone : ∀ n < 0x20, ('\\' :: 'u' :: Text.hexDigits 4 n).count c = 0 := by
      rcases mem_markStarts.mp hc with rfl | rfl <;> decide
    rw [h, hnone _ hcontrol]
    exact Nat.zero_le _

theorem count_written_le {c : Char} (hc : c ∈ markStarts) (cs : List Char) :
    (cs.flatMap escapeChar).count c ≤ cs.count c := by
  induction cs with
  | nil => exact Nat.le_refl 0
  | cons d cs ih =>
      have hone := count_escapeChar_le hc d
      rw [List.flatMap_cons, List.count_append, ← List.singleton_append, List.count_append]
      omega

theorem count_writeText_le {c : Char} (hc : c ∈ markStarts) (s : String) :
    (writeText s).count c ≤ s.toList.count c := by
  have hquote : ['"'].count c = 0 := by
    rcases mem_markStarts.mp hc with rfl | rfl <;> decide
  have hwritten := count_written_le hc s.toList
  rw [writeText, ← List.singleton_append, List.count_append, List.count_append, hquote]
  omega

/-- A text takes at least as much to write as it has characters. -/
theorem length_le_textSize (s : String) : s.toList.length ≤ textSize s := by
  have key : ∀ cs : List Char, cs.length ≤ (cs.flatMap escapeChar).length := by
    intro cs
    induction cs with
    | nil => exact Nat.le_refl 0
    | cons c cs ih =>
        have hone := (length_escapeChar c).1
        rw [List.flatMap_cons, List.length_append, List.length_cons]
        omega
  exact key s.toList

theorem not_blank_of_mem_markStarts {c : Char} (hc : c ∈ markStarts) : isBlank c = false := by
  rcases mem_markStarts.mp hc with rfl | rfl <;> decide

/-- Blanks are outside of strings. -/
theorem sound_blanks (h : Blanks cs) : outside.Sound cs ∧ Encloses cs 0 := by
  have hquote : ∀ c ∈ cs, c ≠ '"' := fun c hc => (ne_of_isBlank (h c hc) (by decide)).symm
  have hmark : ∀ c ∈ cs, c ∉ markStarts :=
    fun c hc hmark => ne_of_isBlank (h c hc) (not_blank_of_mem_markStarts hmark) rfl
  exact ⟨sound_of_forall hmark hquote, outside_quoteless hquote⟩

theorem count_blanks {c : Char} (hc : c ∈ markStarts) (h : Blanks cs) : cs.count c = 0 :=
  List.count_eq_zero.mpr fun hmem =>
    ne_of_isBlank (h c hmem) (not_blank_of_mem_markStarts hc) rfl

/-- Blanks around a text have no part in what it has inside of strings. -/
theorem loses_of_trim {n : ℕ} (hsound : outside.Sound (trim cs)) (hsize : Encloses (trim cs) n)
    (hmarked : Marked cs) :
    outside.interior (plain cs) < n ∧ ∃ c ∈ markStarts, (plain cs).count c < (trim cs).count c := by
  obtain ⟨before, after, hbefore, hafter, hcs⟩ := exists_blanks cs
  obtain ⟨hbeforeSound, hbeforeSize⟩ := sound_blanks hbefore
  obtain ⟨hafterSound, hafterSize⟩ := sound_blanks hafter
  have hwhole : Encloses cs (0 + n + 0) := by
    rw [hcs]
    exact (hbeforeSize.append hsize).append hafterSize
  have hwholeSound : outside.Sound cs := by
    rw [hcs, sound_append, sound_append, after_append, hbeforeSize.1, hsize.1]
    exact ⟨⟨hbeforeSound, hsound⟩, hafterSound⟩
  obtain ⟨hless, c, hc, hcount⟩ := loses_plain hwholeSound hwhole.1 hmarked
  refine ⟨by rwa [hwhole.2, Nat.zero_add, Nat.add_zero] at hless, c, hc, ?_⟩
  have hsame := congrArg (List.count c) hcs
  rw [List.count_append, List.count_append, count_blanks hc hbefore, count_blanks hc hafter,
    Nat.zero_add, Nat.add_zero] at hsame
  rwa [hsame] at hcount

theorem answer_cases (v : Json) :
    (∃ t, v = .text t ∧ v.answer = t) ∨ (∀ t, v ≠ .text t) ∧ v.answer = v.compact := by
  cases v with
  | text t => exact .inl ⟨t, rfl, rfl⟩
  | _ => exact .inr ⟨fun t => by simp, rfl⟩

/-- A text with less in its strings than a value needs comes out as something else, if it has lost a
character of marks as well. -/
theorem answer_ne_of_loses {v : Json} (hv : v.Readable)
    (hless : outside.interior kept < v.stringSize)
    (hcount : ∃ c ∈ markStarts, kept.count c < v.write.count c)
    (hhead : ∀ t, v = .text t → kept.head? = some '"') :
    ((ofChars? kept).map Json.answer).getD (String.ofList kept) ≠ v.answer := by
  intro hsame
  obtain ⟨c, hc, hcount⟩ := hcount
  cases hread : ofChars? kept with
  | none =>
      -- it is no JSON text, and comes out as it is
      rw [hread, Option.map_none, Option.getD_none] at hsame
      rcases answer_cases v with ⟨t, rfl, hanswer⟩ | ⟨-, hanswer⟩
      · have hkept : kept = t.toList := by rw [← hanswer, ← hsame, String.toList_ofList]
        have hle := count_writeText_le hc t
        rw [hkept] at hcount
        exact absurd (hcount.trans_le hle) (Nat.lt_irrefl _)
      · have hkept : kept = v.write := String.ofList_injective (hsame.trans hanswer)
        rw [hkept] at hcount
        exact Nat.lt_irrefl _ hcount
  | some w =>
      rw [hread, Option.map_some, Option.getD_some] at hsame
      obtain ⟨-, -, hsize⟩ := sound_of_ofChars? hread
      have hsmaller : w.stringSize < v.stringSize := hsize.trans_lt hless
      rcases answer_cases w with ⟨t, rfl, hw⟩ | ⟨hnoText, hw⟩
      · rcases answer_cases v with ⟨t', rfl, hv⟩ | ⟨-, hv⟩
        · obtain rfl : t = t' := by rw [← hw, hsame, hv]
          exact Nat.lt_irrefl _ hsmaller
        · -- the text would be all of the compact text, and that has its strings in it
          have ht : t.toList = v.write := by
            rw [← hw, hsame, hv, compact, String.toList_ofList]
          have hlength := length_le_textSize t
          have hinterior := interior_le_length .outside v.write
          rw [(encloses_write v).2, ← ht] at hinterior
          exact absurd hsmaller (Nat.not_lt.mpr (hinterior.trans hlength))
      · rcases answer_cases v with ⟨t, rfl, -⟩ | ⟨-, hanswer⟩
        · obtain ⟨t', rfl⟩ := text_of_head? hread (hhead t rfl)
          exact hnoText t' rfl
        · -- two values with one compact text are the same
          have hcompact : w.compact = v.compact := by rw [← hw, hsame, hanswer]
          have hback := read?_compact (readable_of_ofChars? hread)
          rw [hcompact, read?_compact hv] at hback
          obtain rfl := Option.some.inj hback
          exact Nat.lt_irrefl _ hsmaller

end Markup

end ChatClient
