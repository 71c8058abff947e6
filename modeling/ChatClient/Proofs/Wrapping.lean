import Mathlib.Data.List.Infix
import Mathlib.Data.List.TakeWhile
import ChatClient.Markup
import ChatClient.Proofs.Redaction

/-!
# Markup that is wrapped around a text

Taking markup off goes through a text once for each kind of it, from left to right. At a start mark
it looks for the nearest stop mark behind it; both go, with what stands between them or with its
blanks only, and it goes on behind the stop mark. `Stripped` says this with one constructor for each
case, and whatever is shown of such a pass is shown by induction on it.

A text that is wrapped in a fence or comes after some thoughts is then stripped as the text by
itself is. What stands around it is blank, and the marks reach over no blank.
-/

namespace ChatClient

/-! ## Blanks -/

namespace Text

variable {before after cs ds : List Char}

/-- A row of blanks. -/
def Blanks (cs : List Char) : Prop := ∀ c ∈ cs, isBlank c = true

theorem dropEndWhile_append (hafter : Blanks after) (cs : List Char) :
    dropEndWhile isBlank (cs ++ after) = dropEndWhile isBlank cs := by
  have hreverse : ∀ c ∈ after.reverse, isBlank c = true :=
    fun c hc => hafter c (List.mem_reverse.mp hc)
  rw [dropEndWhile, List.reverse_append, List.dropWhile_append_of_pos hreverse, dropEndWhile]

/-- Blanks around a text are trimmed with it. -/
theorem trim_around (hbefore : Blanks before) (hafter : Blanks after) (cs : List Char) :
    trim (before ++ cs ++ after) = trim cs := by
  rw [trim, trimStart, List.append_assoc, List.dropWhile_append_of_pos hbefore,
    List.dropWhile_append]
  split
  · next hempty =>
    -- there is nothing in the text but blanks
    have hnone : cs.dropWhile isBlank = [] := List.isEmpty_iff.mp hempty
    have hall : after.dropWhile isBlank = [] := List.dropWhile_eq_nil_iff.mpr hafter
    rw [hall, trim, trimStart, hnone]
  · exact dropEndWhile_append hafter _

/-- A text is what is left of it when it is trimmed, with blanks around it. -/
theorem exists_blanks (cs : List Char) :
    ∃ before after, Blanks before ∧ Blanks after ∧ cs = before ++ trim cs ++ after := by
  refine ⟨cs.takeWhile isBlank, ((trimStart cs).reverse.takeWhile isBlank).reverse,
    fun c hc => List.mem_takeWhile_imp hc,
    fun c hc => List.mem_takeWhile_imp (List.mem_reverse.mp hc), ?_⟩
  have hstart : cs.takeWhile isBlank ++ trimStart cs = cs := List.takeWhile_append_dropWhile
  have hend : trim cs ++ ((trimStart cs).reverse.takeWhile isBlank).reverse = trimStart cs := by
    rw [trim, dropEndWhile, ← List.reverse_append, List.takeWhile_append_dropWhile,
      List.reverse_reverse]
  rw [List.append_assoc, hend, hstart]

/-! ## Where a mark is found -/

variable {m : Char} {ms mark rest : List Char}

theorem after?_self (mark rest : List Char) : after? mark (mark ++ rest) = some rest :=
  after?_eq_some_iff.mpr rfl

/-- A mark does not reach into what has no character of it. -/
theorem after?_append (hds : mark.Disjoint ds) (cs : List Char) :
    after? mark (cs ++ ds) = (after? mark cs).map (· ++ ds) := by
  induction mark generalizing cs with
  | nil => rfl
  | cons m ms ih =>
      cases cs with
      | nil =>
          cases ds with
          | nil => rfl
          | cons d ds =>
              have hne : m ≠ d := fun h => hds List.mem_cons_self (h ▸ List.mem_cons_self)
              exact if_neg hne
      | cons c cs =>
          have hrest := ih (List.disjoint_of_disjoint_cons_left hds) cs
          rw [List.cons_append, after?, after?]
          split
          · exact hrest
          · rfl

theorem cut?_eq_none : cut? mark cs = none ↔ ¬ mark <:+: cs := by
  rw [← cut?_isSome_iff, Bool.not_eq_true, Option.isSome_eq_false_iff, Option.isNone_iff_eq_none]

theorem cut?_append (hmark : mark ≠ []) (hds : mark.Disjoint ds) (cs : List Char) :
    cut? mark (cs ++ ds) = (cut? mark cs).map fun (before, rest) => (before, rest ++ ds) := by
  induction cs with
  | nil =>
      -- the mark would have to stand in what is behind
      have hnot : ¬ mark <:+: ds := by
        intro hin
        obtain ⟨m, ms, rfl⟩ := List.exists_cons_of_ne_nil hmark
        exact hds List.mem_cons_self (hin.subset List.mem_cons_self)
      rw [List.nil_append, cut?_eq_none.mpr hnot, cut?_eq_none.mpr (by simpa using hmark)]
      rfl
  | cons c cs ih =>
      have hafter := after?_append hds (c :: cs)
      rw [List.cons_append] at hafter ⊢
      rw [cut?, cut?, hafter]
      cases after? mark (c :: cs) with
      | some rest => rfl
      | none => simp [ih, Function.comp_def]

/-- Where a mark starts is where the text is cut. -/
theorem cut?_self (m : Char) (ms rest : List Char) :
    cut? (m :: ms) ((m :: ms) ++ rest) = some ([], rest) := by
  have hfound := after?_self (m :: ms) rest
  rw [List.cons_append] at hfound ⊢
  rw [cut?, hfound]

theorem cut?_cons {c : Char} (h : ¬ mark <+: c :: cs) :
    cut? mark (c :: cs) = (cut? mark cs).map fun (before, rest) => (c :: before, rest) := by
  rw [cut?, after?_eq_none h]

/-- A mark that does not start anew inside itself is found where it first stands. -/
theorem cut?_of_notMem (hm : m ∉ ms) (hcs : ¬ m :: ms <:+: cs) (rest : List Char) :
    cut? (m :: ms) (cs ++ (m :: ms) ++ rest) = some (cs, rest) := by
  induction cs with
  | nil => exact cut?_self m ms rest
  | cons c cs ih =>
      have hstart : ¬ m :: ms <+: c :: (cs ++ (m :: ms) ++ rest) := by
        intro h
        have hfront : c :: cs <+: c :: (cs ++ (m :: ms) ++ rest) :=
          ⟨(m :: ms) ++ rest, by simp⟩
        rcases List.prefix_or_prefix_of_prefix h hfront with hinside | htail
        · exact hcs hinside.isInfix
        · obtain ⟨tail, htail⟩ := htail
          cases tail with
          | nil => exact hcs (by rw [← htail, List.append_nil])
          | cons d tail =>
              -- it would have to start again before its end
              obtain ⟨hcm, rfl⟩ := List.cons.inj htail
              obtain ⟨rest', hrest'⟩ := h
              rw [← htail, List.append_assoc, List.append_assoc, ← List.cons_append,
                List.append_cancel_left_eq] at hrest'
              obtain ⟨hdc, -⟩ := List.cons.inj hrest'
              exact hm (List.mem_append_right _ (hdc.trans hcm ▸ List.mem_cons_self))
      simp only [List.cons_append]
      rw [cut?_cons hstart, ih fun h => hcs (List.infix_cons h), Option.map_some]

/-- A mark whose first character does not come up is found where it first stands. -/
theorem cut?_of_absent (hcs : m ∉ cs) (rest : List Char) :
    cut? (m :: ms) (cs ++ (m :: ms) ++ rest) = some (cs, rest) := by
  induction cs with
  | nil => exact cut?_self m ms rest
  | cons c cs ih =>
      simp only [List.mem_cons, not_or] at hcs
      have hstart : ¬ m :: ms <+: c :: (cs ++ (m :: ms) ++ rest) :=
        fun h => hcs.1 (List.cons_prefix_cons.mp h).1
      simp only [List.cons_append]
      rw [cut?_cons hstart, ih hcs.2, Option.map_some]

end Text

namespace Markup

open Text

/-! ## Spans -/

variable {start stop cs ds kept between rest : List Char} {keep : List Char → List Char}

/-- The span that a text begins with: what stands between its marks, and what stands behind it. -/
def spanAt? (start stop cs : List Char) : Option (List Char × List Char) :=
  (after? start cs).bind (cut? stop)

theorem spanAt?_eq_none :
    spanAt? start stop cs = none ↔ ∀ tail, cs = start ++ tail → ¬ stop <:+: tail := by
  rw [spanAt?, Option.bind_eq_none_iff]
  exact forall_congr' fun tail => by rw [after?_eq_some_iff, cut?_eq_none]

/-- What a text is made of that begins with a span. -/
theorem eq_of_spanAt? (h : spanAt? start stop cs = some (between, rest)) :
    cs = start ++ (between ++ stop ++ rest) := by
  obtain ⟨tail, hstart, hstop⟩ := Option.bind_eq_some_iff.mp h
  rw [after?_eq_some_iff.mp hstart, ← eq_of_cut? hstop]

/-- A text has a span in it: a start mark, and a stop mark somewhere behind it. -/
def HasSpan (start stop cs : List Char) : Prop :=
  ∃ before tail, cs = before ++ (start ++ tail) ∧ stop <:+: tail

theorem HasSpan.cons (h : HasSpan start stop cs) (c : Char) : HasSpan start stop (c :: cs) := by
  obtain ⟨before, tail, rfl, hstop⟩ := h
  exact ⟨c :: before, tail, rfl, hstop⟩

/-- Where a text has a span, that is at its beginning or behind its first character. -/
theorem hasSpan_cons {c : Char} (h : HasSpan start stop (c :: cs)) :
    spanAt? start stop (c :: cs) ≠ none ∨ HasSpan start stop cs := by
  obtain ⟨before, tail, heq, hstop⟩ := h
  cases before with
  | nil => exact .inl fun hnone => spanAt?_eq_none.mp hnone tail heq hstop
  | cons d before => exact .inr ⟨before, tail, (List.cons.inj heq).2, hstop⟩

/-- A span takes the characters of both its marks. -/
theorem HasSpan.count_le (h : HasSpan start stop cs) (c : Char) :
    start.count c + stop.count c ≤ cs.count c := by
  obtain ⟨before, tail, rfl, hstop⟩ := h
  have htail : stop.count c ≤ tail.count c := hstop.sublist.count_le c
  simp only [List.count_append]
  omega

/-! ## One pass -/

/-- What is left of a text whose spans were replaced, from left to right. -/
inductive Stripped (start stop : List Char) (keep : List Char → List Char) :
    List Char → List Char → Prop
  | nil : Stripped start stop keep [] []
  | span {cs between rest kept : List Char} (h : spanAt? start stop cs = some (between, rest))
    (hrest : Stripped start stop keep rest kept) :
    Stripped start stop keep cs (keep between ++ kept)
  | char {c : Char} {cs kept : List Char} (h : spanAt? start stop (c :: cs) = none)
    (hrest : Stripped start stop keep cs kept) : Stripped start stop keep (c :: cs) (c :: kept)

theorem replaceSpans_drop (n : Nat) (cs : List Char) :
    replaceSpans start stop keep n cs = replaceSpans start stop keep 0 (cs.drop n) := by
  induction cs generalizing n with
  | nil => cases n <;> rfl
  | cons c cs ih =>
      cases n with
      | zero => rfl
      | succ n => exact ih n

theorem replaceSpans_span (hstart : start ≠ []) (h : spanAt? start stop cs = some (between, rest)) :
    replaceSpans start stop keep 0 cs = keep between ++ replaceSpans start stop keep 0 rest := by
  obtain ⟨s, ss, rfl⟩ := List.exists_cons_of_ne_nil hstart
  have hcs := eq_of_spanAt? h
  have hdrop : (ss ++ (between ++ stop ++ rest)).drop
      ((s :: ss).length + between.length + stop.length - 1) = rest := by
    rw [← List.append_assoc]
    exact List.drop_left' (by simp only [List.length_cons, List.length_append]; omega)
  rw [hcs, spanAt?] at h
  rw [hcs, List.cons_append, replaceSpans]
  rw [List.cons_append] at h
  rw [h]
  dsimp only
  rw [replaceSpans_drop, hdrop]

theorem replaceSpans_char {c : Char} (h : spanAt? start stop (c :: cs) = none) :
    replaceSpans start stop keep 0 (c :: cs) = c :: replaceSpans start stop keep 0 cs := by
  rw [spanAt?] at h
  rw [replaceSpans, h]

/-- **A pass leaves what is left of the text.** -/
theorem stripped_iff (hstart : start ≠ []) :
    Stripped start stop keep cs kept ↔ replaceSpans start stop keep 0 cs = kept := by
  constructor
  · intro h
    induction h with
    | nil => rfl
    | span h _ ih => rw [replaceSpans_span hstart h, ih]
    | char h _ ih => rw [replaceSpans_char h, ih]
  · intro h
    subst h
    -- behind a span there is less of the text
    induction hn : cs.length using Nat.strong_induction_on generalizing cs with
    | _ n ih =>
      cases cs with
      | nil => exact .nil
      | cons c cs =>
          cases hspan : spanAt? start stop (c :: cs) with
          | none =>
              rw [replaceSpans_char hspan]
              exact .char hspan (ih cs.length (by simp at hn; omega) rfl)
          | some span =>
              obtain ⟨between, rest⟩ := span
              rw [replaceSpans_span hstart hspan]
              refine .span hspan (ih rest.length ?_ rfl)
              have hlength := congrArg List.length (eq_of_spanAt? hspan)
              have hpos := List.length_pos_of_ne_nil hstart
              simp only [List.length_append] at hlength
              omega

/-- Where there is no span, everything is left. -/
theorem Stripped.of_not_hasSpan (h : ¬ HasSpan start stop cs) : Stripped start stop keep cs cs := by
  induction cs with
  | nil => exact .nil
  | cons c cs ih =>
      refine .char ?_ (ih fun hspan => h (hspan.cons c))
      exact spanAt?_eq_none.mpr fun tail heq hstop => h ⟨[], tail, heq, hstop⟩

/-- A text without the first character of the start mark has no span. -/
theorem not_hasSpan_of_notMem {s : Char} {ss : List Char} (h : s ∉ cs) :
    ¬ HasSpan (s :: ss) stop cs := by
  intro hspan
  have hcount := hspan.count_le s
  rw [List.count_eq_zero_of_not_mem h, List.count_cons_self] at hcount
  omega

/-- What stands in front of a text, without the first character of the start mark, stays there. -/
theorem Stripped.prepend {s : Char} {ss : List Char} (h : Stripped (s :: ss) stop keep cs kept)
    {before : List Char} (hbefore : s ∉ before) :
    Stripped (s :: ss) stop keep (before ++ cs) (before ++ kept) := by
  induction before with
  | nil => exact h
  | cons c before ih =>
      simp only [List.mem_cons, not_or] at hbefore
      refine .char ?_ (ih hbefore.2)
      exact spanAt?_eq_none.mpr fun tail heq => absurd (List.cons.inj heq).1.symm hbefore.1

theorem spanAt?_append (hstop : stop ≠ []) (hstartds : start.Disjoint ds)
    (hstopds : stop.Disjoint ds) (cs : List Char) :
    spanAt? start stop (cs ++ ds) =
      (spanAt? start stop cs).map fun (between, rest) => (between, rest ++ ds) := by
  rw [spanAt?, spanAt?, after?_append hstartds]
  cases after? start cs with
  | none => rfl
  | some tail => exact cut?_append hstop hstopds tail

/-- What stands behind a text, without a character of the marks, stays there. -/
theorem Stripped.append (h : Stripped start stop keep cs kept) (hstart : start ≠ [])
    (hstop : stop ≠ []) (hstartds : start.Disjoint ds) (hstopds : stop.Disjoint ds) :
    Stripped start stop keep (cs ++ ds) (kept ++ ds) := by
  have hspanAt := spanAt?_append hstop hstartds hstopds
  induction h with
  | nil =>
      obtain ⟨s, ss, rfl⟩ := List.exists_cons_of_ne_nil hstart
      exact .of_not_hasSpan (not_hasSpan_of_notMem fun hs => hstartds List.mem_cons_self hs)
  | @span cs between rest kept h _ ih =>
      rw [List.append_assoc]
      exact .span (by rw [hspanAt, h, Option.map_some]) ih
  | @char c cs kept h _ ih =>
      have hnone := hspanAt (c :: cs)
      rw [h, Option.map_none] at hnone
      exact .char hnone ih

/-! ## Fences and thoughts -/

theorem ne_of_isBlank {c d : Char} (hc : isBlank c = true) (hd : isBlank d = false) : d ≠ c := by
  rintro rfl
  exact absurd (hc.symm.trans hd) (by simp)

/-- Marks are without blanks. -/
theorem disjoint_blanks {mark : List Char} (hmark : ∀ c ∈ mark, isBlank c = false)
    (hds : Blanks ds) : mark.Disjoint ds :=
  fun _ hc hcds => ne_of_isBlank (hds _ hcds) (hmark _ hc) rfl

/-- Blanks around a text have no part in its thoughts. -/
theorem dropThoughts_around {before after : List Char} (hbefore : Blanks before)
    (hafter : Blanks after) (cs : List Char) :
    dropThoughts (before ++ cs ++ after) = before ++ dropThoughts cs ++ after := by
  have hcs : Stripped "<think>".toList "</think>".toList (fun _ => []) cs (dropThoughts cs) :=
    (stripped_iff (by simp)).mpr rfl
  have hfront : '<' ∉ before := fun h => absurd (hbefore '<' h) (by decide)
  have hstart : "<think>".toList.Disjoint after := disjoint_blanks (by simp [isBlank]) hafter
  have hstop : "</think>".toList.Disjoint after := disjoint_blanks (by simp [isBlank]) hafter
  exact (stripped_iff (by simp)).mp
    ((hcs.prepend hfront).append (by simp) (by simp) hstart hstop)

/-- A text is without its thoughts the same when it is trimmed before. -/
theorem trim_dropThoughts_trim (cs : List Char) :
    trim (dropThoughts (trim cs)) = trim (dropThoughts cs) := by
  obtain ⟨before, after, hbefore, hafter, hcs⟩ := exists_blanks cs
  have hdropped := congrArg dropThoughts hcs
  rw [dropThoughts_around hbefore hafter] at hdropped
  rw [hdropped, trim_around hbefore hafter]

/-- Without a character of a fence there is none to drop. -/
theorem dropFences_of_notMem (info : List Char) (h : '\x60' ∉ cs) :
    dropFences (fence ++ info) cs = cs :=
  (stripped_iff (by simp [fence])).mp (.of_not_hasSpan (not_hasSpan_of_notMem h))

theorem plain_of_notMem (h : '\x60' ∉ cs) : plain cs = trim (dropThoughts cs) := by
  have hplain := dropFences_of_notMem [] h
  rw [List.append_nil] at hplain
  rw [plain, jsonFence, dropFences_of_notMem _ h, hplain]

/-- Of a block that is all of a text its content is left. -/
theorem dropFences_block (info : List Char) (h : '\x60' ∉ cs) :
    dropFences (fence ++ info) (fence ++ info ++ (cs ++ fence)) = trim cs := by
  have hspan : spanAt? (fence ++ info) fence (fence ++ info ++ (cs ++ fence)) = some (cs, []) := by
    have hcut : cut? fence (cs ++ fence ++ []) = some (cs, []) := cut?_of_absent h []
    rw [List.append_nil] at hcut
    rw [spanAt?, after?_self]
    exact hcut
  exact ((stripped_iff (by simp [fence])).mp (.span hspan .nil)).trans (List.append_nil _)

/-- A block is no block of JSON if its fence does not say so. -/
theorem dropFences_jsonFence_block (h : '\x60' ∉ cs) :
    dropFences jsonFence (fence ++ ('\n' :: cs ++ fence)) = fence ++ ('\n' :: cs ++ fence) := by
  refine (stripped_iff (by simp [jsonFence, fence])).mp
    (.char rfl (.of_not_hasSpan fun hspan => ?_))
  -- behind its first character there are five of fences left, and a block has six
  have hcount := hspan.count_le '\x60'
  have hnone : cs.count '\x60' = 0 := List.count_eq_zero_of_not_mem h
  have hsix : jsonFence.count '\x60' + fence.count '\x60' = 6 := by decide
  have hfive : ('\x60' :: '\x60' :: ('\n' :: cs ++ fence)).count '\x60' = 5 := by
    simp [fence, hnone]
  exact absurd (hsix ▸ hcount.trans_eq hfive) (by omega)

/-- Thoughts in front of a text are dropped. -/
theorem dropThoughts_thought {thought : List Char} (h : ¬ "</think>".toList <:+: thought)
    (cs : List Char) :
    dropThoughts ("<think>".toList ++ (thought ++ "</think>".toList ++ cs)) = dropThoughts cs := by
  have hspan : spanAt? "<think>".toList "</think>".toList
      ("<think>".toList ++ (thought ++ "</think>".toList ++ cs)) = some (thought, cs) := by
    rw [spanAt?, after?_self]
    exact cut?_of_notMem (by decide) h cs
  exact (stripped_iff (by simp)).mp (.span hspan ((stripped_iff (by simp)).mpr rfl))

theorem strip_congr {s t : String} (h : plain s.toList = plain t.toList) : strip s = strip t := by
  rw [strip, strip, h]

/-- **Wrapping does not change what is left of a text.** A text without a backtick is stripped to
the same when it is put into a block of code, or of JSON, and when thoughts are put in front of it
that have no backtick in them and do not end sooner. -/
theorem strip_wrapped {s : String} (hs : '\x60' ∉ s.toList) :
    strip ("\x60\x60\x60json\n" ++ s ++ "\n\x60\x60\x60") = strip s ∧
    strip ("\x60\x60\x60\n" ++ s ++ "\n\x60\x60\x60") = strip s ∧
    ∀ t : String, '\x60' ∉ t.toList → ¬ "</think>".toList <:+: t.toList →
      strip ("<think>" ++ t ++ "</think>" ++ s) = strip s := by
  have hlines : '\x60' ∉ '\n' :: (s.toList ++ ['\n']) := by simp [hs]
  have htrimmed : trim ('\n' :: (s.toList ++ ['\n'])) = trim s.toList := by
    have hfeed : Blanks ['\n'] := by simp [Blanks, isBlank]
    exact trim_around hfeed hfeed s.toList
  have hnone : '\x60' ∉ trim s.toList := by
    obtain ⟨before, after, -, -, heq⟩ := exists_blanks s.toList
    intro h
    refine hs ?_
    rw [heq]
    exact List.mem_append_left _ (List.mem_append_right _ h)
  have hfences := dropFences_of_notMem [] hnone
  rw [List.append_nil] at hfences
  have hplain : trim (dropThoughts (trim s.toList)) = plain s.toList := by
    rw [trim_dropThoughts_trim, plain_of_notMem hs]
  refine ⟨strip_congr ?_, strip_congr ?_, fun t ht hthought => strip_congr ?_⟩
  · -- the first pass takes the block off, and the others find no fence
    have htext : ("\x60\x60\x60json\n" ++ s ++ "\n\x60\x60\x60").toList =
        fence ++ "json".toList ++ ('\n' :: (s.toList ++ ['\n']) ++ fence) := by
      simp [fence]
    rw [htext, plain, jsonFence, dropFences_block _ hlines, htrimmed, hfences, hplain]
  · -- here the first pass leaves the block to the second
    have htext : ("\x60\x60\x60\n" ++ s ++ "\n\x60\x60\x60").toList =
        fence ++ ('\n' :: (s.toList ++ ['\n']) ++ fence) := by
      simp [fence]
    have hblock := dropFences_block [] hlines
    simp only [List.append_nil] at hblock
    rw [htext, plain, dropFences_jsonFence_block (by simp [hs]), hblock, htrimmed, hplain]
  · have htext : ("<think>" ++ t ++ "</think>" ++ s).toList =
        "<think>".toList ++ (t.toList ++ "</think>".toList ++ s.toList) := by
      simp
    have hall : '\x60' ∉ ("<think>" ++ t ++ "</think>" ++ s).toList := by simp [hs, ht]
    rw [plain_of_notMem hall, plain_of_notMem hs, htext, dropThoughts_thought hthought]

/-- A listing in a block, and behind thoughts that mention their own mark. -/
theorem strip_wrapped_listing :
    '\x60' ∉ " [1, 2] ".toList ∧ '\x60' ∉ "a < b <think>".toList ∧
    ¬ "</think>".toList <:+: "a < b <think>".toList ∧ strip " [1, 2] " = "[1,2]" ∧
    strip ("\x60\x60\x60json\n" ++ " [1, 2] " ++ "\n\x60\x60\x60") = "[1,2]" ∧
    strip ("\x60\x60\x60\n" ++ " [1, 2] " ++ "\n\x60\x60\x60") = "[1,2]" ∧
    strip ("<think>" ++ "a < b <think>" ++ "</think>" ++ " [1, 2] ") = "[1,2]" := by
  have hs : '\x60' ∉ " [1, 2] ".toList := by decide
  have ht : '\x60' ∉ "a < b <think>".toList := by decide
  have hthought : ¬ "</think>".toList <:+: "a < b <think>".toList := by decide
  have hplain : strip " [1, 2] " = "[1,2]" := by decide +kernel
  obtain ⟨hjson, hblock, hbehind⟩ := strip_wrapped hs
  exact ⟨hs, ht, hthought, hplain, hjson.trans hplain, hblock.trans hplain,
    (hbehind _ ht hthought).trans hplain⟩

end Markup

end ChatClient
