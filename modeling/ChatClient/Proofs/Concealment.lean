import Mathlib.Data.List.Infix
import ChatClient.Proofs.GroqStreamed
import ChatClient.Proofs.Redaction

/-!
# A text without the secret

Redaction goes through a text once, from left to right, and goes on behind what it has replaced. So
it cuts the text at certain occurrences of the secret: before each of them there is none that ends
sooner, and behind the last one there is none at all. What stands between the cuts is kept.

In the result the pieces are joined by the text that stands for a secret. The secret could come up
again where a piece and that text meet, or inside that text. A secret without brackets does not
reach over its ends, which are brackets, and one that is not in the word between them is not inside.
-/

namespace ChatClient

namespace Text

variable {mark new before cs : List Char} {pieces : List (List Char)}

/-- The pieces of a text that is cut at a mark, from left to right: before each cut the mark ends
nowhere sooner, and behind the last one it does not occur. -/
inductive CutAt (mark : List Char) : List Char → List (List Char) → Prop
  | last {cs : List Char} (h : ¬ mark <:+: cs) : CutAt mark cs [cs]
  | next {before rest : List Char} {pieces : List (List Char)} (h : OnlyBetween mark before [])
    (hrest : CutAt mark rest pieces) : CutAt mark (before ++ mark ++ rest) (before :: pieces)

theorem CutAt.ne_nil (h : CutAt mark cs pieces) : pieces ≠ [] := by
  cases h <;> simp

theorem intercalate_cons (sep before : List Char) (h : pieces ≠ []) :
    sep.intercalate (before :: pieces) = before ++ sep ++ sep.intercalate pieces := by
  obtain ⟨piece, pieces, rfl⟩ := List.exists_cons_of_ne_nil h
  exact List.intercalate_cons_cons

/-- The cuts are made at the mark. -/
theorem CutAt.eq_intercalate (h : CutAt mark cs pieces) : cs = mark.intercalate pieces := by
  induction h with
  | last => exact List.intercalate_singleton.symm
  | next _ hrest ih => rw [intercalate_cons mark _ hrest.ne_nil, ← ih]

/-- Before the mark that ends first there is no mark. -/
theorem OnlyBetween.not_infix_before (h : OnlyBetween mark before []) (hmark : mark ≠ []) :
    ¬ mark <:+: before := by
  rintro ⟨x, y, hxy⟩
  have hlength := congrArg List.length (h x (y ++ mark) (by simp [← hxy]))
  rw [← hxy] at hlength
  simp only [List.length_append] at hlength
  exact hmark (List.eq_nil_of_length_eq_zero (by omega))

/-- No piece has the mark in it. -/
theorem CutAt.not_infix (h : CutAt mark cs pieces) (hmark : mark ≠ []) :
    ∀ piece ∈ pieces, ¬ mark <:+: piece := by
  induction h with
  | last hnone => exact fun piece hpiece => List.mem_singleton.mp hpiece ▸ hnone
  | next hfirst _ ih => exact List.forall_mem_cons.mpr ⟨hfirst.not_infix_before hmark, ih⟩

/-- Of the marks in a text there is one that ends first. -/
theorem exists_first (h : mark <:+: cs) :
    ∃ before rest, cs = before ++ mark ++ rest ∧ OnlyBetween mark before [] := by
  induction cs with
  | nil =>
      obtain rfl := List.eq_nil_of_infix_nil h
      exact ⟨[], [], rfl, fun x y hxy => (List.append_eq_nil_iff.mp (by simpa using hxy.symm)).1⟩
  | cons c cs ih =>
      by_cases hstart : mark <+: c :: cs
      · obtain ⟨rest, hrest⟩ := hstart
        refine ⟨[], rest, hrest.symm, fun x y hxy => ?_⟩
        have hlength := congrArg List.length hxy
        simp only [List.length_append, List.length_nil] at hlength
        exact List.eq_nil_of_length_eq_zero (by omega)
      · obtain ⟨before, rest, rfl, hfirst⟩ := ih ((List.infix_cons_iff.mp h).resolve_left hstart)
        refine ⟨c :: before, rest, rfl, fun x y hxy => ?_⟩
        cases x with
        | nil => exact absurd ⟨y ++ rest, by simpa using congrArg (· ++ rest) hxy.symm⟩ hstart
        | cons d x =>
            obtain rfl : c = d := (List.cons.inj hxy).1
            exact congrArg (c :: ·) (hfirst x y (List.cons.inj hxy).2)

/-- **Replacing cuts a text at the mark, and joins the pieces anew.** -/
theorem exists_cutAt (hmark : mark ≠ []) (new cs : List Char) :
    ∃ pieces, CutAt mark cs pieces ∧ replaceFrom mark new 0 cs = new.intercalate pieces := by
  -- each cut leaves less of the text
  induction hn : cs.length using Nat.strong_induction_on generalizing cs with
  | _ n ih =>
    by_cases h : mark <:+: cs
    · obtain ⟨before, rest, rfl, hfirst⟩ := exists_first h
      have hpos := List.length_pos_of_ne_nil hmark
      simp only [List.length_append] at hn
      obtain ⟨pieces, hcut, hjoined⟩ := ih rest.length (by omega) rest rfl
      refine ⟨before :: pieces, .next hfirst hcut, ?_⟩
      rw [replaceFrom_first hfirst hmark, hjoined, intercalate_cons new _ hcut.ne_nil]
    · exact ⟨[cs], .last h, (replaceFrom_of_absent h).trans List.intercalate_singleton.symm⟩

/-- A mark without a character does not reach over it. -/
theorem infix_of_notMem {c : Char} {xs ys : List Char} (hc : c ∉ mark)
    (h : mark <:+: xs ++ [c] ++ ys) : mark <:+: xs ∨ mark <:+: ys :=
  infix_or_infix (List.cons_ne_nil c []) (List.disjoint_singleton.mpr hc) h

end Text

namespace Credential

variable {c : Credential}

/-- A secret that does not come up in the text that stands for it, nor at its ends. -/
structure Concealable (c : Credential) : Prop where
  noOpening : '[' ∉ c.secret.toList
  noClosing : ']' ∉ c.secret.toList
  notInside : ¬ c.secret.toList <:+: "REDACTED".toList

theorem redactedText_eq : redactedText.toList = ['['] ++ "REDACTED".toList ++ [']'] := by decide

/-- Pieces without the secret are without it when they are joined. -/
theorem Concealable.not_infix (h : c.Concealable) {pieces : List (List Char)} (hne : pieces ≠ [])
    (hpieces : ∀ piece ∈ pieces, ¬ c.secret.toList <:+: piece) :
    ¬ c.secret.toList <:+: redactedText.toList.intercalate pieces := by
  induction pieces with
  | nil => exact absurd rfl hne
  | cons piece pieces ih =>
      obtain ⟨hpiece, hrest⟩ := List.forall_mem_cons.mp hpieces
      by_cases hlast : pieces = []
      · rw [hlast, List.intercalate_singleton]
        exact hpiece
      · rw [Text.intercalate_cons _ _ hlast, redactedText_eq]
        intro hin
        -- it is in what stands before, between or behind the two brackets
        rcases Text.infix_of_notMem h.noClosing (by simpa only [← List.append_assoc] using hin)
          with hin | hin
        · rcases Text.infix_of_notMem h.noOpening hin with hin | hin
          · exact hpiece hin
          · exact h.notInside hin
        · exact ih hlast hrest hin

/-- The pieces that a text is cut into come together again without the secret. -/
theorem redact_cutAt (hsecret : c.secret ≠ "") (s : String) :
    ∃ pieces, Text.CutAt c.secret.toList s.toList pieces ∧
      (c.redact s).toList = redactedText.toList.intercalate pieces := by
  have hmark : c.secret.toList ≠ [] := by simpa using hsecret
  obtain ⟨pieces, hcut, hjoined⟩ := Text.exists_cutAt hmark redactedText.toList s.toList
  refine ⟨pieces, hcut, ?_⟩
  rw [redact, Text.replaceAll, if_neg (by simpa using hsecret), String.toList_ofList, hjoined]

theorem Concealable.redact (h : c.Concealable) (hsecret : c.secret ≠ "") (s : String) :
    ¬ c.secret.toList <:+: (c.redact s).toList := by
  have hmark : c.secret.toList ≠ [] := by simpa using hsecret
  obtain ⟨pieces, hcut, hredacted⟩ := c.redact_cutAt hsecret s
  rw [hredacted]
  exact h.not_infix hcut.ne_nil (hcut.not_infix hmark)

end Credential

/-! ## Failures that quote a service -/

namespace Adapter

variable {a : Adapter}

/-- A payload with details of an error is the failure of its stream, redacted. -/
theorem streamFailure?_reported {v : Json} (h : errorObject v ≠ []) :
    ∃ s, a.streamFailure? v = some (.interrupted (a.redact s) none) := by
  unfold streamFailure?
  rw [if_neg (by simpa using h)]
  exact ⟨_, rfl⟩

theorem isObject_of_errorObject {v : Json} (h : errorObject v ≠ []) : ∃ es, v = .object es := by
  cases v with
  | object es => exact ⟨es, rfl⟩
  | _ => exact absurd rfl h

/-- Reading an event that reports a failure comes to that failure. -/
theorem readEvent_reported {data : String} {v : Json} (hread : Json.read? data = some v)
    (herror : errorObject v ≠ []) {f : Failure} (hf : a.streamFailure? v = some f) (l : Ledger) :
    (a.readEvent data).run l = (.error f, l) := by
  have hevent : ∀ p, Reading.event p data = pure v := fun p => by rw [Reading.event, hread]
  unfold readEvent
  cases a.provider with
  | groq =>
      obtain ⟨es, rfl⟩ := isObject_of_errorObject herror
      simp only [Groq.readEvent, if_neg (Groq.strip_ne_lastEvent_of_read? hread), hevent,
        pure_bind, hf]
      rfl
  | gemini =>
      simp only [Gemini.readEvent, hevent, pure_bind, hf]
      rfl

end Adapter

/--
**What redaction leaves of a text, and that no message shows the secret.**

A text is cut at the occurrences of the secret that a search from the left comes to, none of its
pieces has the secret in it, and the redacted text has all of them, joined by what stands for a
secret. If the secret has no brackets and is not in the word that stands for it, then it is nowhere
in a redacted text. So it is in no message of a failed answer, and in none of a stream that reports
its own failure.
-/
theorem Credential.redact_conceals {c : Credential} (hsecret : c.secret ≠ "") :
    (∀ s : String, ∃ pieces, Text.CutAt c.secret.toList s.toList pieces ∧
      s.toList = c.secret.toList.intercalate pieces ∧
      (c.redact s).toList = redactedText.toList.intercalate pieces ∧
      ∀ piece ∈ pieces, ¬ c.secret.toList <:+: piece) ∧
    (c.Concealable →
      (∀ s : String, ¬ c.secret.toList <:+: (c.redact s).toList) ∧
      ∀ a : Adapter, a.credential = c →
        (∀ now status headers bytes failure,
          a.serviceFailure now status headers bytes = .ok failure →
            ¬ c.secret.toList <:+: failure.message.toList) ∧
        ∀ data v, Json.read? data = some v → errorObject v ≠ [] → ∀ l, ∃ message,
          (a.readEvent data).run l = (.error (.interrupted message none), l) ∧
            ¬ c.secret.toList <:+: message.toList) := by
  have hmark : c.secret.toList ≠ [] := by simpa using hsecret
  constructor
  · intro s
    obtain ⟨pieces, hcut, hredacted⟩ := c.redact_cutAt hsecret s
    exact ⟨pieces, hcut, hcut.eq_intercalate, hredacted, hcut.not_infix hmark⟩
  · intro hc
    refine ⟨hc.redact hsecret, ?_⟩
    rintro a rfl
    constructor
    · intro now status headers bytes failure h
      obtain ⟨s, hs⟩ := a.exists_redact_eq_failureMessage status (errorDetail (errorBody bytes))
      rw [(Adapter.serviceFailure_ok h).1, hs]
      exact hc.redact hsecret s
    intro data v hread herror l
    obtain ⟨s, hs⟩ := Adapter.streamFailure?_reported (a := a) herror
    exact ⟨a.redact s, Adapter.readEvent_reported hread herror hs l, hc.redact hsecret s⟩

/-- A secret that overlaps itself is found where it ends first, and what is left of its second
occurrence stays; an answer that refuses the secret; and a stream that reports a failure with the
secret in it. -/
theorem Credential.redact_conceals_overlapping :
    let c : Credential := ⟨"groq", "aba"⟩
    let a : Adapter := { provider := .groq, credential := c, baseUrl := "https://x" }
    let report := "\x7b\"error\": \x7b\"message\": \"no key aba\"\x7d\x7d"
    c.secret ≠ "" ∧ c.Concealable ∧ c.redact "xababay" = "x[REDACTED]bay" ∧
      (∃ pieces, Text.CutAt c.secret.toList "xababay".toList pieces ∧
        (c.redact "xababay").toList = redactedText.toList.intercalate pieces) ∧
      (∃ failure, a.serviceFailure 0 401 [] (Text.Utf8.encode report) = .ok failure ∧
        ¬ c.secret.toList <:+: failure.message.toList) ∧
      ∃ message, (a.readEvent report).run {} = (.error (.interrupted message none), {}) ∧
        ¬ c.secret.toList <:+: message.toList := by
  intro c a report
  have hsecret : c.secret ≠ "" := by decide
  have hc : c.Concealable := ⟨by decide, by decide, by decide⟩
  have hread : Json.read? report =
      some (.object [("error", .object [("message", .text "no key aba")])]) :=
    Reading.read?_of_chars String.toList_ofList (by cbv)
  obtain ⟨hcut, hconceals⟩ := redact_conceals hsecret
  obtain ⟨pieces, hpieces, -, hjoined, -⟩ := hcut "xababay"
  obtain ⟨hanswers, hstreams⟩ := (hconceals hc).2 a rfl
  refine ⟨hsecret, hc, by decide, ⟨pieces, hpieces, hjoined⟩, ⟨_, rfl, ?_⟩, ?_⟩
  · exact hanswers 0 401 [] _ _ rfl
  · exact hstreams report _ hread (List.cons_ne_nil _ _) {}

end ChatClient
