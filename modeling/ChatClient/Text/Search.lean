/-!
# Searching and replacing

Texts are searched as lists of characters for the first occurrence of a mark. A
replacement goes from left to right, and the replaced pieces do not overlap.
-/

namespace ChatClient.Text

/-- What follows `mark` at the start of a text. -/
def after? : List Char → List Char → Option (List Char)
  | [], cs => some cs
  | _ :: _, [] => none
  | m :: ms, c :: cs => if m = c then after? ms cs else none

/-- The text before the first occurrence of `mark`, and the text behind it. -/
def cut? (mark : List Char) : List Char → Option (List Char × List Char)
  | [] => (after? mark []).map fun rest => ([], rest)
  | c :: cs =>
    match after? mark (c :: cs) with
    | some rest => some ([], rest)
    | none => (cut? mark cs).map fun (before, rest) => (c :: before, rest)

/-- Whether `mark` occurs in a text. -/
def occurs (mark : String) (s : String) : Bool := (cut? mark.toList s.toList).isSome

/-- Replaces each occurrence of `mark`, after leaving out `skip` characters. -/
def replaceFrom (mark new : List Char) : Nat → List Char → List Char
  | _, [] => []
  | skip + 1, _ :: cs => replaceFrom mark new skip cs
  | 0, c :: cs =>
    match after? mark (c :: cs) with
    | some _ => new ++ replaceFrom mark new (mark.length - 1) cs
    | none => c :: replaceFrom mark new 0 cs

/-- A text with each occurrence of a non-empty `mark` replaced. -/
def replaceAll (mark new : String) (s : String) : String :=
  if mark.isEmpty then s else String.ofList (replaceFrom mark.toList new.toList 0 s.toList)

/-- Joins texts with a separator between them. -/
def joinWith (sep : String) : List String → String
  | [] => ""
  | [s] => s
  | s :: t :: ss => s ++ sep ++ joinWith sep (t :: ss)

theorem after?_eq_some_iff {mark cs rest : List Char} :
    after? mark cs = some rest ↔ cs = mark ++ rest := by
  induction mark generalizing cs with
  | nil => simp [after?]
  | cons m ms ih =>
    cases cs with
    | nil => simp [after?]
    | cons c cs =>
      by_cases h : m = c
      · simp [after?, h, ih]
      · simp [after?, h, Ne.symm h]

/-- A cut loses nothing: the pieces and the mark between them are the text. -/
theorem eq_of_cut? {mark cs before rest : List Char} (h : cut? mark cs = some (before, rest)) :
    cs = before ++ mark ++ rest := by
  induction cs generalizing before with
  | nil =>
    obtain ⟨r, hr, he⟩ := Option.map_eq_some_iff.1 h
    obtain ⟨rfl, rfl⟩ := Prod.mk.inj he
    simpa using after?_eq_some_iff.1 hr
  | cons c cs ih =>
    unfold cut? at h
    split at h
    · next r hr =>
      obtain ⟨rfl, rfl⟩ := Prod.mk.inj (Option.some.inj h)
      simpa using after?_eq_some_iff.1 hr
    · obtain ⟨⟨b, r⟩, hb, he⟩ := Option.map_eq_some_iff.1 h
      obtain ⟨rfl, rfl⟩ := Prod.mk.inj he
      simp [ih hb]

end ChatClient.Text
