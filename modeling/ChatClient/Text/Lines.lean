/-!
# Lines of a text that arrives in pieces

A line ends at a line feed, a carriage return, both in that order, a vertical tab, a form
feed, one of U+001C to U+001E, a next-line character (U+0085) or a line or paragraph
separator. A carriage return ends its line only when the next character is known, since a
line feed may follow it in the next piece. Cutting the text elsewhere makes no difference
(`scan_append`).
-/

namespace ChatClient.Text.Lines

/-- The characters that end a line by themselves. -/
def isBreak (c : Char) : Bool :=
  let n := c.toNat
  (0x0A ≤ n && n ≤ 0x0D) || (0x1C ≤ n && n ≤ 0x1E) || n == 0x85 || n == 0x2028 || n == 0x2029

/-- The line so far, last character first, and whether a carriage return came last. -/
structure State where
  line : List Char := []
  returned : Bool := false
  deriving Inhabited

/-- The characters of the line so far, in order. -/
def State.text (s : State) : String := String.ofList s.line.reverse

/-- A character when no carriage return is pending. -/
def State.plain (s : State) (c : Char) : State × List String :=
  if c = '\r' then ({ s with returned := true }, [])
  else if isBreak c then ({}, [s.text])
  else ({ line := c :: s.line }, [])

/-- The step on one character. -/
def State.step (s : State) (c : Char) : State × List String :=
  if s.returned then
    if c = '\n' then ({}, [s.text])
    else
      let (next, lines) := State.plain {} c
      (next, s.text :: lines)
  else s.plain c

/-- The lines that some characters complete. -/
def State.scan : State → List Char → State × List String
  | s, [] => (s, [])
  | s, c :: cs =>
    let (s₁, ls) := s.step c
    let (s₂, ms) := State.scan s₁ cs
    (s₂, ls ++ ms)

/-- The line that the end of the text completes. -/
def State.finish (s : State) : List String :=
  if s.line.isEmpty && !s.returned then [] else [s.text]

/-- All lines of a text. -/
def ofChars (cs : List Char) : List String :=
  let (s, ls) := State.scan {} cs
  ls ++ s.finish

/-- Where the text is cut makes no difference. -/
theorem State.scan_append (s : State) (as bs : List Char) :
    s.scan (as ++ bs) =
      (((s.scan as).1.scan bs).1, (s.scan as).2 ++ ((s.scan as).1.scan bs).2) := by
  induction as generalizing s with
  | nil => simp [State.scan]
  | cons c cs ih => simp [State.scan, ih]

end ChatClient.Text.Lines
