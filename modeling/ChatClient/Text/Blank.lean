/-!
# White space

One set of white-space characters serves trimming, the blanks around numerals and
the blanks inside markup: the Unicode white space together with the four
information separators U+001C to U+001F. A zero-width space (U+200B) and a byte
order mark (U+FEFF) are not blank.
-/

namespace ChatClient.Text

/-- The characters that trimming removes. -/
def isBlank (c : Char) : Bool :=
  let n := c.toNat
  (9 ≤ n && n ≤ 13) || (28 ≤ n && n ≤ 32) || n == 0x85 || n == 0xA0 || n == 0x1680 ||
    (0x2000 ≤ n && n ≤ 0x200A) || n == 0x2028 || n == 0x2029 || n == 0x202F || n == 0x205F ||
    n == 0x3000

/-- Without the blanks at its start. -/
def trimStart (cs : List Char) : List Char := cs.dropWhile isBlank

/-- Without the characters of a class at its end. -/
def dropEndWhile (p : Char → Bool) (cs : List Char) : List Char := (cs.reverse.dropWhile p).reverse

/-- Without the blanks at either end. -/
def trim (cs : List Char) : List Char := dropEndWhile isBlank (trimStart cs)

/-- A text without the blanks at either end. -/
def strip (s : String) : String := String.ofList (trim s.toList)

/-- Whether a text has no character but blanks. -/
def isBlankText (s : String) : Bool := s.toList.all isBlank

/-- White space in the sense of core's `Char.isWhitespace` is blank here too. -/
theorem isBlank_of_isWhitespace {c : Char} (h : c.isWhitespace = true) : isBlank c = true := by
  simp only [Char.isWhitespace, Bool.or_eq_true, decide_eq_true_eq] at h
  rcases h with ((h | h) | h) | h <;> subst h <;> decide

end ChatClient.Text
