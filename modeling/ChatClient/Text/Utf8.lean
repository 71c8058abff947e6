/-!
# UTF-8, a byte at a time

The decoder is a state and a step on one byte, so that a text may arrive in chunks cut
anywhere: decoding chunk after chunk is decoding their concatenation (`scan_append`). A
byte sequence that is not UTF-8 gives `none`, once for each longest run that could still
have become a character; a caller shows it as U+FFFD or refuses the text.
-/

namespace ChatClient.Text

/-- What a decoder gives for one piece of input: a character, or `none` for bad bytes. -/
abbrev Decoded := Option Char

/-- What stands for bytes that are not text. -/
def replacement : Char := Char.ofNat 0xFFFD

/-- Decoded text with a replacement character for bad bytes. -/
def withReplacements (ds : List Decoded) : List Char := ds.map fun d => d.getD replacement

/-- Decoded text, if no bytes were bad. -/
def allDecoded? (ds : List Decoded) : Option (List Char) := ds.mapM id

namespace Utf8

/-- Between characters, or within one: `left` bytes are missing, of which the next lies
between `low` and `high`, and `code` holds the bits so far. -/
inductive State where
  | start
  | within (left code low high : Nat)
  deriving Inhabited

/-- The step on a first byte. -/
def first (b : UInt8) : State × List Decoded :=
  let n := b.toNat
  if n < 0x80 then (.start, [some (Char.ofNat n)])
  else if 0xC2 ≤ n ∧ n ≤ 0xDF then (.within 1 (n - 0xC0) 0x80 0xBF, [])
  else if n = 0xE0 then (.within 2 0 0xA0 0xBF, [])
  else if n = 0xED then (.within 2 (n - 0xE0) 0x80 0x9F, [])
  else if 0xE1 ≤ n ∧ n ≤ 0xEF then (.within 2 (n - 0xE0) 0x80 0xBF, [])
  else if n = 0xF0 then (.within 3 0 0x90 0xBF, [])
  else if 0xF1 ≤ n ∧ n ≤ 0xF3 then (.within 3 (n - 0xF0) 0x80 0xBF, [])
  else if n = 0xF4 then (.within 3 4 0x80 0x8F, [])
  else (.start, [none])

/-- The step on one byte. A byte that cannot continue a character ends it as bad and is
looked at again as a first byte. -/
def step : State → UInt8 → State × List Decoded
  | .start, b => first b
  | .within left code low high, b =>
    if low ≤ b.toNat ∧ b.toNat ≤ high then
      let code := code * 64 + (b.toNat - 0x80)
      if left ≤ 1 then (.start, [some (Char.ofNat code)])
      else (.within (left - 1) code 0x80 0xBF, [])
    else
      let (s, ds) := first b
      (s, none :: ds)

/-- What the end of the input adds: a character cut short is bad. -/
def finish : State → List Decoded
  | .start => []
  | .within _ _ _ _ => [none]

/-- Decodes some bytes from a state. -/
def scan : State → List UInt8 → State × List Decoded
  | s, [] => (s, [])
  | s, b :: bs =>
    let (s₁, ds) := step s b
    let (s₂, es) := scan s₁ bs
    (s₂, ds ++ es)

/-- Decodes all bytes of a text. -/
def decode (bs : List UInt8) : List Decoded :=
  let (s, ds) := scan .start bs
  ds ++ finish s

/-- The bytes of a text. -/
def encode (s : String) : List UInt8 := s.toList.flatMap String.utf8EncodeChar

/-- The text of some bytes, with replacement characters. -/
def textOf (bs : List UInt8) : String := String.ofList (withReplacements (decode bs))

/-- Where the input is cut makes no difference. -/
theorem scan_append (s : State) (bs cs : List UInt8) :
    scan s (bs ++ cs) =
      ((scan (scan s bs).1 cs).1, (scan s bs).2 ++ (scan (scan s bs).1 cs).2) := by
  induction bs generalizing s with
  | nil => simp [scan]
  | cons b bs ih => simp [scan, ih]

end Utf8

end ChatClient.Text
