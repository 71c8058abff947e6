import ChatClient.Text.Charset.ByteSets
import ChatClient.Text.Utf8

/-!
# Character sets

The character sets in which a response body may be written. Each has a decoder that takes
one byte at a time, as `Utf8` does; the sets of two or four bytes a unit keep the bytes
that are not decoded yet as their state.
-/

namespace ChatClient.Text

/-- The order of the bytes within a unit. -/
inductive ByteOrder where
  | big
  | little
  deriving DecidableEq

/-- A character set. Without a byte order, a byte order mark at the start decides, and a text
without a mark is refused. -/
inductive Charset where
  | utf8
  /-- UTF-8 in which a byte order mark at the start is dropped. -/
  | utf8Marked
  | ascii
  | latin1
  /-- ASCII, and the given characters for the bytes from 0x80 on. -/
  | bytes (high : String)
  | utf16 (order : Option ByteOrder)
  | utf32 (order : Option ByteOrder)
  deriving DecidableEq

namespace Charset

/-- The names of the character sets, with a single underscore for each run of other
characters than letters, digits and points. -/
def names : List (String × Charset) := [
  ("utf_8", utf8), ("utf8", utf8), ("u8", utf8), ("utf", utf8), ("cp65001", utf8),
  ("utf_8_sig", utf8Marked),
  ("ascii", ascii), ("us_ascii", ascii), ("646", ascii), ("ansi_x3.4_1968", ascii),
  ("iso646_us", ascii), ("us", ascii),
  ("latin_1", latin1), ("iso_8859_1", latin1), ("iso8859_1", latin1), ("iso8859", latin1),
  ("latin1", latin1), ("latin", latin1), ("l1", latin1), ("8859", latin1), ("cp819", latin1),
  ("utf_16", utf16 none), ("utf16", utf16 none), ("u16", utf16 none),
  ("utf_16_le", utf16 (some .little)), ("utf_16le", utf16 (some .little)),
  ("unicodelittleunmarked", utf16 (some .little)),
  ("utf_16_be", utf16 (some .big)), ("utf_16be", utf16 (some .big)),
  ("unicodebigunmarked", utf16 (some .big)),
  ("utf_32", utf32 none), ("utf32", utf32 none), ("u32", utf32 none),
  ("utf_32_le", utf32 (some .little)), ("utf_32le", utf32 (some .little)),
  ("utf_32_be", utf32 (some .big)), ("utf_32be", utf32 (some .big))]

/-- A name with letters lowered and each run of separators made one underscore. -/
def normalName (name : List Char) : List Char :=
  let keep (c : Char) : Bool := c.isAlphanum || c == '.'
  (name.foldl (fun (acc : List Char × Bool) c =>
    if keep c then ((if acc.2 && !acc.1.isEmpty then c.toLower :: '_' :: acc.1
      else c.toLower :: acc.1), false)
    else (acc.1, true)) ([], false)).1.reverse

/-- The character set of one byte a character that has a name. -/
def byteSet? (name : String) : Option Charset :=
  (byteSets.find? (·.1.contains name)).map fun (_, high) => bytes high

/-- The character set of a name. -/
def ofName? (name : String) : Option Charset :=
  let name := String.ofList (normalName name.toList)
  ((names.find? (·.1 == name)).map (·.2)).or (byteSet? name)

/-- The character of a byte, where `high` has those from 0x80 on. -/
def byteChar (high : Array Char) (b : UInt8) : Decoded :=
  if b.toNat < 0x80 then some (Char.ofNat b.toNat)
  else high[b.toNat - 0x80]?.filter (· != '\ufffd')

/-- The number that the bytes of a unit write. -/
def unit (order : ByteOrder) (bs : List UInt8) : Nat :=
  let bytes := if order = .big then bs else bs.reverse
  bytes.foldl (fun n b => n * 256 + b.toNat) 0

/-- Whether a code point is that of a surrogate. -/
def isSurrogate (n : Nat) : Bool := 0xD800 ≤ n && n < 0xE000

/-- What the bytes gathered so far say in UTF-16, with the bytes that remain. -/
def take16 (order : ByteOrder) : List UInt8 → List UInt8 × List Decoded
  | [a, b] =>
    let u := unit order [a, b]
    if 0xD800 ≤ u ∧ u < 0xDC00 then ([a, b], [])
    else ([], [if isSurrogate u then none else some (Char.ofNat u)])
  | [a, b, c, d] =>
    let u := unit order [a, b]
    let v := unit order [c, d]
    if 0xDC00 ≤ v ∧ v < 0xE000 then
      ([], [some (Char.ofNat (0x10000 + (u - 0xD800) * 0x400 + (v - 0xDC00)))])
    else if 0xD800 ≤ v ∧ v < 0xDC00 then ([c, d], [none])
    else ([], [none, some (Char.ofNat v)])
  | bs => (bs, [])

/-- What the bytes gathered so far say in UTF-32, with the bytes that remain. -/
def take32 (order : ByteOrder) : List UInt8 → List UInt8 × List Decoded
  | [a, b, c, d] =>
    let u := unit order [a, b, c, d]
    ([], [if isSurrogate u || 0x10FFFF < u then none else some (Char.ofNat u)])
  | bs => (bs, [])

/-- Where a decoder stands. -/
inductive State where
  | utf8 (s : Utf8.State)
  /-- Before the first character of UTF-8 with a mark. -/
  | marked (s : Utf8.State)
  | bytewise (char : UInt8 → Decoded)
  | wide (width : Nat) (order : Option ByteOrder) (pending : List UInt8)
  /-- The byte order of the text is not known. -/
  | refused

/-- Before the first byte. -/
def start : Charset → State
  | .utf8 => .utf8 .start
  | .utf8Marked => .marked .start
  | .ascii => .bytewise fun (b : UInt8) => if b.toNat < 0x80 then some (Char.ofNat b.toNat) else none
  | .latin1 => .bytewise fun (b : UInt8) => some (Char.ofNat b.toNat)
  | .bytes high => .bytewise (byteChar high.toList.toArray)
  | .utf16 order => .wide 2 order []
  | .utf32 order => .wide 4 order []

/-- The byte order that the first unit tells if it is a byte order mark. -/
def orderOf? (pending : List UInt8) : Option ByteOrder :=
  if unit .little pending = 0xFEFF then some .little
  else if unit .big pending = 0xFEFF then some .big
  else none

/-- The step on one byte. -/
def State.step : State → UInt8 → State × List Decoded
  | .utf8 s, b =>
    let (s, ds) := Utf8.step s b
    (.utf8 s, ds)
  | .marked s, b =>
    match Utf8.step s b with
    | (s, []) => (.marked s, [])
    | (s, d :: ds) => (.utf8 s, if d = some (Char.ofNat 0xFEFF) then ds else d :: ds)
  | .bytewise char, b => (.bytewise char, [char b])
  | .wide width order pending, b =>
    let pending := pending ++ [b]
    match order with
    | none =>
      if pending.length < width then (.wide width none pending, [])
      else
        match orderOf? pending with
        | some order => (.wide width (some order) [], [])
        | none => (.refused, [])
    | some order =>
      let (rest, ds) := if width = 2 then take16 order pending else take32 order pending
      (.wide width (some order) rest, ds)
  | .refused, _ => (.refused, [])

/-- What the end of the input adds. -/
def State.finish : State → List Decoded
  | .utf8 s => Utf8.finish s
  | .marked s => Utf8.finish s
  | .bytewise _ => []
  | .wide _ _ pending => if pending.isEmpty then [] else [none]
  | .refused => []

/-- Whether a text has been refused. -/
def State.isRefused : State → Bool
  | .refused => true
  | _ => false

/-- Decodes some bytes from a state. -/
def State.scan : State → List UInt8 → State × List Decoded
  | s, [] => (s, [])
  | s, b :: bs =>
    let (s₁, ds) := s.step b
    let (s₂, es) := State.scan s₁ bs
    (s₂, ds ++ es)

/-- Decodes all bytes of a text. -/
def decode (charset : Charset) (bs : List UInt8) : List Decoded :=
  let (s, ds) := charset.start.scan bs
  ds ++ s.finish

/-- Where the input is cut makes no difference. -/
theorem State.scan_append (s : State) (bs cs : List UInt8) :
    s.scan (bs ++ cs) =
      (((s.scan bs).1.scan cs).1, (s.scan bs).2 ++ ((s.scan bs).1.scan cs).2) := by
  induction bs generalizing s with
  | nil => simp [State.scan]
  | cons b bs ih => simp [State.scan, ih]

end Charset

end ChatClient.Text
