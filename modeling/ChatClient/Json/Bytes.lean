import ChatClient.Json.Reader
import ChatClient.Text.Charset

/-!
# JSON texts as bytes

A JSON text may arrive in UTF-8, UTF-16 or UTF-32. A byte order mark tells which; without
one, the zero bytes among the first four do, since a JSON text starts with ASCII
characters.
-/

namespace ChatClient.Json

open Text (Charset)

/-- The character set of a JSON text without a byte order mark. -/
def unmarkedCharset : List UInt8 → Charset
  | a :: b :: c :: d :: _ =>
    if a = 0 then if b = 0 then .utf32 (some .big) else .utf16 (some .big)
    else if b = 0 then
      if c = 0 ∧ d = 0 then .utf32 (some .little) else .utf16 (some .little)
    else .utf8
  | [a, b] => if a = 0 then .utf16 (some .big) else if b = 0 then .utf16 (some .little) else .utf8
  | _ => .utf8

/-- The character set of a JSON text. -/
def charsetOf (bs : List UInt8) : Charset :=
  if [0x00, 0x00, 0xFE, 0xFF].isPrefixOf bs ∨ [0xFF, 0xFE, 0x00, 0x00].isPrefixOf bs then
    .utf32 none
  else if [0xFE, 0xFF].isPrefixOf bs ∨ [0xFF, 0xFE].isPrefixOf bs then .utf16 none
  else if [0xEF, 0xBB, 0xBF].isPrefixOf bs then .utf8Marked
  else unmarkedCharset bs

/-- The value that some bytes write; none if they are not text or not JSON. -/
def readBytes? (bs : List UInt8) : Option Json :=
  (Text.allDecoded? ((charsetOf bs).decode bs)).bind ofChars?

end ChatClient.Json
