import ChatClient.Text.Quoted
import ChatClient.Text.Utf8

/-!
# Percent encoding

A character that may not stand in a part of an address is written as the bytes of its UTF-8
form, each as a percent sign and two upper-case hexadecimal digits. In forms a space is
written as a plus sign.
-/

namespace ChatClient.Text

/-- A byte as a percent sign and two digits. -/
def percentByte (b : UInt8) : List Char := '%' :: (hexDigits 2 b.toNat).map Char.toUpper

/-- A text in which only the characters of a class stand for themselves. -/
def percentEncode (safe : Char → Bool) (cs : List Char) : List Char :=
  cs.flatMap fun c => if safe c then [c] else (String.utf8EncodeChar c).flatMap percentByte

/-- The characters that every part of an address may hold. -/
def isUnreserved (c : Char) : Bool := c.isAlphanum || c == '-' || c == '_' || c == '.' || c == '~'

/-- A name or a value of a form. -/
def formPart (s : String) : List Char :=
  s.toList.flatMap fun c => if c = ' ' then ['+'] else percentEncode isUnreserved [c]

/-- Names and values as a form. -/
def formEncode : List (String × String) → List Char
  | [] => []
  | [(k, v)] => formPart k ++ '=' :: formPart v
  | (k, v) :: p :: ps => formPart k ++ '=' :: formPart v ++ '&' :: formEncode (p :: ps)

theorem percentEncode_append (safe : Char → Bool) (as bs : List Char) :
    percentEncode safe (as ++ bs) = percentEncode safe as ++ percentEncode safe bs := by
  simp [percentEncode]

/-- A text of safe characters stays as it is. -/
theorem percentEncode_of_safe {safe : Char → Bool} {cs : List Char} (h : ∀ c ∈ cs, safe c = true) :
    percentEncode safe cs = cs := by
  induction cs with
  | nil => rfl
  | cons c cs ih =>
    have hc : safe c = true := h c (by simp)
    have hcs := ih fun d hd => h d (by simp [hd])
    simp only [percentEncode, List.flatMap_cons, hc, if_true] at hcs ⊢
    rw [hcs]; rfl

end ChatClient.Text
