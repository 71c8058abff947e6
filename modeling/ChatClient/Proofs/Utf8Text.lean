import ChatClient.Text.Charset

/-!
# What is written in UTF-8 is read back

The decoder takes one byte at a time. From between two characters, the bytes of a character take
it to between two characters again, and give just that character: its first byte says how many
follow and holds the bits that are worth most, and each byte after it shifts those up by six.
The bounds that the decoder has for the second byte are those of characters that are neither
surrogates nor written longer than they have to be.
-/

namespace ChatClient.Text

namespace Utf8

theorem scan_cons (s : State) (b : UInt8) (bs : List UInt8) :
    scan s (b :: bs) =
      ((scan (step s b).1 bs).1, (step s b).2 ++ (scan (step s b).1 bs).2) := rfl

/-! ## The first byte of a character -/

theorem first_ascii {n : Nat} (h : n < 0x80) :
    first (UInt8.ofNat n) = (.start, [some (Char.ofNat n)]) := by
  rw [first, UInt8.toNat_ofNat_of_lt' (Nat.lt_trans h (by decide))]
  exact if_pos h

theorem first_two {q : Nat} (hlow : 2 ≤ q) (hhigh : q < 32) :
    first (UInt8.ofNat (q + 192)) = (.within 1 q 0x80 0xBF, []) := by
  have hbyte : q + 192 < UInt8.size := by simp only [UInt8.size]; omega
  rw [first, UInt8.toNat_ofNat_of_lt' hbyte]
  simp only [if_neg (show ¬ q + 192 < 0x80 by omega),
    if_pos (show 0xC2 ≤ q + 192 ∧ q + 192 ≤ 0xDF by omega), Nat.add_sub_cancel]

theorem first_three {q : Nat} (h : q < 16) :
    first (UInt8.ofNat (q + 224)) =
      (.within 2 q (if q = 0 then 0xA0 else 0x80) (if q = 13 then 0x9F else 0xBF), []) := by
  have hbyte : q + 224 < UInt8.size := by simp only [UInt8.size]; omega
  rw [first, UInt8.toNat_ofNat_of_lt' hbyte]
  grind

theorem first_four {q : Nat} (h : q < 5) :
    first (UInt8.ofNat (q + 240)) =
      (.within 3 q (if q = 0 then 0x90 else 0x80) (if q = 4 then 0x8F else 0xBF), []) := by
  have hbyte : q + 240 < UInt8.size := by simp only [UInt8.size]; omega
  rw [first, UInt8.toNat_ofNat_of_lt' hbyte]
  grind

/-! ## The bytes after it -/

theorem step_within {left code low high m : Nat} (hm : m < 64) (hlow : low ≤ m + 128)
    (hhigh : m + 128 ≤ high) :
    step (.within left code low high) (UInt8.ofNat (m + 128)) =
      if left ≤ 1 then (.start, [some (Char.ofNat (code * 64 + m))])
      else (.within (left - 1) (code * 64 + m) 0x80 0xBF, []) := by
  have hbyte : m + 128 < UInt8.size := by simp only [UInt8.size]; omega
  rw [step, UInt8.toNat_ofNat_of_lt' hbyte, if_pos ⟨hlow, hhigh⟩, Nat.add_sub_cancel]

/-- The bytes that end a character, from the first one that has no bounds of its own. -/
theorem scan_within (code m : Nat) (ms : List Nat) (hms : ∀ n ∈ m :: ms, n < 64) :
    scan (.within (ms.length + 1) code 0x80 0xBF) ((m :: ms).map fun n => UInt8.ofNat (n + 128)) =
      (.start, [some (Char.ofNat ((m :: ms).foldl (fun code n => code * 64 + n) code))]) := by
  induction ms generalizing code m with
  | nil =>
      have hm := hms m (by simp)
      rw [List.map_cons, scan_cons, step_within hm (by omega) (by omega)]
      rfl
  | cons n ns ih =>
      have hm := hms m (by simp)
      have hrest := ih (code * 64 + m) n fun k hk => hms k (List.mem_cons_of_mem _ hk)
      rw [List.map_cons, scan_cons, step_within hm (by omega) (by omega)]
      simp only [List.length_cons, show ¬ ns.length + 1 + 1 ≤ 1 by omega, if_false,
        Nat.add_sub_cancel, hrest, List.nil_append]
      rfl

/-! ## Characters and texts -/

/-- **A character is read back from its bytes.** -/
theorem scan_encodeChar (c : Char) :
    scan .start (String.utf8EncodeChar c) = (.start, [some c]) := by
  have hvalid : c.toNat < 0xD800 ∨ 0xDFFF < c.toNat ∧ c.toNat < 0x110000 := c.valid
  have hc : Char.ofNat c.toNat = c := Char.ofNat_toNat c
  have hstart : ∀ b, step .start b = first b := fun _ => rfl
  obtain ⟨v, hv⟩ : ∃ v, c.toNat = v := ⟨_, rfl⟩
  unfold String.utf8EncodeChar
  rw [show c.val.toNat = v from hv]
  rw [hv] at hvalid hc
  rw [← hc]
  have hlast : v % 64 < 64 := Nat.mod_lt _ (by omega)
  have hmiddle : v / 64 % 64 < 64 := Nat.mod_lt _ (by omega)
  by_cases h1 : v ≤ 127
  · simp only [if_pos h1, scan, hstart, first_ascii (show v < 0x80 by omega), List.append_nil]
  by_cases h2 : v ≤ 2047
  · have hcode : v / 64 % 32 * 64 + v % 64 = v := by omega
    have htail := scan_within (v / 64 % 32) (v % 64) [] (by simpa using hlast)
    simp only [List.map_cons, List.map_nil, List.length_nil, List.foldl_cons, List.foldl_nil, hcode]
      at htail
    simp only [if_neg h1, if_pos h2]
    rw [scan_cons, hstart, first_two (by omega) (by omega)]
    simp only [htail, List.nil_append]
  by_cases h3 : v ≤ 65535
  · have hcode : (v / 4096 % 16 * 64 + v / 64 % 64) * 64 + v % 64 = v := by omega
    have htail := scan_within (v / 4096 % 16 * 64 + v / 64 % 64) (v % 64) []
      (by simpa using hlast)
    simp only [List.map_cons, List.map_nil, List.length_nil, List.foldl_cons, List.foldl_nil, hcode]
      at htail
    simp only [if_neg h1, if_neg h2, if_pos h3]
    -- the second byte keeps its bounds since this is no surrogate, and needs three bytes
    rw [scan_cons, hstart, first_three (by omega), scan_cons,
      step_within hmiddle (by split <;> omega) (by split <;> omega)]
    simp only [show ¬ 2 ≤ 1 by omega, if_false, htail, List.nil_append]
  · have hcode : ((v / 262144 % 8 * 64 + v / 4096 % 64) * 64 + v / 64 % 64) * 64 + v % 64 = v := by
      omega
    have htail := scan_within (v / 262144 % 8 * 64 + v / 4096 % 64) (v / 64 % 64)
      [v % 64] (by simpa using ⟨hmiddle, hlast⟩)
    simp only [List.map_cons, List.map_nil, List.length_nil, List.length_cons, List.foldl_cons,
      List.foldl_nil, hcode] at htail
    simp only [if_neg h1, if_neg h2, if_neg h3]
    rw [scan_cons, hstart, first_four (by omega), scan_cons,
      step_within (by omega) (by split <;> omega) (by split <;> omega)]
    simp only [show ¬ 3 ≤ 1 by omega, if_false, htail, List.nil_append]

/-- A text is read back from its bytes. -/
theorem scan_encode (s : String) : scan .start (encode s) = (.start, s.toList.map some) := by
  unfold encode
  induction s.toList with
  | nil => rfl
  | cons c cs ih =>
      rw [List.flatMap_cons, scan_append, scan_encodeChar, ih]
      rfl

end Utf8

/-- Decoding as UTF-8, a byte at a time. -/
theorem Charset.scan_utf8 (s : Utf8.State) (bs : List UInt8) :
    Charset.State.scan (.utf8 s) bs = (.utf8 (Utf8.scan s bs).1, (Utf8.scan s bs).2) := by
  induction bs generalizing s with
  | nil => rfl
  | cons b bs ih =>
      rw [Charset.State.scan, Charset.State.step, Utf8.scan_cons]
      simp only [ih]

theorem withReplacements_map_some (cs : List Char) : withReplacements (cs.map some) = cs := by
  rw [withReplacements, List.map_map]
  exact List.map_id cs

end ChatClient.Text
