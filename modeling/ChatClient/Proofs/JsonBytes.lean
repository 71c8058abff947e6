import ChatClient.Json.Bytes
import ChatClient.Proofs.Forms
import ChatClient.Proofs.Utf8Text

/-!
# JSON texts in UTF-8

The reader tells the character set of a JSON text by its first bytes. No JSON text has a null
character among its first two, so one that comes in UTF-8 is not taken for anything else.
-/

namespace ChatClient.Json

variable {c d : Char} {cs : List Char} {v : Json} {fuel : ℕ}

/-- A character that a JSON text may start with. -/
theorem ascii_of_not_isStop (h : isStop c = false) : 0 < c.toNat ∧ c.toNat < 0x80 := by
  simp only [isStop, Bool.and_eq_false_iff, Bool.not_eq_false', decide_eq_false_iff_not,
    Decidable.not_not] at h
  rcases h with h | h
  · have := Holed.toNat_of_isAlphanum h
    omega
  · simp only [List.mem_cons, List.not_mem_nil, or_false] at h
    rcases h with rfl | rfl | rfl <;> decide

/-- What a value starts with. -/
theorem ascii_of_value? {r : Json × List Char} (h : value? fuel (c :: cs) = some r) :
    0 < c.toNat ∧ c.toNat < 0x80 := by
  unfold value? at h
  split at h
  · exact absurd h (by simp)
  · next heq =>
    obtain ⟨rfl, -⟩ := List.cons.inj heq
    decide
  · next heq =>
    obtain ⟨rfl, -⟩ := List.cons.inj heq
    decide
  · next heq =>
    obtain ⟨rfl, -⟩ := List.cons.inj heq
    decide
  · refine ascii_of_not_isStop ?_
    by_contra hstop
    have hnone := scalar?_stop [] (stops_cons ((Bool.not_eq_false _).mp hstop) cs)
    exact absurd (h.symm.trans hnone) (by simp [scalar?, unsigned?, whole?])

theorem value?_null {r : Json × List Char} : value? fuel ('\x00' :: cs) ≠ some r :=
  fun h => absurd (ascii_of_value? h).1 (by decide)

/-- A value does not go on with a null character, and does not end before one. -/
theorem value?_cons_null {r : Json × List Char} (h : value? fuel (c :: '\x00' :: cs) = some r) :
    skipSpace r.2 ≠ [] := by
  intro hrest
  unfold value? at h
  split at h
  · exact absurd h (by simp)
  · next heq =>
    obtain ⟨rfl, rfl⟩ := List.cons.inj heq
    exact absurd h (by simp [stringRest])
  · next fuel _ heq =>
    obtain ⟨rfl, rfl⟩ := List.cons.inj heq
    have hitems : items? fuel ('\x00' :: cs) = none := by
      cases fuel with
      | zero => rfl
      | succ fuel =>
          unfold items?
          cases hv : value? fuel ('\x00' :: cs) with
          | none => rfl
          | some r => exact absurd hv value?_null
    rw [skipSpace_cons (by decide)] at h
    exact absurd (h.symm.trans (congrArg (Option.map _) hitems)) (by simp)
  · next fuel _ heq =>
    obtain ⟨rfl, rfl⟩ := List.cons.inj heq
    have hmembers : members? fuel ('\x00' :: cs) = none := by
      cases fuel <;> rfl
    rw [skipSpace_cons (by decide)] at h
    exact absurd (h.symm.trans (congrArg (Option.map _) hmembers)) (by simp)
  · have hstop := scalar?_stop [c] (stops_cons (c := '\x00') (by decide) cs)
    obtain ⟨⟨w, tail⟩, -, rfl⟩ := Option.map_eq_some_iff.mp (hstop.symm.trans h)
    have hspace := List.dropWhile_eq_nil_iff.mp hrest '\x00' (by simp)
    exact absurd hspace (by decide)

theorem isSpace_ascii (h : isSpace c = true) : 0 < c.toNat ∧ c.toNat < 0x80 := by
  simp only [isSpace, Bool.or_eq_true, beq_iff_eq] at h
  rcases h with ((rfl | rfl) | rfl) | rfl <;> decide

/-- What a JSON text starts with. -/
theorem ascii_of_ofChars? (h : ofChars? (c :: cs) = some v) : 0 < c.toNat ∧ c.toNat < 0x80 := by
  by_cases hspace : isSpace c = true
  · exact isSpace_ascii hspace
  · unfold ofChars? at h
    rw [skipSpace_cons ((Bool.not_eq_true _).mp hspace)] at h
    split at h
    · next hv => exact ascii_of_value? hv
    · exact absurd h (by simp)

theorem ofChars?_cons_null : ofChars? (c :: '\x00' :: cs) = none := by
  by_contra hsome
  obtain ⟨v, h⟩ := Option.ne_none_iff_exists'.mp hsome
  unfold ofChars? at h
  split at h
  · next w rest hv =>
    by_cases hspace : isSpace c = true
    · have hskip : skipSpace (c :: '\x00' :: cs) = '\x00' :: cs := by
        rw [skipSpace, List.dropWhile_cons_of_pos hspace]
        exact skipSpace_cons (by decide) cs
      rw [hskip] at hv
      exact absurd hv value?_null
    · rw [skipSpace_cons ((Bool.not_eq_true _).mp hspace)] at hv
      split_ifs at h with hrest
      exact value?_cons_null hv (List.isEmpty_iff.mp hrest)
  · exact absurd h (by simp)

/-! ## Bytes -/

/-- Bytes of which the first two are no null bytes, and the first is ASCII, are taken for UTF-8. -/
theorem charsetOf_ascii {a : UInt8} {bs : List UInt8} (ha : a ≠ 0) (hascii : a.toNat < 0x80)
    (hbs : ∀ b ∈ bs.head?, b ≠ 0) : charsetOf (a :: bs) = .utf8 := by
  have hne (m : UInt8) (hm : 0x80 ≤ m.toNat) : (m == a) = false := by
    rw [beq_eq_false_iff_ne]
    rintro rfl
    omega
  have hzero : ((0 : UInt8) == a) = false := by
    rw [beq_eq_false_iff_ne]
    exact ha.symm
  unfold charsetOf
  simp only [List.isPrefixOf, hne 0xFF (by decide), hne 0xFE (by decide), hne 0xEF (by decide),
    hzero, Bool.false_and, or_self, if_false, Bool.false_eq_true]
  unfold unmarkedCharset
  split
  · next a' b' c' d' _ heq =>
    obtain ⟨rfl, rfl⟩ := List.cons.inj heq
    rw [if_neg ha, if_neg (hbs b' rfl)]
  · next a' b' heq =>
    obtain ⟨rfl, rfl⟩ := List.cons.inj heq
    rw [if_neg ha, if_neg (hbs b' rfl)]
  · rfl

theorem utf8EncodeChar_ascii (h : c.toNat < 0x80) :
    String.utf8EncodeChar c = [UInt8.ofNat c.toNat] := by
  unfold String.utf8EncodeChar
  simp only [show c.val.toNat = c.toNat from rfl]
  rw [if_pos (by omega)]

theorem ofNat_ne_zero {n : ℕ} (hpos : 0 < n) (hlt : n < 256) : UInt8.ofNat n ≠ 0 := by
  intro h
  have hnat := congrArg UInt8.toNat h
  rw [UInt8.toNat_ofNat', UInt8.toNat_zero] at hnat
  omega

/-- Only the null character has a null byte in front. -/
theorem head?_utf8EncodeChar (h : c ≠ '\x00') :
    ∀ b ∈ (String.utf8EncodeChar c).head?, b ≠ 0 := by
  have hpos : c.val.toNat ≠ 0 := fun hzero => h (Char.toNat_inj.mp hzero)
  intro b hb
  unfold String.utf8EncodeChar at hb
  dsimp only at hb
  split_ifs at hb
  all_goals
    obtain rfl := Option.some.inj hb
    exact ofNat_ne_zero (by omega) (by omega)

/-- **A JSON text in UTF-8 reads as what its characters write.** -/
theorem readBytes?_encode_of_read? {s : String} (h : read? s = some v) :
    readBytes? (Text.Utf8.encode s) = some v := by
  have hcharset : charsetOf (Text.Utf8.encode s) = .utf8 := by
    unfold read? at h
    unfold Text.Utf8.encode
    cases hs : s.toList with
    | nil =>
        have hnone : ofChars? [] = none := by decide
        rw [hs, hnone] at h
        exact absurd h (by simp)
    | cons c cs =>
        rw [hs] at h
        obtain ⟨hpos, hascii⟩ := ascii_of_ofChars? h
        have hbyte : (UInt8.ofNat c.toNat).toNat = c.toNat := by
          rw [UInt8.toNat_ofNat']
          omega
        rw [List.flatMap_cons, utf8EncodeChar_ascii hascii, List.singleton_append]
        refine charsetOf_ascii (ofNat_ne_zero hpos (by omega)) (by omega) ?_
        cases cs with
        | nil => exact fun b hb => absurd hb (by simp)
        | cons d cs =>
            have hd : d ≠ '\x00' := by
              rintro rfl
              exact absurd (h.symm.trans ofChars?_cons_null) (by simp)
            intro b hb
            rw [List.flatMap_cons,
              List.head?_append_of_ne_nil _ (String.utf8EncodeChar_ne_nil)] at hb
            exact head?_utf8EncodeChar hd b hb
  have hdecoded : Text.Charset.decode .utf8 (Text.Utf8.encode s) = s.toList.map some := by
    simp only [Text.Charset.decode, Text.Charset.start, Text.Charset.scan_utf8,
      Text.Utf8.scan_encode, Text.Charset.State.finish, Text.Utf8.finish, List.append_nil]
  have hall (cs : List Char) : Text.allDecoded? (cs.map some) = some cs := by
    induction cs with
    | nil => rfl
    | cons c cs ih =>
        rw [Text.allDecoded?] at ih ⊢
        rw [List.map_cons, List.mapM_cons, ih]
        rfl
  rw [readBytes?, hcharset, hdecoded, hall]
  exact h

end ChatClient.Json
