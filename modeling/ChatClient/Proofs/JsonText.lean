import ChatClient.Json.Bytes
import ChatClient.Message
import ChatClient.Proofs.Numerals

/-!
# A value is read from its text

The compact text of a value reads as the value, numbers as well as strings, if each name stands
once in every object of it and no whole number in it has more digits than are read. A value that
was read is such a one, since a later entry replaces an earlier one of the same name. So values that
come from a body can be written and read without loss, and a tool call whose arguments are written
has the same arguments when they are read.
-/

namespace ChatClient.Json

/-! ## Strings -/

/-- A control character in the form of four hexadecimal digits is read back. -/
theorem hex4?_hexDigits {n : ℕ} (hn : n < 0x20) (rest : List Char) :
    hex4? (Text.hexDigits 4 n ++ rest) = some n := by
  interval_cases n <;> rfl

theorem escape?_control {c : Char} (hc : c.toNat < 0x20) (cs : List Char) :
    escape? ('u' :: (Text.hexDigits 4 c.toNat ++ cs)) = some (c, 5) := by
  have hsurrogate : ¬(0xD800 ≤ c.toNat ∧ c.toNat < 0xE000) := by omega
  show (hex4? (Text.hexDigits 4 c.toNat ++ cs)).map _ = _
  rw [hex4?_hexDigits hc, Option.map_some, if_neg hsurrogate, Char.ofNat_toNat]

/-- What is written for a character is read back as the character. -/
theorem stringRest_escapeChar (c : Char) (cs : List Char) :
    stringRest 0 (escapeChar c ++ cs) = (stringRest 0 cs).map fun (s, rest) => (c :: s, rest) := by
  unfold escapeChar
  split_ifs with h1 h2 h3 h4 h5 h6 h7
  · rcases h1 with rfl | rfl <;> rfl
  · subst h2; rfl
  · subst h3; rfl
  · subst h4; rfl
  · subst h5; rfl
  · subst h6; rfl
  · have hescape := escape?_control h7 cs
    simp only [List.cons_append, stringRest, hescape]
    rfl
  · obtain ⟨hquote, hslash⟩ := not_or.mp h1
    simp only [List.singleton_append, stringRest, if_neg hquote, if_neg hslash, if_neg h7]

/-- A string that was written is read back. -/
theorem stringRest_writeText (s : List Char) (rest : List Char) :
    stringRest 0 (s.flatMap escapeChar ++ '"' :: rest) = some (s, rest) := by
  induction s with
  | nil => rfl
  | cons c s ih =>
      rw [List.flatMap_cons, List.append_assoc, stringRest_escapeChar, ih]
      rfl

/-! ## Values -/

mutual

/-- A value that can be read: in every object within it each name stands once, and no whole
number within it has too many digits. -/
def Readable : Json → Prop
  | int n => (Nat.toDigits 10 n.natAbs).length ≤ Decimal.maxDigits
  | list items => ReadableItems items
  | object entries => (entries.map (·.1)).Nodup ∧ ReadableEntries entries
  | _ => True

def ReadableItems : List Json → Prop
  | [] => True
  | v :: vs => Readable v ∧ ReadableItems vs

def ReadableEntries : List (String × Json) → Prop
  | [] => True
  | (_, v) :: es => Readable v ∧ ReadableEntries es

end

/-! ## What the reader makes of pieces -/

theorem skipSpace_cons {c : Char} (hc : isSpace c = false) (cs : List Char) :
    skipSpace (c :: cs) = c :: cs :=
  List.dropWhile_cons_of_neg (by rw [hc]; decide)

/-- Nothing but a numeral or a word starts a scalar. -/
theorem scalar?_eq_none {c : Char} (hc : c ∈ ['"', '[', '\x7b', ']', ' ', '\n', '\t', '\r'])
    (cs : List Char) : scalar? (c :: cs) = none := by
  simp only [List.mem_cons, List.not_mem_nil, or_false] at hc
  rcases hc with rfl | rfl | rfl | rfl | rfl | rfl | rfl | rfl <;> rfl

theorem value?_of_scalar? {fuel : ℕ} {cs : List Char} {r : Json × List Char}
    (h : scalar? cs = some r) : value? (fuel + 1) cs = some r := by
  unfold value?
  split
  · next heq => exact absurd heq (Nat.succ_ne_zero _)
  · exact absurd (h.symm.trans (scalar?_eq_none (by decide) _)) (by simp)
  · exact absurd (h.symm.trans (scalar?_eq_none (by decide) _)) (by simp)
  · exact absurd (h.symm.trans (scalar?_eq_none (by decide) _)) (by simp)
  · exact h

/-- A text that starts with a value starts with no blank and no closing bracket. -/
theorem starts_of_value? {fuel : ℕ} {cs : List Char} {r : Json × List Char}
    (h : value? fuel cs = some r) : skipSpace cs = cs ∧ cs.head? ≠ some ']' := by
  cases fuel with
  | zero => exact absurd h (by simp [value?])
  | succ fuel =>
      cases cs with
      | nil => exact ⟨rfl, by simp⟩
      | cons c cs =>
          have hc : c ∉ [']', ' ', '\n', '\t', '\r'] := by
            intro hc
            have hnone : value? (fuel + 1) (c :: cs) = none := by
              simp only [List.mem_cons, List.not_mem_nil, or_false] at hc
              rcases hc with rfl | rfl | rfl | rfl | rfl <;> rfl
            exact absurd (h.symm.trans hnone) (by simp)
          simp only [List.mem_cons, List.not_mem_nil, or_false, not_or] at hc
          refine ⟨skipSpace_cons ?_ cs, ?_⟩
          · simp [isSpace, hc]
          · simp [hc]

theorem starts_of_items? {fuel : ℕ} {cs : List Char} {r : List Json × List Char}
    (h : items? fuel cs = some r) : skipSpace cs = cs ∧ cs.head? ≠ some ']' := by
  cases fuel with
  | zero => exact absurd h (by simp [items?])
  | succ fuel =>
      unfold items? at h
      split at h
      · exact absurd h (by simp)
      · next hv => exact starts_of_value? hv

theorem starts_of_members? {fuel : ℕ} {cs : List Char} {r : List (String × Json) × List Char}
    (h : members? fuel cs = some r) : cs.head? = some '"' := by
  unfold members? at h
  split at h
  · exact absurd h (by simp)
  · rfl
  · exact absurd h (by simp)

theorem skipSpace_of_members? {fuel : ℕ} {cs : List Char} {r : List (String × Json) × List Char}
    (h : members? fuel cs = some r) : skipSpace cs = cs := by
  have hhead := starts_of_members? h
  cases cs with
  | nil => rfl
  | cons c cs =>
      obtain rfl := Option.some.inj hhead
      exact skipSpace_cons rfl cs

/-- A list that is not empty. -/
theorem value?_list {fuel : ℕ} {cs rest : List Char} {vs : List Json}
    (h : items? fuel cs = some (vs, rest)) : value? (fuel + 1) ('[' :: cs) = some (.list vs, rest) := by
  obtain ⟨hskip, hhead⟩ := starts_of_items? h
  simp only [value?, hskip]
  split
  · exact absurd rfl hhead
  · rw [h]; rfl

theorem value?_object {fuel : ℕ} {cs rest : List Char} {es : List (String × Json)}
    (h : members? fuel cs = some (es, rest)) :
    value? (fuel + 1) ('\x7b' :: cs) = some (.object (Entries.ofList es), rest) := by
  have hhead := starts_of_members? h
  have hskip := skipSpace_of_members? h
  simp only [value?, hskip]
  split
  · exact absurd hhead (by simp)
  · rw [h]; rfl

theorem items?_last {fuel : ℕ} {cs rest : List Char} {v : Json}
    (h : value? fuel cs = some (v, ']' :: rest)) : items? (fuel + 1) cs = some ([v], rest) := by
  simp only [items?, h]
  rfl

theorem items?_more {fuel : ℕ} {cs cs' rest : List Char} {v : Json} {vs : List Json}
    (h : value? fuel cs = some (v, ',' :: cs')) (h' : items? fuel cs' = some (vs, rest)) :
    items? (fuel + 1) cs = some (v :: vs, rest) := by
  have hskip := (starts_of_items? h').1
  simp only [items?, h]
  show (items? fuel (skipSpace cs')).map _ = _
  rw [hskip, h']
  rfl

theorem writeText_append (s : String) (rest : List Char) :
    writeText s ++ rest = '"' :: (s.toList.flatMap escapeChar ++ '"' :: rest) := by
  rw [writeText, List.append_assoc]
  rfl

/-- A text is read back, whatever stands behind it. -/
theorem value?_text (fuel : ℕ) (s : String) (rest : List Char) :
    value? (fuel + 1) (writeText s ++ rest) = some (.text s, rest) := by
  rw [writeText_append, value?, stringRest_writeText]
  simp only [Option.map_some, String.ofList_toList]

theorem members?_last {fuel : ℕ} {cs rest : List Char} {k : String} {v : Json}
    (h : value? fuel cs = some (v, '\x7d' :: rest)) :
    members? (fuel + 1) (writeText k ++ ':' :: cs) = some ([(k, v)], rest) := by
  have hskip := (starts_of_value? h).1
  have hcolon : skipSpace (':' :: cs) = ':' :: cs := rfl
  have hbrace : skipSpace ('\x7d' :: rest) = '\x7d' :: rest := rfl
  rw [writeText_append]
  simp only [members?, stringRest_writeText, hcolon, hskip, h, hbrace, String.ofList_toList]

theorem members?_more {fuel : ℕ} {cs cs' rest : List Char} {k : String} {v : Json}
    {es : List (String × Json)} (h : value? fuel cs = some (v, ',' :: cs'))
    (h' : members? fuel cs' = some (es, rest)) :
    members? (fuel + 1) (writeText k ++ ':' :: cs) = some ((k, v) :: es, rest) := by
  have hskip := (starts_of_value? h).1
  have hskip' := skipSpace_of_members? h'
  have hcolon : skipSpace (':' :: cs) = ':' :: cs := rfl
  have hcomma : skipSpace (',' :: cs') = ',' :: cs' := rfl
  rw [writeText_append]
  simp only [members?, stringRest_writeText, hcolon, hskip, h, hcomma, hskip', h',
    String.ofList_toList, Option.map_some]

/-! ## Names that stand once -/

theorem put_of_notMem {entries : Entries} {name : String} (v : Json)
    (h : name ∉ entries.map (·.1)) : Entries.put entries name v = entries ++ [(name, v)] := by
  induction entries with
  | nil => rfl
  | cons e rest ih =>
      obtain ⟨k, w⟩ := e
      rw [List.map_cons, List.mem_cons, not_or] at h
      rw [Entries.put, if_neg (Ne.symm h.1), ih h.2, List.cons_append]

/-- Entries whose names stand once are kept as they are. -/
theorem ofList_of_nodup {es : List (String × Json)} (h : (es.map (·.1)).Nodup) :
    Entries.ofList es = es := by
  -- the induction is on what is still to be put, behind what has been put already
  have key (es : List (String × Json)) : ∀ acc : Entries, ((acc ++ es).map (·.1)).Nodup →
      es.foldl (fun entries e => Entries.put entries e.1 e.2) acc = acc ++ es := by
    induction es with
    | nil => intro acc _; exact (List.append_nil acc).symm
    | cons e es ih =>
        intro acc hacc
        obtain ⟨k, v⟩ := e
        have hk : k ∉ acc.map (·.1) := by
          rw [List.map_append, List.nodup_append] at hacc
          exact fun hmem => hacc.2.2 k hmem k List.mem_cons_self rfl
        rw [List.append_cons] at hacc
        show es.foldl _ (Entries.put acc k v) = _
        rw [put_of_notMem v hk, ih _ hacc, List.append_assoc]
        rfl
  exact key es [] h

/-! ## Values -/

/-- What stands behind a value within a list or an object ends a numeral. -/
theorem endsNumeral_cons {c : Char} (hc : c ∈ [',', ']', '\x7d']) (cs : List Char) :
    EndsNumeral (c :: cs) := by
  rintro d ⟨⟩
  simp only [List.mem_cons, List.not_mem_nil, or_false] at hc
  rcases hc with rfl | rfl | rfl <;> decide

mutual

/-- A value that was written is read back, if the steps are enough for its text. -/
theorem value?_write : ∀ (v : Json), v.Readable → ∀ {rest : List Char}, EndsNumeral rest →
    ∀ {fuel : ℕ}, 2 * (write v).length ≤ fuel →
    value? (fuel + 1) (write v ++ rest) = some (v, rest)
  | .null, _, _, _, _, _ => rfl
  | .bool true, _, _, _, _, _ => rfl
  | .bool false, _, _, _, _, _ => rfl
  | .int _, hv, _, hrest, _, _ => value?_of_scalar? (scalar?_wholeText hv hrest)
  | .float x, _, _, hrest, _, _ => value?_of_scalar? (scalar?_text x hrest)
  | .text s, _, rest, _, fuel, _ => value?_text fuel s rest
  | .list [], _, _, _, _, _ => rfl
  | .list (v :: vs), hv, rest, _, fuel, hfuel => by
      -- the bracket brings two steps, of which the list takes one
      rw [write, List.length_cons] at hfuel
      obtain ⟨fuel, rfl⟩ : ∃ f, fuel = f + 1 := ⟨fuel - 1, by omega⟩
      exact value?_list (items?_write (v :: vs) (List.cons_ne_nil v vs) hv rest (by omega))
  | .object [], _, _, _, _, _ => rfl
  | .object ((k, v) :: es), hv, rest, _, fuel, hfuel => by
      rw [write, List.length_cons] at hfuel
      obtain ⟨fuel, rfl⟩ : ∃ f, fuel = f + 1 := ⟨fuel - 1, by omega⟩
      have h := value?_object (members?_write ((k, v) :: es) (List.cons_ne_nil _ es) hv.2 rest
        (show _ ≤ fuel by omega))
      -- the entries were put one by one, and none has replaced another
      rwa [ofList_of_nodup hv.1] at h

theorem items?_write : ∀ (vs : List Json), vs ≠ [] → ReadableItems vs →
    ∀ (rest : List Char) {fuel : ℕ}, 2 * (writeItems vs).length ≤ fuel →
    items? (fuel + 1) (writeItems vs ++ rest) = some (vs, rest)
  | [], hne, _, _, _, _ => absurd rfl hne
  | [v], _, hvs, rest, fuel, hfuel => by
      rw [writeItems, List.length_append, List.length_singleton] at hfuel
      obtain ⟨fuel, rfl⟩ : ∃ f, fuel = f + 1 := ⟨fuel - 1, by omega⟩
      rw [writeItems, List.append_assoc]
      exact items?_last (value?_write v hvs.1 (endsNumeral_cons (by decide) rest) (by omega))
  | v :: w :: vs, _, hvs, rest, fuel, hfuel => by
      rw [writeItems, List.length_append, List.length_cons] at hfuel
      obtain ⟨fuel, rfl⟩ : ∃ f, fuel = f + 1 := ⟨fuel - 1, by omega⟩
      rw [writeItems, List.append_assoc]
      exact items?_more (value?_write v hvs.1 (endsNumeral_cons (by decide) _) (by omega))
        (items?_write (w :: vs) (List.cons_ne_nil w vs) hvs.2 rest (by omega))

theorem members?_write : ∀ (es : List (String × Json)), es ≠ [] → ReadableEntries es →
    ∀ (rest : List Char) {fuel : ℕ}, 2 * (writeEntries es).length ≤ fuel →
    members? (fuel + 1) (writeEntries es ++ rest) = some (es, rest)
  | [], hne, _, _, _, _ => absurd rfl hne
  | [(k, v)], _, hes, rest, fuel, hfuel => by
      simp only [writeEntries, List.length_append, List.length_cons, List.length_nil] at hfuel
      obtain ⟨fuel, rfl⟩ : ∃ f, fuel = f + 1 := ⟨fuel - 1, by omega⟩
      simp only [writeEntries, List.append_assoc, List.cons_append]
      exact members?_last (value?_write v hes.1 (endsNumeral_cons (by decide) rest) (by omega))
  | (k, v) :: e :: es, _, hes, rest, fuel, hfuel => by
      simp only [writeEntries, List.length_append, List.length_cons] at hfuel
      obtain ⟨fuel, rfl⟩ : ∃ f, fuel = f + 1 := ⟨fuel - 1, by omega⟩
      simp only [writeEntries, List.append_assoc, List.cons_append]
      exact members?_more (value?_write v hes.1 (endsNumeral_cons (by decide) _) (by omega))
        (members?_write (e :: es) (List.cons_ne_nil e es) hes.2 rest (by omega))

end

/-- The compact text of a value reads as the value. -/
theorem read?_compact {v : Json} (hv : v.Readable) : read? (compact v) = some v := by
  have hread : value? (2 * (write v).length + 2) (write v) = some (v, []) := by
    have hends : EndsNumeral [] := fun c hc => absurd hc (by simp)
    have h := value?_write v hv hends (Nat.le_succ (2 * (write v).length))
    rwa [List.append_nil] at h
  rw [read?, compact, String.toList_ofList, ofChars?, (starts_of_value? hread).1, hread]
  rfl

/-! ## What was read can be read again -/

theorem readableEntries_iff {es : List (String × Json)} :
    ReadableEntries es ↔ ∀ e ∈ es, e.2.Readable := by
  induction es with
  | nil => simp [ReadableEntries]
  | cons e es ih => rw [ReadableEntries, ih, List.forall_mem_cons]

theorem map_fst_put (entries : Entries) (name : String) (v : Json) :
    (Entries.put entries name v).map (·.1) =
      if name ∈ entries.map (·.1) then entries.map (·.1) else entries.map (·.1) ++ [name] := by
  induction entries with
  | nil => rfl
  | cons e rest ih =>
      obtain ⟨k, w⟩ := e
      by_cases h : k = name
      · simp [Entries.put, h]
      · rw [Entries.put, if_neg h, List.map_cons, ih]
        simp only [List.map_cons, List.mem_cons, Ne.symm h, false_or]
        split_ifs <;> rfl

theorem mem_put {entries : Entries} {name : String} {v : Json} {e : String × Json}
    (h : e ∈ Entries.put entries name v) : e ∈ entries ∨ e = (name, v) := by
  induction entries with
  | nil => exact .inr (List.mem_singleton.mp h)
  | cons f rest ih =>
      obtain ⟨k, w⟩ := f
      by_cases hk : k = name
      · rw [Entries.put, if_pos hk, List.mem_cons] at h
        rcases h with h | h
        · exact .inr (h.trans (by rw [hk]))
        · exact .inl (List.mem_cons_of_mem _ h)
      · rw [Entries.put, if_neg hk, List.mem_cons] at h
        rcases h with h | h
        · exact .inl (h ▸ List.mem_cons_self)
        · exact (ih h).imp_left (List.mem_cons_of_mem _)

/-- Putting entries one after the other makes an object whose names stand once. -/
theorem readable_ofList {es : List (String × Json)} (h : ReadableEntries es) :
    (object (Entries.ofList es)).Readable := by
  have key (es : List (String × Json)) (hes : ∀ e ∈ es, e.2.Readable) : ∀ acc : Entries,
      (object acc).Readable →
      (object (es.foldl (fun entries e => Entries.put entries e.1 e.2) acc)).Readable := by
    induction es with
    | nil => exact fun acc hacc => hacc
    | cons e es ih =>
        intro acc hacc
        obtain ⟨k, v⟩ := e
        refine ih (fun e he => hes e (List.mem_cons_of_mem _ he)) _ ⟨?_, ?_⟩
        · -- an entry under a known name replaces the one there, in its place
          rw [map_fst_put]
          split_ifs with hk
          · exact hacc.1
          · exact List.Nodup.append hacc.1 (List.nodup_singleton k) (by simpa using hk)
        · rw [readableEntries_iff]
          intro e he
          rcases mem_put he with he | rfl
          · exact readableEntries_iff.mp hacc.2 e he
          · exact hes (k, v) List.mem_cons_self
  exact key es (readableEntries_iff.mp h) [] ⟨List.nodup_nil, trivial⟩

/-- A value without texts and without parts. -/
def IsAtom : Json → Prop
  | text _ | list _ | object _ => False
  | _ => True

/-- A whole number that is read from digits has no more digits than those. -/
theorem readable_of_ofDigits? {negative : Bool} {ds : List Char} {v : Json}
    (hds : Text.AreDigits ds) (hne : ds ≠ []) (h : ofDigits? negative ds = some v) :
    v.IsAtom ∧ v.Readable := by
  by_cases hlength : ds.length ≤ Decimal.maxDigits
  · rw [ofDigits?, if_pos hlength] at h
    obtain rfl := Option.some.inj h
    have hshort := (Text.length_toDigits_ofDigits hds hne).trans hlength
    refine ⟨trivial, ?_⟩
    rw [Readable]
    cases negative
    · exact hshort
    · rwa [if_pos rfl, Int.natAbs_neg, Int.natAbs_natCast]
  · rw [ofDigits?, if_neg hlength] at h
    exact absurd h (by simp)

theorem readable_of_unsigned? {negative : Bool} {cs rest : List Char} {v : Json}
    (h : unsigned? negative cs = some (v, rest)) : v.IsAtom ∧ v.Readable := by
  obtain ⟨⟨ds, tail⟩, hwhole, h⟩ := Option.bind_eq_some_iff.mp h
  obtain ⟨hds, hne⟩ := areDigits_of_whole? hwhole
  dsimp only at h
  split_ifs at h
  · obtain ⟨w, hw, h⟩ := Option.map_eq_some_iff.mp h
    obtain ⟨rfl, -⟩ := Prod.mk.inj h
    exact readable_of_ofDigits? hds hne hw
  · obtain ⟨rfl, -⟩ := Prod.mk.inj (Option.some.inj h)
    exact ⟨trivial, trivial⟩

theorem readable_of_scalar? {cs rest : List Char} {v : Json} (h : scalar? cs = some (v, rest)) :
    v.IsAtom ∧ v.Readable := by
  unfold scalar? at h
  split at h
  case h_5 | h_6 =>
    obtain ⟨r, -, hr⟩ := Option.map_eq_some_iff.mp h
    obtain ⟨rfl, -⟩ := Prod.mk.inj hr
    exact ⟨trivial, trivial⟩
  case h_7 | h_8 => exact readable_of_unsigned? h
  all_goals
    obtain ⟨rfl, -⟩ := Prod.mk.inj (Option.some.inj h)
    exact ⟨trivial, trivial⟩

theorem isAtom_of_scalar? {cs rest : List Char} {v : Json} (h : scalar? cs = some (v, rest)) :
    v.IsAtom := (readable_of_scalar? h).1

mutual

theorem readable_of_value? : ∀ (fuel : ℕ) {cs rest : List Char} {v : Json},
    value? fuel cs = some (v, rest) → v.Readable
  | 0, _, _, _, h => absurd h (by simp [value?])
  | fuel + 1, cs, rest, v, h => by
      unfold value? at h
      split at h
      · next heq => exact absurd heq (Nat.succ_ne_zero _)
      · obtain ⟨r, -, hr⟩ := Option.map_eq_some_iff.mp h
        obtain ⟨rfl, -⟩ := Prod.mk.inj hr
        trivial
      · next heq =>
        obtain rfl := Nat.succ.inj heq
        split at h
        · obtain ⟨rfl, -⟩ := Prod.mk.inj (Option.some.inj h)
          trivial
        · obtain ⟨r, hitems, hr⟩ := Option.map_eq_some_iff.mp h
          obtain ⟨rfl, -⟩ := Prod.mk.inj hr
          exact readable_of_items? _ hitems
      · next heq =>
        obtain rfl := Nat.succ.inj heq
        split at h
        · obtain ⟨rfl, -⟩ := Prod.mk.inj (Option.some.inj h)
          exact ⟨List.nodup_nil, trivial⟩
        · obtain ⟨r, hmembers, hr⟩ := Option.map_eq_some_iff.mp h
          obtain ⟨rfl, -⟩ := Prod.mk.inj hr
          exact readable_ofList (readable_of_members? _ hmembers)
      · exact (readable_of_scalar? h).2

theorem readable_of_items? : ∀ (fuel : ℕ) {cs rest : List Char} {vs : List Json},
    items? fuel cs = some (vs, rest) → ReadableItems vs
  | 0, _, _, _, h => absurd h (by simp [items?])
  | fuel + 1, cs, rest, vs, h => by
      unfold items? at h
      split at h
      · exact absurd h (by simp)
      · next v rest' hv =>
        have hreadable := readable_of_value? fuel hv
        split at h
        · obtain ⟨rfl, -⟩ := Prod.mk.inj (Option.some.inj h)
          exact ⟨hreadable, trivial⟩
        · obtain ⟨r, hitems, hr⟩ := Option.map_eq_some_iff.mp h
          obtain ⟨rfl, -⟩ := Prod.mk.inj hr
          exact ⟨hreadable, readable_of_items? fuel hitems⟩
        · exact absurd h (by simp)

theorem readable_of_members? : ∀ (fuel : ℕ) {cs rest : List Char} {es : List (String × Json)},
    members? fuel cs = some (es, rest) → ReadableEntries es
  | 0, _, _, _, h => absurd h (by simp [members?])
  | fuel + 1, cs, rest, es, h => by
      unfold members? at h
      split at h
      · next heq => exact absurd heq (Nat.succ_ne_zero _)
      · next heq =>
        obtain rfl := Nat.succ.inj heq
        split at h
        · exact absurd h (by simp)
        · split at h
          · split at h
            · exact absurd h (by simp)
            · next v rest' hv =>
              have hreadable := readable_of_value? _ hv
              split at h
              · obtain ⟨rfl, -⟩ := Prod.mk.inj (Option.some.inj h)
                exact ⟨hreadable, trivial⟩
              · obtain ⟨r, hmembers, hr⟩ := Option.map_eq_some_iff.mp h
                obtain ⟨rfl, -⟩ := Prod.mk.inj hr
                exact ⟨hreadable, readable_of_members? _ hmembers⟩
              · exact absurd h (by simp)
          · exact absurd h (by simp)
      · exact absurd h (by simp)

end

/-- What was read can be read from a text of its own. -/
theorem readable_of_ofChars? {cs : List Char} {v : Json} (h : ofChars? cs = some v) :
    v.Readable := by
  unfold ofChars? at h
  split at h
  · next w rest hread =>
    split_ifs at h
    obtain rfl := Option.some.inj h
    exact readable_of_value? _ hread
  · exact absurd h (by simp)

theorem readable_of_readBytes? {bs : List UInt8} {v : Json} (h : readBytes? bs = some v) :
    v.Readable := by
  obtain ⟨cs, -, hcs⟩ := Option.bind_eq_some_iff.mp h
  exact readable_of_ofChars? hcs

theorem Readable.field? {v w : Json} {name : String} (h : v.Readable)
    (hw : v.field? name = some w) : w.Readable := by
  cases v with
  | object entries =>
      obtain ⟨e, he, rfl⟩ := Option.map_eq_some_iff.mp hw
      exact readableEntries_iff.mp h.2 e (List.mem_of_find?_eq_some he)
  | _ => exact absurd hw (by simp [Json.field?])

end ChatClient.Json

namespace ChatClient

/-! ## Arguments of tool calls -/

/-- What reads as a value is not empty, and so stands for itself. -/
theorem loadArguments?_of_read? {s : String} {v : Json} (h : Json.read? s = some v) :
    loadArguments? s = some v := by
  have hgiven : s ≠ "" := by
    rintro rfl
    exact absurd h (by simp [show Json.read? "" = none from rfl])
  rw [loadArguments?_of_ne hgiven, h]

/-- A value that arguments are loaded as can be read again. -/
theorem readable_of_loadArguments? {s : String} {v : Json} (h : loadArguments? s = some v) :
    v.Readable := by
  unfold loadArguments? at h
  split_ifs at h
  · obtain rfl := Option.some.inj h
    exact ⟨List.nodup_nil, trivial⟩
  · exact Json.readable_of_ofChars? h

end ChatClient
