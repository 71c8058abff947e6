import ChatClient.Json.Nesting
import ChatClient.Proofs.JsonText

/-!
# How deep a text is nested

The depth of a value is how many brackets are open within each other in a text of it. A text that
does not overrun a reader's room writes no value that is deeper than the room. The converse holds
for the compact text of a value. It does not hold for every text, since an entry that is replaced by
a later one leaves no trace in the value.
-/

namespace ChatClient.Json

variable {fuel room : ℕ}

mutual

/-- How many brackets are open within each other in the compact text of a value. -/
def depth : Json → ℕ
  | list items => itemsDepth items + 1
  | object entries => entriesDepth entries + 1
  | _ => 0

def itemsDepth : List Json → ℕ
  | [] => 0
  | v :: vs => max (depth v) (itemsDepth vs)

def entriesDepth : List (String × Json) → ℕ
  | [] => 0
  | (_, v) :: es => max (depth v) (entriesDepth es)

end

theorem IsAtom.depth {v : Json} (h : v.IsAtom) : v.depth = 0 := by
  cases v with
  | text s => exact absurd h id
  | list items => exact absurd h id
  | object entries => exact absurd h id
  | _ => rfl

theorem entriesDepth_le {es : List (String × Json)} {n : ℕ} :
    entriesDepth es ≤ n ↔ ∀ e ∈ es, e.2.depth ≤ n := by
  induction es with
  | nil => simp [entriesDepth]
  | cons e es ih => rw [entriesDepth, max_le_iff, ih, List.forall_mem_cons]

/-- An object has no entries but those that were put into it. -/
theorem mem_of_mem_ofList {es : List (String × Json)} {e : String × Json}
    (h : e ∈ Entries.ofList es) : e ∈ es := by
  have key (es : List (String × Json)) : ∀ acc : Entries,
      e ∈ es.foldl (fun entries e => Entries.put entries e.1 e.2) acc → e ∈ acc ∨ e ∈ es := by
    induction es with
    | nil => exact fun acc h => .inl h
    | cons f es ih =>
        intro acc h
        rcases ih _ h with h | h
        · rcases mem_put h with h | rfl
          · exact .inl h
          · exact .inr List.mem_cons_self
        · exact .inr (List.mem_cons_of_mem _ h)
  exact (key es [] h).resolve_left List.not_mem_nil

/-! ## What is read is no deeper than the room -/

mutual

theorem depth_le_of_value? : ∀ (fuel : ℕ) {room : ℕ} {cs rest : List Char} {v : Json},
    valueOverruns fuel room cs = false → value? fuel cs = some (v, rest) → v.depth ≤ room
  | 0, _, _, _, _, _, h => absurd h (by simp [value?])
  | fuel + 1, room, cs, rest, v, hroom, h => by
      -- the cases of the reader: no step left, a string, a list, an object, a scalar
      unfold value? at h
      split at h
      · next heq => exact absurd heq (Nat.succ_ne_zero _)
      · obtain ⟨r, -, hr⟩ := Option.map_eq_some_iff.mp h
        obtain ⟨rfl, -⟩ := Prod.mk.inj hr
        exact Nat.zero_le room
      · next heq =>
        obtain rfl := Nat.succ.inj heq
        -- the bracket takes one from the room
        cases room with
        | zero => exact absurd hroom (by simp [valueOverruns])
        | succ room =>
            split at h
            · obtain ⟨rfl, -⟩ := Prod.mk.inj (Option.some.inj h)
              exact Nat.succ_le_succ (Nat.zero_le room)
            · next hopen =>
              obtain ⟨r, hitems, hr⟩ := Option.map_eq_some_iff.mp h
              obtain ⟨rfl, -⟩ := Prod.mk.inj hr
              simp only [valueOverruns] at hroom
              exact Nat.succ_le_succ (depth_le_of_items? _ hroom hitems)
      · next heq =>
        obtain rfl := Nat.succ.inj heq
        cases room with
        | zero => exact absurd hroom (by simp [valueOverruns])
        | succ room =>
            split at h
            · obtain ⟨rfl, -⟩ := Prod.mk.inj (Option.some.inj h)
              exact Nat.succ_le_succ (Nat.zero_le room)
            · next hopen =>
              obtain ⟨r, hmembers, hr⟩ := Option.map_eq_some_iff.mp h
              obtain ⟨rfl, -⟩ := Prod.mk.inj hr
              simp only [valueOverruns] at hroom
              have hentries := entriesDepth_le.mp (depth_le_of_members? _ hroom hmembers)
              exact Nat.succ_le_succ
                (entriesDepth_le.mpr fun e he => hentries e (mem_of_mem_ofList he))
      · rw [(isAtom_of_scalar? h).depth]
        exact Nat.zero_le room

theorem depth_le_of_items? : ∀ (fuel : ℕ) {room : ℕ} {cs rest : List Char} {vs : List Json},
    itemsOverrun fuel room cs = false → items? fuel cs = some (vs, rest) → itemsDepth vs ≤ room
  | 0, _, _, _, _, _, h => absurd h (by simp [items?])
  | fuel + 1, room, cs, rest, vs, hroom, h => by
      unfold items? at h
      -- what stands behind the first value was looked at only because that value was read
      rw [itemsOverrun, Bool.or_eq_false_iff] at hroom
      obtain ⟨hfirst, hmore⟩ := hroom
      split at h
      · exact absurd h (by simp)
      · next v rest' hv =>
        have hdepth := depth_le_of_value? fuel hfirst hv
        rw [hv] at hmore
        split at h
        · obtain ⟨rfl, -⟩ := Prod.mk.inj (Option.some.inj h)
          exact max_le hdepth (Nat.zero_le room)
        · next hcomma =>
          obtain ⟨r, hitems, hr⟩ := Option.map_eq_some_iff.mp h
          obtain ⟨rfl, -⟩ := Prod.mk.inj hr
          simp only [hcomma] at hmore
          exact max_le hdepth (depth_le_of_items? fuel hmore hitems)
        · exact absurd h (by simp)

theorem depth_le_of_members? : ∀ (fuel : ℕ) {room : ℕ} {cs rest : List Char}
    {es : List (String × Json)}, membersOverrun fuel room cs = false →
    members? fuel cs = some (es, rest) → entriesDepth es ≤ room
  | 0, _, _, _, _, _, h => absurd h (by simp [members?])
  | fuel + 1, room, cs, rest, es, hroom, h => by
      unfold members? at h
      split at h
      · next heq => exact absurd heq (Nat.succ_ne_zero _)
      · next heq =>
        obtain rfl := Nat.succ.inj heq
        split at h
        · exact absurd h (by simp)
        · next k rest' hname =>
          split at h
          · next hcolon =>
            simp only [membersOverrun, hname, hcolon, Bool.or_eq_false_iff] at hroom
            obtain ⟨hfirst, hmore⟩ := hroom
            split at h
            · exact absurd h (by simp)
            · next v rest' hv =>
              have hdepth := depth_le_of_value? _ hfirst hv
              rw [hv] at hmore
              split at h
              · obtain ⟨rfl, -⟩ := Prod.mk.inj (Option.some.inj h)
                exact max_le hdepth (Nat.zero_le room)
              · next hcomma =>
                obtain ⟨r, hmembers, hr⟩ := Option.map_eq_some_iff.mp h
                obtain ⟨rfl, -⟩ := Prod.mk.inj hr
                simp only [hcomma] at hmore
                exact max_le hdepth (depth_le_of_members? _ hmore hmembers)
              · exact absurd h (by simp)
          · exact absurd h (by simp)
      · exact absurd h (by simp)

end

/-- **A text that leaves a reader room writes no value that is deeper than the room.** -/
theorem depth_le_of_read? {s : String} {v : Json} (hroom : overruns room s = false)
    (h : read? s = some v) : v.depth ≤ room := by
  unfold read? ofChars? at h
  split at h
  · next w rest hread =>
    split_ifs at h
    obtain rfl := Option.some.inj h
    exact depth_le_of_value? _ hroom hread
  · exact absurd h (by simp)

/-! ## The compact text of a value -/

theorem valueOverruns_of_head {c : Char} (hlist : c ≠ '[') (hobject : c ≠ '\x7b') (cs : List Char) :
    valueOverruns fuel room (c :: cs) = false := by
  unfold valueOverruns
  split
  · rfl
  · next heq =>
    rw [← (List.cons.inj heq).1]
    simp [hlist, hobject]
  · next heq => exact absurd (List.cons.inj heq).1 hlist
  · next heq => exact absurd (List.cons.inj heq).1 hobject
  · rfl

/-- A scalar opens no bracket. -/
theorem valueOverruns_of_scalar? {cs : List Char} {r : Json × List Char} (h : scalar? cs = some r) :
    valueOverruns fuel room cs = false := by
  cases cs with
  | nil => exact absurd h (by simp [scalar?, unsigned?, whole?])
  | cons c cs =>
      refine valueOverruns_of_head ?_ ?_ cs
      · rintro rfl
        exact absurd (h.symm.trans (scalar?_eq_none (by decide) cs)) (by simp)
      · rintro rfl
        exact absurd (h.symm.trans (scalar?_eq_none (by decide) cs)) (by simp)

section Parts

variable {cs cs' rest : List Char} {v : Json}

theorem valueOverruns_list {r : List Json × List Char} (h : items? fuel cs = some r) :
    valueOverruns (fuel + 1) (room + 1) ('[' :: cs) = itemsOverrun fuel room cs := by
  obtain ⟨hskip, hhead⟩ := starts_of_items? h
  simp only [valueOverruns, hskip]
  split
  · exact absurd rfl hhead
  · rfl

theorem valueOverruns_object {r : List (String × Json) × List Char}
    (h : members? fuel cs = some r) :
    valueOverruns (fuel + 1) (room + 1) ('\x7b' :: cs) = membersOverrun fuel room cs := by
  have hhead := starts_of_members? h
  simp only [valueOverruns, skipSpace_of_members? h]
  split
  · exact absurd hhead (by simp)
  · rfl

theorem itemsOverrun_last (h : value? fuel cs = some (v, ']' :: rest)) :
    itemsOverrun (fuel + 1) room cs = valueOverruns fuel room cs := by
  rw [itemsOverrun, h]
  exact Bool.or_false _

theorem itemsOverrun_more (h : value? fuel cs = some (v, ',' :: cs')) {r : List Json × List Char}
    (h' : items? fuel cs' = some r) :
    itemsOverrun (fuel + 1) room cs =
      (valueOverruns fuel room cs || itemsOverrun fuel room cs') := by
  rw [itemsOverrun, h]
  show (_ || itemsOverrun fuel room (skipSpace cs')) = _
  rw [(starts_of_items? h').1]

theorem membersOverrun_last {k : String} (h : value? fuel cs = some (v, '\x7d' :: rest)) :
    membersOverrun (fuel + 1) room (writeText k ++ ':' :: cs) = valueOverruns fuel room cs := by
  have hskip := (starts_of_value? h).1
  have hcolon : skipSpace (':' :: cs) = ':' :: cs := rfl
  rw [writeText_append]
  simp only [membersOverrun, stringRest_writeText, hcolon, hskip, h]
  exact Bool.or_false _

theorem membersOverrun_more {k : String} (h : value? fuel cs = some (v, ',' :: cs'))
    {r : List (String × Json) × List Char} (h' : members? fuel cs' = some r) :
    membersOverrun (fuel + 1) room (writeText k ++ ':' :: cs) =
      (valueOverruns fuel room cs || membersOverrun fuel room cs') := by
  have hskip := (starts_of_value? h).1
  have hcolon : skipSpace (':' :: cs) = ':' :: cs := rfl
  have hcomma : skipSpace (',' :: cs') = ',' :: cs' := rfl
  rw [writeText_append]
  simp only [membersOverrun, stringRest_writeText, hcolon, hskip, h, hcomma,
    skipSpace_of_members? h']

end Parts

mutual

/-- Where there is room for a value its text does not overrun it. The steps are those that reading
the text takes. -/
theorem valueOverruns_write : ∀ (v : Json), v.Readable → ∀ {room : ℕ}, v.depth ≤ room →
    ∀ {rest : List Char}, EndsNumeral rest → ∀ {fuel : ℕ}, 2 * (write v).length ≤ fuel →
    valueOverruns (fuel + 1) room (write v ++ rest) = false
  | .null, _, _, _, _, _, _, _ => valueOverruns_of_head (by decide) (by decide) _
  | .bool true, _, _, _, _, _, _, _ => valueOverruns_of_head (by decide) (by decide) _
  | .bool false, _, _, _, _, _, _, _ => valueOverruns_of_head (by decide) (by decide) _
  | .int _, hv, _, _, _, hrest, _, _ => valueOverruns_of_scalar? (scalar?_wholeText hv hrest)
  | .float x, _, _, _, _, hrest, _, _ => valueOverruns_of_scalar? (scalar?_text x hrest)
  | .text s, _, _, _, rest, _, _, _ => by
      rw [write, writeText_append]
      exact valueOverruns_of_head (by decide) (by decide) _
  | .list [], _, room, hroom, _, _, _, _ => by
      obtain ⟨room, rfl⟩ : ∃ n, room = n + 1 := ⟨room - 1, by simp only [depth] at hroom; omega⟩
      rfl
  | .list (v :: vs), hv, room, hroom, rest, _, fuel, hfuel => by
      -- the bracket takes one step and one from the room, and the items have all others
      obtain ⟨room, rfl⟩ : ∃ n, room = n + 1 := ⟨room - 1, by simp only [depth] at hroom; omega⟩
      rw [write, List.length_cons] at hfuel
      obtain ⟨fuel, rfl⟩ : ∃ f, fuel = f + 1 := ⟨fuel - 1, by omega⟩
      have hitems := items?_write (v :: vs) (List.cons_ne_nil v vs) hv rest
        (show 2 * _ ≤ fuel by omega)
      exact (valueOverruns_list hitems).trans
        (itemsOverrun_write (v :: vs) (List.cons_ne_nil v vs) hv (Nat.le_of_succ_le_succ hroom)
          rest (by omega))
  | .object [], _, room, hroom, _, _, _, _ => by
      obtain ⟨room, rfl⟩ : ∃ n, room = n + 1 := ⟨room - 1, by simp only [depth] at hroom; omega⟩
      rfl
  | .object ((k, v) :: es), hv, room, hroom, rest, _, fuel, hfuel => by
      obtain ⟨room, rfl⟩ : ∃ n, room = n + 1 := ⟨room - 1, by simp only [depth] at hroom; omega⟩
      rw [write, List.length_cons] at hfuel
      obtain ⟨fuel, rfl⟩ : ∃ f, fuel = f + 1 := ⟨fuel - 1, by omega⟩
      have hmembers := members?_write ((k, v) :: es) (List.cons_ne_nil _ es) hv.2 rest
        (show 2 * _ ≤ fuel by omega)
      exact (valueOverruns_object hmembers).trans
        (membersOverrun_write ((k, v) :: es) (List.cons_ne_nil _ es) hv.2
          (Nat.le_of_succ_le_succ hroom) rest (by omega))

theorem itemsOverrun_write : ∀ (vs : List Json), vs ≠ [] → ReadableItems vs → ∀ {room : ℕ},
    itemsDepth vs ≤ room → ∀ (rest : List Char) {fuel : ℕ}, 2 * (writeItems vs).length ≤ fuel →
    itemsOverrun (fuel + 1) room (writeItems vs ++ rest) = false
  | [], hne, _, _, _, _, _, _ => absurd rfl hne
  | [v], _, hvs, room, hroom, rest, fuel, hfuel => by
      rw [writeItems, List.length_append, List.length_singleton] at hfuel
      obtain ⟨fuel, rfl⟩ : ∃ f, fuel = f + 1 := ⟨fuel - 1, by omega⟩
      have hends := endsNumeral_cons (c := ']') (by decide) rest
      rw [writeItems, List.append_assoc]
      refine (itemsOverrun_last (value?_write v hvs.1 hends (by omega))).trans ?_
      exact valueOverruns_write v hvs.1 (max_le_iff.mp hroom).1 hends (by omega)
  | v :: w :: vs, _, hvs, room, hroom, rest, fuel, hfuel => by
      rw [writeItems, List.length_append, List.length_cons] at hfuel
      obtain ⟨fuel, rfl⟩ : ∃ f, fuel = f + 1 := ⟨fuel - 1, by omega⟩
      have hends := endsNumeral_cons (c := ',') (by decide) (writeItems (w :: vs) ++ rest)
      have hmore := items?_write (w :: vs) (List.cons_ne_nil w vs) hvs.2 rest
        (show 2 * _ ≤ fuel by omega)
      obtain ⟨hfirst, hothers⟩ := max_le_iff.mp hroom
      rw [writeItems, List.append_assoc]
      refine (itemsOverrun_more (value?_write v hvs.1 hends (by omega)) hmore).trans ?_
      rw [Bool.or_eq_false_iff]
      exact ⟨valueOverruns_write v hvs.1 hfirst hends (by omega),
        itemsOverrun_write (w :: vs) (List.cons_ne_nil w vs) hvs.2 hothers rest (by omega)⟩

theorem membersOverrun_write : ∀ (es : List (String × Json)), es ≠ [] → ReadableEntries es →
    ∀ {room : ℕ}, entriesDepth es ≤ room → ∀ (rest : List Char) {fuel : ℕ},
    2 * (writeEntries es).length ≤ fuel →
    membersOverrun (fuel + 1) room (writeEntries es ++ rest) = false
  | [], hne, _, _, _, _, _, _ => absurd rfl hne
  | [(k, v)], _, hes, room, hroom, rest, fuel, hfuel => by
      simp only [writeEntries, List.length_append, List.length_cons, List.length_nil] at hfuel
      obtain ⟨fuel, rfl⟩ : ∃ f, fuel = f + 1 := ⟨fuel - 1, by omega⟩
      have hends := endsNumeral_cons (c := '\x7d') (by decide) rest
      simp only [writeEntries, List.append_assoc, List.cons_append]
      refine (membersOverrun_last (value?_write v hes.1 hends (by omega))).trans ?_
      exact valueOverruns_write v hes.1 (max_le_iff.mp hroom).1 hends (by omega)
  | (k, v) :: e :: es, _, hes, room, hroom, rest, fuel, hfuel => by
      simp only [writeEntries, List.length_append, List.length_cons] at hfuel
      obtain ⟨fuel, rfl⟩ : ∃ f, fuel = f + 1 := ⟨fuel - 1, by omega⟩
      have hends := endsNumeral_cons (c := ',') (by decide) (writeEntries (e :: es) ++ rest)
      have hmore := members?_write (e :: es) (List.cons_ne_nil e es) hes.2 rest
        (show 2 * _ ≤ fuel by omega)
      obtain ⟨hfirst, hothers⟩ := max_le_iff.mp hroom
      simp only [writeEntries, List.append_assoc, List.cons_append]
      refine (membersOverrun_more (value?_write v hes.1 hends (by omega)) hmore).trans ?_
      rw [Bool.or_eq_false_iff]
      exact ⟨valueOverruns_write v hes.1 hfirst hends (by omega),
        membersOverrun_write (e :: es) (List.cons_ne_nil e es) hes.2 hothers rest (by omega)⟩

end

/-- **The compact text of a value overruns the room just if the value is deeper.** -/
theorem overruns_compact_iff {v : Json} (hv : v.Readable) :
    overruns room v.compact = true ↔ room < v.depth := by
  constructor
  · intro hover
    by_contra hdepth
    have hends : EndsNumeral [] := fun c hc => absurd hc (by simp)
    have hread := value?_write v hv hends (Nat.le_refl (2 * (write v).length))
    have hfits := valueOverruns_write v hv (Nat.le_of_not_lt hdepth) hends
      (Nat.le_succ (2 * (write v).length))
    rw [List.append_nil] at hread hfits
    rw [overruns, compact, String.toList_ofList, (starts_of_value? hread).1, hfits] at hover
    exact absurd hover (by simp)
  · intro hdepth
    by_contra hfits
    have hle := depth_le_of_read? (Bool.eq_false_iff.mpr hfits) (read?_compact hv)
    omega

example : overruns 1 "[[1]]" = true := by decide

/-! ## Brackets and nothing else -/

theorem valueOverruns_brackets (room : ℕ) {n fuel : ℕ} (hn : room < n) (hfuel : 2 * n ≤ fuel) :
    valueOverruns fuel room (List.replicate n '[') = true := by
  induction room generalizing n fuel with
  | zero =>
      obtain ⟨n, rfl⟩ : ∃ k, n = k + 1 := ⟨n - 1, by omega⟩
      obtain ⟨fuel, rfl⟩ : ∃ f, fuel = f + 1 := ⟨fuel - 1, by omega⟩
      rfl
  | succ room ih =>
      -- each bracket takes two steps, into the list and to the value in it
      obtain ⟨n, rfl⟩ : ∃ k, n = k + 2 := ⟨n - 2, by omega⟩
      obtain ⟨fuel, rfl⟩ : ∃ f, fuel = f + 2 := ⟨fuel - 2, by omega⟩
      have hinner : valueOverruns fuel room (List.replicate (n + 1) '[') = true :=
        ih (by omega) (by omega)
      show itemsOverrun (fuel + 1) room (List.replicate (n + 1) '[') = true
      rw [itemsOverrun, hinner, Bool.true_or]

/-- More brackets than there is room for overrun it, though they are no text of a value. -/
theorem overruns_brackets {n : ℕ} (hn : room < n) :
    overruns room (String.ofList (List.replicate n '[')) = true := by
  obtain ⟨k, rfl⟩ : ∃ k, n = k + 1 := ⟨n - 1, by omega⟩
  have hskip : skipSpace (List.replicate (k + 1) '[') = List.replicate (k + 1) '[' :=
    skipSpace_cons rfl _
  rw [overruns, String.toList_ofList, hskip, List.length_replicate]
  exact valueOverruns_brackets room hn (by omega)

-- the second bracket stands behind what is malformed, so it is not opened
example : overruns 1 "[1, 2[" = false := by decide

end ChatClient.Json
