import Mathlib.Data.List.Induction
import ChatClient.Stream.Assembler

/-!
# The order of call fragments

A stream of fragments can be assembled when each of them either opens a call under keys
that no earlier opening used, or goes on with the call opened last. That is a condition on
the fragments alone, with no assembler in it, and so is the list of calls they describe:
one call for each opening, with the arguments of the fragments that name it.

The assembler decides the condition from what it remembers, which is its calls and two
tables. `Assembler.Lawful` says what ties these three together, and is kept by every
fragment, taken or refused.
-/

namespace ChatClient

/-! ## The condition on the fragments -/

/-- A fragment that opens no call and names the call that `g` opened, by its id or, where
it has none, by its index. -/
def CallFragment.continues (f g : CallFragment) : Prop :=
  f.opensCall = false ∧
    match f.callId with
    | some id => g.callId = some id
    | none => f.index.isSome ∧ g.index = f.index

instance (f g : CallFragment) : Decidable (f.continues g) := by
  unfold CallFragment.continues
  cases f.callId <;> exact inferInstance

/-- The fragments that open calls. -/
def openings (fs : List CallFragment) : List CallFragment := fs.filter (·.opensCall)

/-- `f` opens a call under an id that no opening among `before` has, and under no index or
one that no opening among `before` has. -/
structure OpensAnew (before : List CallFragment) (f : CallFragment) : Prop where
  opens : f.opensCall = true
  id : ∀ g ∈ openings before, g.callId ≠ f.callId
  index : f.index = none ∨ ∀ g ∈ openings before, g.index ≠ f.index

/-- `f` goes on with the call that was opened last among `before`. -/
def ContinuesLast (before : List CallFragment) (f : CallFragment) : Prop :=
  ∃ g, (openings before).getLast? = some g ∧ f.continues g

/-- What may come after the fragments `before`. -/
def MayFollow (before : List CallFragment) (f : CallFragment) : Prop :=
  OpensAnew before f ∨ ContinuesLast before f

/-- Every fragment may follow those before it. -/
def Orderly (fs : List CallFragment) : Prop :=
  ∀ before f after, fs = before ++ f :: after → MayFollow before f

/-! ## The calls that fragments describe -/

/-- The arguments of the call that `g` opens: its own, and then those of the fragments that
go on with it. -/
def argumentsOf (fs : List CallFragment) (g : CallFragment) : String :=
  g.arguments ++ String.join ((fs.filter fun f => f.continues g).map (·.arguments))

/-- The call that `g` opens. -/
def describedCall (fs : List CallFragment) (g : CallFragment) : OpenCall :=
  { id := g.callId.getD "", name := g.name.getD "", index := g.index
    arguments := argumentsOf fs g }

/-- One call for each opening, in the order of the openings. -/
def openedCalls (fs : List CallFragment) : List OpenCall := (openings fs).map (describedCall fs)

theorem orderly_nil : Orderly [] := by
  intro before f after h
  exact absurd h (by simp)

theorem orderly_snoc {fs : List CallFragment} {f : CallFragment} :
    Orderly (fs ++ [f]) ↔ Orderly fs ∧ MayFollow fs f := by
  constructor
  · intro h
    refine ⟨fun before g after hg => ?_, h fs f [] rfl⟩
    exact h before g (after ++ [f]) (by rw [hg]; simp)
  · intro h' before g after hg
    obtain ⟨h, hf⟩ := h'
    rcases List.eq_nil_or_concat after with rfl | ⟨after', x, rfl⟩
    · obtain ⟨rfl, hgf⟩ := List.append_inj' hg rfl
      obtain rfl : f = g := by simpa using hgf
      exact hf
    · have hg' : fs ++ [f] = (before ++ g :: after') ++ [x] := by rw [hg]; simp
      exact h before g after' (List.append_inj' hg' rfl).1

/-- The fragments before a point of an orderly list are orderly. -/
theorem Orderly.of_append {fs gs : List CallFragment} (h : Orderly (fs ++ gs)) : Orderly fs := by
  intro before f after hf
  exact h before f (after ++ gs) (by rw [hf]; simp)

theorem openings_snoc (fs : List CallFragment) (f : CallFragment) :
    openings (fs ++ [f]) = openings fs ++ if f.opensCall then [f] else [] := by
  simp [openings, List.filter_append, List.filter_cons]

theorem mem_openings {fs : List CallFragment} {g : CallFragment} :
    g ∈ openings fs ↔ g ∈ fs ∧ g.opensCall = true := List.mem_filter

theorem argumentsOf_snoc (fs : List CallFragment) (f g : CallFragment) :
    argumentsOf (fs ++ [f]) g = argumentsOf fs g ++ if f.continues g then f.arguments else "" := by
  unfold argumentsOf
  by_cases h : f.continues g <;>
    simp [List.filter_append, h, String.append_assoc]

/-- Two openings of an orderly list differ in their ids, and in the index of the later one
if it has one. -/
theorem openings_pairwise {fs : List CallFragment} (h : Orderly fs) :
    (openings fs).Pairwise fun g k =>
      g.callId ≠ k.callId ∧ (k.index = none ∨ g.index ≠ k.index) := by
  induction fs using List.reverseRecOn with
  | nil => exact List.Pairwise.nil
  | append_singleton fs f ih =>
      obtain ⟨ho, hf⟩ := orderly_snoc.mp h
      rw [openings_snoc]
      split
      · -- only the opening at the end is new, and it has to differ from those before it
        rename_i hopen
        rcases hf with hf | ⟨g, _, hg, _⟩
        · refine List.pairwise_append.mpr ⟨ih ho, List.pairwise_singleton _ _, ?_⟩
          intro g hg k hk
          obtain rfl := List.mem_singleton.mp hk
          exact ⟨hf.id g hg, hf.index.imp_right fun hi => hi g hg⟩
        · exact absurd hopen (by simp [hg])
      · simpa using ih ho

/-- In an orderly list every fragment that opens no call goes on with an opening before
it, so it shares a key with that opening. -/
theorem continues_opening {fs : List CallFragment} (h : Orderly fs) {f : CallFragment}
    (hf : f ∈ fs) (hc : f.opensCall = false) : ∃ g ∈ openings fs, f.continues g := by
  obtain ⟨before, after, rfl⟩ := List.append_of_mem hf
  rcases h before f after rfl with ho | ⟨g, hg, hcont⟩
  · exact absurd ho.opens (by simp [hc])
  · refine ⟨g, ?_, hcont⟩
    rw [openings, List.filter_append]
    exact List.mem_append_left _ (List.mem_of_getLast? hg)

/-! ## The tables of an assembler -/

/-- A table says where the calls with a key stand. -/
def Locates {κ : Type} [BEq κ] (table : List (κ × Nat)) (key : OpenCall → Option κ)
    (calls : List OpenCall) : Prop :=
  ∀ k p, table.lookup k = some p ↔ ∃ c, calls[p]? = some c ∧ key c = some k

section Locates

variable {κ : Type} [BEq κ] {table : List (κ × Nat)} {key : OpenCall → Option κ}
  {calls : List OpenCall}

theorem locates_nil : Locates ([] : List (κ × Nat)) key [] := by
  intro k p; simp

theorem Locates.eq_none_iff (h : Locates table key calls) {k : κ} :
    table.lookup k = none ↔ ∀ c ∈ calls, key c ≠ some k := by
  constructor
  · intro hn c hc hk
    obtain ⟨p, hp⟩ := List.mem_iff_getElem?.mp hc
    rw [(h k p).mpr ⟨c, hp, hk⟩] at hn
    exact absurd hn (by simp)
  · intro hall
    cases hl : table.lookup k with
    | none => rfl
    | some p =>
        obtain ⟨c, hp, hk⟩ := (h k p).mp hl
        exact absurd hk (hall c (List.mem_of_getElem? hp))

/-- A call under a new key is entered at the end. -/
theorem Locates.snoc [LawfulBEq κ] (h : Locates table key calls) {c : OpenCall} {k : κ}
    (hk : key c = some k) (hnew : table.lookup k = none) :
    Locates ((k, calls.length) :: table) key (calls ++ [c]) := by
  intro k' p
  by_cases hkk : k' = k
  · -- the new key is found at the end and, being new, nowhere before it
    subst hkk
    rw [List.lookup_cons_self, List.getElem?_append]
    split
    · rename_i hp
      constructor
      · intro he; exact absurd (Option.some.inj he) (by omega)
      · intro h'
        obtain ⟨d, hd, hdk⟩ := h'
        exact absurd hdk (h.eq_none_iff.mp hnew d (List.mem_of_getElem? hd))
    · rename_i hp
      constructor
      · intro he
        obtain rfl := Option.some.inj he
        exact ⟨c, by simp, hk⟩
      · intro h'
        obtain ⟨d, hd, -⟩ := h'
        have := (List.getElem?_eq_some_iff.mp hd).1
        simp only [List.length_singleton] at this
        exact congrArg some (by omega)
  · rw [List.lookup_cons, beq_false_of_ne hkk, h k' p, List.getElem?_append]
    split
    · exact Iff.rfl
    · rename_i hp
      rw [List.getElem?_eq_none (Nat.le_of_not_lt hp)]
      constructor
      · intro h'
        obtain ⟨d, hd, -⟩ := h'
        exact absurd hd (by simp)
      · intro h'
        obtain ⟨d, hd, hdk⟩ := h'
        obtain rfl := List.mem_singleton.mp (List.mem_of_getElem? hd)
        rw [hk] at hdk
        exact absurd (Option.some.inj hdk).symm hkk

/-- A call without a key is entered nowhere. -/
theorem Locates.snoc_keyless (h : Locates table key calls) {c : OpenCall} (hk : key c = none) :
    Locates table key (calls ++ [c]) := by
  intro k p
  rw [h k p, List.getElem?_append]
  split
  · exact Iff.rfl
  · rename_i hp
    rw [List.getElem?_eq_none (Nat.le_of_not_lt hp)]
    constructor
    · intro h'
      obtain ⟨d, hd, -⟩ := h'
      exact absurd hd (by simp)
    · intro h'
      obtain ⟨d, hd, hdk⟩ := h'
      obtain rfl := List.mem_singleton.mp (List.mem_of_getElem? hd)
      rw [hk] at hdk
      exact absurd hdk (by simp)

/-- Changing calls without changing their keys leaves a table right. -/
theorem Locates.modify (h : Locates table key calls) {g : OpenCall → OpenCall}
    (hg : ∀ c, key (g c) = key c) (q : Nat) : Locates table key (calls.modify q g) := by
  intro k p
  rw [h k p, List.getElem?_modify]
  cases calls[p]? with
  | none => simp
  | some c =>
      by_cases hq : q = p
      · simp [hq, hg]
      · simp [hq]

end Locates

/-- The table of a key says of a key whether the call opened last has it. -/
theorem Locates.lookup_last {κ : Type} [BEq κ] {table : List (κ × Nat)}
    {key : OpenCall → Option κ} {calls : List OpenCall} (h : Locates table key calls)
    {k : κ} {p : Nat} (hp : p + 1 = calls.length) :
    table.lookup k = some p ↔ ∃ c, calls.getLast? = some c ∧ key c = some k := by
  rw [h k p, List.getLast?_eq_getElem?, show calls.length - 1 = p by omega]

/-- What holds of an assembler whatever it has been fed: its calls have ids and names, and
its tables say where they stand. -/
structure Assembler.Lawful (a : Assembler) : Prop where
  named : ∀ c ∈ a.calls, c.id ≠ "" ∧ c.name ≠ ""
  byId : Locates a.byId (fun c => some c.id) a.calls
  byIndex : Locates a.byIndex (·.index) a.calls

namespace Assembler

variable {a a' : Assembler} {fs : List CallFragment} {f : CallFragment}

theorem lawful_fresh (provider : Option String) : ({ provider } : Assembler).Lawful where
  named := by intro c hc; exact absurd hc (by simp)
  byId := locates_nil
  byIndex := locates_nil

theorem Lawful.addCall (h : a.Lawful) {c : OpenCall} (hid : c.id ≠ "") (hname : c.name ≠ "")
    (hnewId : a.byId.lookup c.id = none)
    (hnewIndex : ∀ i, c.index = some i → a.byIndex.lookup i = none) : (a.addCall c).Lawful where
  named := by
    intro d hd
    rcases List.mem_append.mp hd with hd | hd
    · exact h.named d hd
    · obtain rfl := List.mem_singleton.mp hd
      exact ⟨hid, hname⟩
  byId := h.byId.snoc rfl hnewId
  byIndex := by
    cases hc : c.index with
    | none =>
        simp only [Assembler.addCall, hc]
        exact h.byIndex.snoc_keyless hc
    | some i =>
        simp only [Assembler.addCall, hc]
        exact h.byIndex.snoc hc (hnewIndex i hc)

theorem Lawful.grow (h : a.Lawful) (p : Nat) (more : String) :
    ({ a with calls := a.calls.modify p (·.grow more) } : Assembler).Lawful where
  named := by
    intro c hc
    obtain ⟨q, hq⟩ := List.mem_iff_getElem?.mp hc
    rw [List.getElem?_modify] at hq
    obtain ⟨d, hd, rfl⟩ := Option.map_eq_some_iff.mp hq
    have hn := h.named d (List.mem_of_getElem? hd)
    split <;> exact hn
  byId := h.byId.modify (g := (·.grow more)) (fun _ => rfl) p
  byIndex := h.byIndex.modify (g := (·.grow more)) (fun _ => rfl) p

/-! ## What taking a fragment does -/

theorem openCall_eq_ok {id name : String} :
    a.openCall id name f = .ok a' ↔
      a.byId.lookup id = none ∧ (∀ i, f.index = some i → a.byIndex.lookup i = none) ∧
        a' = a.addCall { id, name, index := f.index, arguments := f.arguments } := by
  have hfilter : (f.index.filter fun i => (a.byIndex.lookup i).isSome) = none ↔
      ∀ i, f.index = some i → a.byIndex.lookup i = none := by
    simp only [Option.filter_eq_none_iff, Bool.not_eq_true, Option.isSome_eq_false_iff,
      Option.isNone_iff_eq_none]
  rw [← hfilter]
  unfold openCall
  split
  · rename_i hid
    constructor
    · intro h; exact absurd h (by simp)
    · intro h'
      obtain ⟨hnone, -⟩ := h'
      rw [hnone] at hid
      exact absurd hid (by simp)
  · rename_i hid
    have hnone : a.byId.lookup id = none := Option.not_isSome_iff_eq_none.mp hid
    split
    · rename_i i hi
      rw [hi]
      constructor
      · intro h; exact absurd h (by simp)
      · intro h'
        obtain ⟨-, h, -⟩ := h'
        exact absurd h (by simp)
    · rename_i hi
      constructor
      · intro h; exact ⟨hnone, hi, (Except.ok.inj h).symm⟩
      · intro h'
        obtain ⟨-, -, rfl⟩ := h'
        rfl

theorem continueCall_eq_ok :
    a.continueCall f = .ok a' ↔
      ∃ p, a.target? f = some p ∧ p + 1 = a.calls.length ∧
        a' = { a with calls := a.calls.modify p (·.grow f.arguments) } := by
  unfold continueCall
  cases ht : a.target? f with
  | none => simp
  | some p =>
      by_cases hp : p + 1 = a.calls.length
      · simp [hp, eq_comm]
      · simp [hp]

/-- **Everything that taking a fragment can do**: it opens a call under new keys, or it
grows the call opened last. -/
theorem feedFragment_eq_ok :
    a.feedFragment f = .ok a' ↔
      (∃ id name, f.opening? = some (id, name) ∧ a.byId.lookup id = none ∧
        (∀ i, f.index = some i → a.byIndex.lookup i = none) ∧
        a' = a.addCall { id, name, index := f.index, arguments := f.arguments }) ∨
      (f.opening? = none ∧ ∃ p, a.target? f = some p ∧ p + 1 = a.calls.length ∧
        a' = { a with calls := a.calls.modify p (·.grow f.arguments) }) := by
  unfold feedFragment
  cases ho : f.opening? with
  | none => simp [continueCall_eq_ok]
  | some key =>
      obtain ⟨id, name⟩ := key
      simp [openCall_eq_ok]

/-- Taking a fragment keeps the tables right. -/
theorem Lawful.feedFragment (h : a.Lawful) (hf : a.feedFragment f = .ok a') : a'.Lawful := by
  rcases feedFragment_eq_ok.mp hf with ⟨id, name, ho, hid, hindex, rfl⟩ | ⟨_, p, _, _, rfl⟩
  · obtain ⟨⟨_, hidne⟩, _, hnamene⟩ := CallFragment.opening?_eq_some.mp ho
    exact h.addCall hidne hnamene hid hindex
  · exact h.grow p f.arguments

/-- `b` differs from `a` in its calls and tables only. -/
def CallsOnly (a b : Assembler) : Prop :=
  ∃ calls byId byIndex, b = { a with calls, byId, byIndex }

theorem CallsOnly.trans {b c : Assembler} (hab : a.CallsOnly b) (hbc : b.CallsOnly c) :
    a.CallsOnly c := by
  obtain ⟨_, _, _, rfl⟩ := hab
  obtain ⟨_, _, _, rfl⟩ := hbc
  exact ⟨_, _, _, rfl⟩

theorem feedFragment_callsOnly (hf : a.feedFragment f = .ok a') : a.CallsOnly a' := by
  rcases feedFragment_eq_ok.mp hf with ⟨_, _, _, _, _, rfl⟩ | ⟨_, p, _, _, rfl⟩
  · exact ⟨_, _, _, rfl⟩
  · exact ⟨_, _, _, rfl⟩

/-- What is left of the fragments matters only where none has been refused yet. -/
theorem feedFragments_append (a : Assembler) (fs gs : List CallFragment) :
    a.feedFragments (fs ++ gs) =
      match a.feedFragments fs with
      | (none, b) => b.feedFragments gs
      | (some e, b) => (some e, b) := by
  induction fs generalizing a with
  | nil => rfl
  | cons f fs ih =>
      rw [List.cons_append, feedFragments, feedFragments]
      cases a.feedFragment f with
      | ok b => exact ih b
      | error e => rfl

/-- What holds before any fragment, and still does with one more of them taken at the front, holds
of fragments whether all of them are taken or not. -/
theorem feedFragments_rel {R : Assembler → Assembler → Prop} (refl : ∀ a, R a a)
    (step : ∀ {a b c f}, a.feedFragment f = .ok b → R b c → R a c) (a : Assembler)
    (gs : List CallFragment) : R a (a.feedFragments gs).2 := by
  induction gs generalizing a with
  | nil => exact refl a
  | cons g gs ih =>
      unfold feedFragments
      cases hg : a.feedFragment g with
      | ok b => exact step hg (ih b)
      | error e => exact refl a

/-- Fragments change the calls and the tables only. -/
theorem feedFragments_callsOnly (a : Assembler) (gs : List CallFragment) :
    a.CallsOnly (a.feedFragments gs).2 :=
  feedFragments_rel (R := CallsOnly) (fun _ => ⟨_, _, _, rfl⟩)
    (fun hf => (feedFragment_callsOnly hf).trans) a gs

/-- Fragments leave an assembler lawful, also where one of them is refused. -/
theorem Lawful.feedFragments (h : a.Lawful) (gs : List CallFragment) :
    (a.feedFragments gs).2.Lawful :=
  feedFragments_rel (R := fun a b => a.Lawful → b.Lawful) (fun _ => id)
    (fun hf hrest ha => hrest (ha.feedFragment hf)) a gs h

/-- Lawfulness is about the calls and the tables. -/
theorem Lawful.congr {b : Assembler} (h : a.Lawful) (hc : b.calls = a.calls)
    (hi : b.byId = a.byId) (hx : b.byIndex = a.byIndex) : b.Lawful where
  named := hc ▸ h.named
  byId := by rw [hi, hc]; exact h.byId
  byIndex := by rw [hx, hc]; exact h.byIndex

/-- What an assembler that has not finished makes of a chunk: the fragments decide whether
the chunk counts. -/
theorem accept_eq (h : a.finished = false) (c : Chunk) :
    a.accept c =
      match (a.addText c.text).feedFragments c.fragments with
      | (none, b) => (.ok (), b.close c)
      | (some e, b) => (.error e.failure, b) := by
  unfold accept feed
  rw [if_neg (by simp [h])]
  cases (a.addText c.text).feedFragments c.fragments with
  | mk fault b => cases fault <;> rfl

theorem accept_finished (h : a.finished = true) (c : Chunk) :
    a.accept c = (.error (.misuse .assemblerFinished), a) := by
  unfold accept
  rw [if_pos h]

/-- **Whatever it is fed, an assembler stays lawful.** -/
theorem Lawful.accept (h : a.Lawful) (c : Chunk) : (a.accept c).2.Lawful := by
  cases hfin : a.finished with
  | true => rw [accept_finished hfin]; exact h
  | false =>
      have htext : (a.addText c.text).Lawful := h.congr rfl rfl rfl
      have hfed := htext.feedFragments c.fragments
      rw [accept_eq hfin]
      split
      · rename_i _ b hb
        rw [hb] at hfed
        exact hfed.congr rfl rfl rfl
      · rename_i _ e b hb
        rw [hb] at hfed
        exact hfed

end Assembler

end ChatClient
