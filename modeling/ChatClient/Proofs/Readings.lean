import Mathlib.Data.List.Forall2
import ChatClient.Reading

/-!
# What readings come to

Reading carries a ledger along, but what it comes to is the same for every ledger as far as
the theory of responses goes: ids that are made are not empty, and log lines do not matter.
`Reading.Gives E P` says so: the value has `P`, and a failure has `E`, whatever the ledger.
It passes through each step of a reading, so what the readers of the services come to is
read off their parts.
-/

namespace ChatClient

/-- Each ledger leads to a value with `P` or to a failure with `E`. -/
def Reading.Gives {α : Type} (E : Failure → Prop) (P : α → Prop) (m : Reading α) : Prop :=
  ∀ l, match (m.run l).1 with
    | .ok a => P a
    | .error f => E f

namespace Reading

variable {α β : Type} {E : Failure → Prop} {P : α → Prop} {Q : β → Prop} {m : Reading α}
  {a : α} {f : Failure}

/-- One reading after another: the second starts with the ledger that the first leaves. -/
theorem run_bind (m : Reading α) (next : α → Reading β) (l : Ledger) :
    (m >>= next).run l = match m.run l with
      | (.ok a, l) => (next a).run l
      | (.error f, l) => (.error f, l) := by
  show ExceptT.bindCont next (m.run l).1 (m.run l).2 = _
  cases m.run l with
  | mk r l => cases r <;> rfl

theorem gives_pure (h : P a) : Gives E P (pure a) := fun _ => h

theorem gives_throw (h : E f) : Gives E P (throw f) := fun _ => h

theorem Gives.bind {next : α → Reading β} (h : Gives E P m)
    (hnext : ∀ a, P a → Gives E Q (next a)) : Gives E Q (m >>= next) := by
  intro l
  have hm := h l
  rw [run_bind]
  cases hr : m.run l with
  | mk r l =>
      rw [hr] at hm
      cases r with
      | ok a => exact hnext a hm l
      | error f => exact hm

/-- More failures may be allowed for. -/
theorem Gives.weaken {E' : Failure → Prop} (h : Gives E P m) (hE : ∀ f, E f → E' f) :
    Gives E' P m := by
  intro l
  have hm := h l
  cases hr : (m.run l).1 with
  | ok a =>
      rw [hr] at hm
      exact hm
  | error f =>
      rw [hr] at hm
      exact hE f hm

/-- Reading the items of a list one after the other. -/
theorem gives_mapM {read : α → Reading β} (h : ∀ a, Gives E Q (read a)) (as : List α) :
    Gives E (fun bs => ∀ b ∈ bs, Q b) (as.mapM read) := by
  induction as with
  | nil => exact gives_pure (fun _ hb => absurd hb List.not_mem_nil)
  | cons a as ih =>
      rw [List.mapM_cons]
      refine (h a).bind fun b hb => ih.bind fun bs hbs => gives_pure ?_
      exact List.forall_mem_cons.mpr ⟨hb, hbs⟩

/-- Reading something that may be absent. -/
theorem gives_optionMapM {read : α → Reading β} (h : ∀ a, Gives E Q (read a)) (o : Option α) :
    Gives E (fun b => ∀ x, b = some x → Q x) (o.mapM read) := by
  cases o with
  | none => exact gives_pure (by simp)
  | some a =>
      refine (h a).bind fun b hb => gives_pure fun x hx => ?_
      obtain rfl := Option.some.inj hx
      exact hb

/-! ## Shared steps -/

/-- The answer of a service is not as it should be, and the failure names the service. -/
def IsMalformed (p : Provider) (f : Failure) : Prop :=
  ∃ message, f = .malformed message (some p.name) none

theorem gives_malformed (p : Provider) (message : String) :
    Gives (IsMalformed p) P (malformed p message) :=
  gives_throw ⟨message, rfl⟩

theorem gives_log (level : LogLevel) (line : String) : Gives E (fun _ => True) (log level line) :=
  fun _ => trivial

theorem callId_ne_empty (n : Nat) : callId n ≠ "" := by
  intro h
  have hlength := congrArg String.length h
  rw [callId, String.length_append] at hlength
  exact absurd hlength (by simp)

/-- A call has an id, given or made. -/
theorem gives_idOr (id : Option String) : Gives E (fun id => id ≠ "") (idOr id) := by
  unfold idOr
  cases hid : given? id with
  | some s => exact gives_pure (given?_eq_some.mp hid).2
  | none => exact fun l => callId_ne_empty (l.callIds + 1)

/-- What a payload is read as is what its decoder gives. -/
theorem gives_decode (p : Provider) (d : Payload.Decoder α) (v : Json) :
    Gives (IsMalformed p) (fun a => d v = .ok a) (decode p d v) := by
  unfold decode
  cases d v with
  | ok a => exact gives_pure rfl
  | faulty ps => exact gives_malformed p _

theorem gives_body (p : Provider) (bs : List UInt8) :
    Gives (IsMalformed p) (fun _ => True) (liftExcept (body (some p.name) bs)) := by
  unfold body
  cases Json.readBytes? bs with
  | some v => exact gives_pure trivial
  | none => exact gives_throw ⟨_, rfl⟩

theorem gives_event (p : Provider) (data : String) :
    Gives (IsMalformed p) (fun v => Json.read? data = some v) (event p data) := by
  unfold event
  cases Json.read? data with
  | some v => exact gives_pure rfl
  | none => exact gives_malformed p _

/-- The codes of a service stand for known reasons. -/
theorem finishCodes_known (p : Provider) : ∀ e ∈ p.finishCodes, e.2.isKnown = true := by
  cases p <;> decide

/-- A finish reason is a known one, also where the code is not. -/
theorem gives_finishReason (p : Provider) (code : String) :
    Gives E (fun r => r.isKnown = true) (finishReason p code) := by
  unfold finishReason
  cases hr : p.finishReason? code with
  | some r =>
      obtain ⟨e, he, rfl⟩ := Option.map_eq_some_iff.mp hr
      exact gives_pure (finishCodes_known p e (List.mem_of_find?_eq_some he))
  | none => exact (gives_log _ _).bind fun _ _ => gives_pure rfl

/-! ## What a value comes from

Where only the values matter, any failure is allowed for. -/

/-- Any failure. -/
abbrev Anyhow : Failure → Prop := fun _ => True

theorem Gives.imp {P' : α → Prop} (h : Gives E P m) (hP : ∀ a, P a → P' a) : Gives E P' m := by
  intro l
  have hm := h l
  cases hr : (m.run l).1 with
  | ok a =>
      rw [hr] at hm
      exact hP a hm
  | error f =>
      rw [hr] at hm
      exact hm

theorem gives_readBytes (name : Option String) (bs : List UInt8) :
    Gives Anyhow (fun v => Json.readBytes? bs = some v) (liftExcept (body name bs)) := by
  unfold body
  cases Json.readBytes? bs with
  | some v => exact gives_pure rfl
  | none => exact gives_throw trivial

theorem gives_decoded (p : Provider) (d : Payload.Decoder α) (v : Json) :
    Gives Anyhow (fun a => d v = .ok a) (decode p d v) :=
  (gives_decode p d v).weaken fun _ _ => trivial

/-- An id that came with a call is kept. -/
theorem gives_idOr_kept (id : Option String) :
    Gives E (fun s => s ≠ "" ∧ ∀ t, given? id = some t → s = t) (idOr id) := by
  unfold idOr
  cases hid : given? id with
  | some s => exact gives_pure ⟨(given?_eq_some.mp hid).2, fun t ht => Option.some.inj ht⟩
  | none => exact fun l => ⟨callId_ne_empty (l.callIds + 1), fun t ht => absurd ht (by simp)⟩

/-- Reading the items of a list, each value in relation with its item. -/
theorem gives_forall₂ {read : α → Reading β} {R : α → β → Prop} (h : ∀ a, Gives E (R a) (read a))
    (as : List α) : Gives E (List.Forall₂ R as) (as.mapM read) := by
  induction as with
  | nil => exact gives_pure .nil
  | cons a as ih =>
      rw [List.mapM_cons]
      exact (h a).bind fun b hb => ih.bind fun bs hbs => gives_pure (.cons hb hbs)

/-! ## Where a reading leads

Whether two readings come to the same value depends on the ids that they make, and those only
on how many have been made before. -/

/-- The id of a call when `n` ids have been made, and how many have been made then. -/
def idAt (n : Nat) (id : Option String) : String × Nat :=
  match given? id with
  | some id => (id, n)
  | none => (callId (n + 1), n + 1)

/-- Where `n` ids have been made, a reading comes to `r`, and `n'` ids have been made then. -/
def Leads (m : Reading α) (n : Nat) (r : Except Failure α) (n' : Nat) : Prop :=
  ∀ l, l.callIds = n → ∃ l', m.run l = (r, l') ∧ l'.callIds = n'

variable {b : β} {n n₁ n₂ : Nat} {r : Except Failure β}

theorem leads_pure (a : α) (n : Nat) : Leads (pure a) n (.ok a) n := fun l h => ⟨l, rfl, h⟩

theorem leads_liftExcept (r : Except Failure α) (n : Nat) : Leads (liftExcept r) n r n :=
  fun l h => ⟨l, by cases r <;> rfl, h⟩

theorem Leads.bind {next : α → Reading β} (h : Leads m n (.ok a) n₁)
    (hnext : Leads (next a) n₁ r n₂) : Leads (m >>= next) n r n₂ := by
  intro l hl
  obtain ⟨l₁, hrun, hl₁⟩ := h l hl
  obtain ⟨l₂, hrun₂, hl₂⟩ := hnext l₁ hl₁
  exact ⟨l₂, by rw [run_bind, hrun]; exact hrun₂, hl₂⟩

theorem leads_idOr (id : Option String) (n : Nat) :
    Leads (idOr id) n (.ok (idAt n id).1) (idAt n id).2 := by
  unfold idOr idAt
  cases given? id with
  | some id => exact leads_pure id n
  | none =>
      intro l hl
      subst hl
      exact ⟨_, rfl, rfl⟩

theorem leads_decode {p : Provider} {d : Payload.Decoder α} {v : Json} (h : d v = .ok a) (n : Nat) :
    Leads (decode p d v) n (.ok a) n := by
  unfold decode
  rw [h]
  exact leads_pure a n

/-- What a reading leads to it gives. -/
theorem gives_of_leads (h : ∀ n, ∃ a n', Leads m n (.ok a) n' ∧ P a) : Gives E P m := by
  intro l
  obtain ⟨a, n', hm, ha⟩ := h l.callIds
  obtain ⟨l', hrun, -⟩ := hm l rfl
  rw [hrun]
  exact ha

/-- The characters of a text that is put together from two. -/
theorem toList_joined {s t : String} {cs ds : List Char} (hs : s.toList = cs)
    (ht : t.toList = ds) : (s ++ t).toList = cs ++ ds := by
  rw [String.toList_append, hs, ht]

/-- A text is the value that its characters write. -/
theorem read?_of_chars {s : String} {cs : List Char} {v : Json} (hs : s.toList = cs)
    (hcs : Json.ofChars? cs = some v) : Json.read? s = some v := by
  rw [Json.read?, hs]
  exact hcs

/-- The bytes of a text are the value that its characters write, if they are decoded to them. -/
theorem readBytes?_encode {s : String} {cs : List Char} {v : Json} (hs : s.toList = cs)
    (hcs : Json.ofChars? cs = some v)
    (hbs : Text.allDecoded? ((Json.charsetOf (cs.flatMap String.utf8EncodeChar)).decode
      (cs.flatMap String.utf8EncodeChar)) = some cs) :
    Json.readBytes? (Text.Utf8.encode s) = some v := by
  rw [Json.readBytes?, Text.Utf8.encode, hs, hbs]
  exact hcs

theorem leads_body {name : Option String} {bs : List UInt8} {v : Json}
    (h : Json.readBytes? bs = some v) (n : Nat) : Leads (liftExcept (body name bs)) n (.ok v) n := by
  unfold body
  rw [h]
  exact leads_pure v n

theorem leads_event {p : Provider} {data : String} {v : Json} (h : Json.read? data = some v)
    (n : Nat) : Leads (event p data) n (.ok v) n := by
  unfold event
  rw [h]
  exact leads_pure v n

theorem leads_finishReason (p : Provider) (code : String) (n : Nat) :
    Leads (finishReason p code) n (.ok ((p.finishReason? code).getD .error)) n := by
  unfold finishReason
  cases p.finishReason? code with
  | some reason => exact leads_pure reason n
  | none => exact fun l hl => ⟨_, rfl, hl⟩

theorem leads_finishReasons (p : Provider) (code : Option String) (n : Nat) :
    Leads (code.mapM (finishReason p)) n
      (.ok (code.map fun code => (p.finishReason? code).getD .error)) n := by
  cases code with
  | none => exact leads_pure none n
  | some code => exact (leads_finishReason p code n).bind (leads_pure _ n)

theorem leads_mapM_cons {read : α → Reading β} {as : List α} {bs : List β}
    (h : Leads (read a) n (.ok b) n₁) (has : Leads (as.mapM read) n₁ (.ok bs) n₂) :
    Leads ((a :: as).mapM read) n (.ok (b :: bs)) n₂ := by
  rw [List.mapM_cons]
  exact h.bind (has.bind (leads_pure _ _))

theorem Leads.bind_error {next : α → Reading β} {f : Failure} (h : Leads m n (.error f) n₁) :
    Leads (m >>= next) n (.error f) n₁ := by
  intro l hl
  obtain ⟨l₁, hrun, hl₁⟩ := h l hl
  exact ⟨l₁, by rw [run_bind, hrun], hl₁⟩

/-- What a reading comes to depends on nothing in the ledger but how many ids have been made. -/
def Steady (m : Reading α) : Prop := ∀ n, ∃ r n', Leads m n r n'

theorem steady_pure (a : α) : Steady (pure a) := fun n => ⟨_, n, leads_pure a n⟩

theorem steady_liftExcept (r : Except Failure α) : Steady (liftExcept r) :=
  fun n => ⟨r, n, leads_liftExcept r n⟩

theorem Steady.bind {next : α → Reading β} (h : Steady m) (hnext : ∀ a, Steady (next a)) :
    Steady (m >>= next) := by
  intro n
  obtain ⟨r, n₁, hm⟩ := h n
  cases r with
  | error f => exact ⟨.error f, n₁, hm.bind_error⟩
  | ok a =>
      obtain ⟨r, n₂, ha⟩ := hnext a n₁
      exact ⟨r, n₂, hm.bind ha⟩

theorem steady_mapM {read : α → Reading β} (h : ∀ a, Steady (read a)) (as : List α) :
    Steady (as.mapM read) := by
  induction as with
  | nil => exact steady_pure []
  | cons a as ih =>
      rw [List.mapM_cons]
      exact (h a).bind fun b => ih.bind fun bs => steady_pure _

theorem steady_idOr (id : Option String) : Steady (idOr id) := fun n => ⟨_, _, leads_idOr id n⟩

theorem steady_finishReason (p : Provider) (code : String) : Steady (finishReason p code) :=
  fun n => ⟨_, n, leads_finishReason p code n⟩

theorem steady_malformed (p : Provider) (message : String) :
    Steady (malformed p message : Reading α) := fun n => ⟨_, n, leads_liftExcept (.error _) n⟩

theorem steady_decode (p : Provider) (d : Payload.Decoder α) (v : Json) : Steady (decode p d v) := by
  unfold decode
  cases d v with
  | ok a => exact steady_pure a
  | faulty ps => exact steady_malformed p _

/-- Two ledgers in which as many ids have been made lead to the same. -/
theorem Steady.run_eq (h : Steady m) {l l' : Ledger} (hl : l.callIds = l'.callIds) :
    (m.run l).1 = (m.run l').1 := by
  obtain ⟨r, n', hm⟩ := h l'.callIds
  obtain ⟨l₁, hrun, -⟩ := hm l hl
  obtain ⟨l₂, hrun', -⟩ := hm l' rfl
  rw [hrun, hrun']

end Reading

/-! ## Consistent responses -/

/-- The finish reason of a response is one of the five, and it agrees with the calls, which
have ids and names. -/
structure Response.Consistent (r : Response) : Prop where
  known : r.finishReason.isKnown = true
  asks : r.finishReason = .toolCalls → r.toolCalls ≠ []
  stops : r.finishReason = .stop → r.toolCalls = []
  named : ∀ c ∈ r.toolCalls, c.id ≠ "" ∧ c.name ≠ ""

/-- A call that may be passed on: it has an id and arguments. Its name is looked at later. -/
def ToolCall.Usable (c : ToolCall) : Prop := c.id ≠ "" ∧ c.arguments ≠ ""

/-- **The response of an answer is consistent**, or the answer is malformed. -/
theorem Answered.gives_response (p : Provider) {a : Answered}
    (hreason : a.finishReason.isKnown = true) (hcalls : ∀ c ∈ a.toolCalls, c.Usable) :
    Reading.Gives (Reading.IsMalformed p)
      (fun r => r.Consistent ∧ ∀ c ∈ r.toolCalls, c.arguments ≠ "")
      (liftExcept (a.response p)) := by
  unfold response
  by_cases hnames : a.toolCalls.any (·.name.isEmpty) = true
  · rw [if_pos hnames]
    exact Reading.gives_throw ⟨_, rfl⟩
  · rw [if_neg hnames]
    obtain ⟨reason, hr⟩ : ∃ reason, reason = if !a.toolCalls.isEmpty ∧ a.finishReason = .stop then
      FinishReason.toolCalls else a.finishReason := ⟨_, rfl⟩
    simp only [← hr]
    by_cases hnone : reason = .toolCalls ∧ a.toolCalls.isEmpty = true
    · rw [if_pos hnone]
      exact Reading.gives_throw ⟨_, rfl⟩
    · rw [if_neg hnone]
      refine Reading.gives_pure ⟨⟨?_, ?_, ?_, ?_⟩, fun c hc => (hcalls c hc).2⟩
      · rw [hr]
        split
        · rfl
        · exact hreason
      · exact fun hasks hempty => hnone ⟨hasks, List.isEmpty_iff.mpr hempty⟩
      · intro (hstops : reason = .stop)
        rw [hr] at hstops
        split at hstops
        · exact absurd hstops FinishReason.noConfusion
        · next hnot =>
            -- with calls a stop would have been turned into a request for them
            show a.toolCalls = []
            cases hcs : a.toolCalls with
            | nil => rfl
            | cons c cs => exact absurd ⟨by rw [hcs]; rfl, hstops⟩ hnot
      · intro c hc
        refine ⟨(hcalls c hc).1, fun hname => hnames ?_⟩
        exact List.any_eq_true.mpr ⟨c, hc, String.isEmpty_iff.mpr hname⟩

end ChatClient
