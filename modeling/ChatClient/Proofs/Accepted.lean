import ChatClient.Proofs.Conversation

/-!
# What an accepted request is like

Validation hands on no more than its verdict. Those who write requests rely on it all the same: a
message that is not the assistant's has no calls, a tool message has a call to answer, a setting
that is given is a finite number. `Request.Accepted` says what there is to rely on, for values of
whatever type, and `accepted_of_validate` reads it off the checks.

A message is accepted after the ones before it. There are four forms of it, one for each role, and
`AcceptedAfter` has a constructor for each, so that a proof about an accepted message has nothing
left to exclude.
-/

namespace ChatClient

/-! ## Checks that pass -/

section Checks

variable {ε α β : Type}

theorem bind_eq_ok {x : Except ε α} {f : α → Except ε β} {b : β} :
    x >>= f = .ok b ↔ ∃ a, x = .ok a ∧ f a = .ok b := by
  constructor
  · intro h
    cases x with
    | error e => exact absurd h (by simp [bind, Except.bind])
    | ok a => exact ⟨a, rfl, h⟩
  · rintro ⟨a, rfl, h⟩
    exact h

theorem bind_eq_error {x : Except ε α} {f : α → Except ε β} {e : ε} :
    x >>= f = .error e ↔ x = .error e ∨ ∃ a, x = .ok a ∧ f a = .error e := by
  cases x <;> simp [bind, Except.bind]

theorem exceptMap_eq_ok {x : Except ε α} {f : α → β} {b : β} :
    x.map f = .ok b ↔ ∃ a, x = .ok a ∧ f a = b := by
  cases x <;> simp [Except.map]

theorem forM_eq_ok {check : α → Except ε Unit} {as : List α} :
    as.forM check = .ok () ↔ ∀ a ∈ as, check a = .ok () := by
  induction as with
  | nil => simp [List.forM, pure, Except.pure]
  | cons a as ih =>
      rw [List.forall_mem_cons, ← ih]
      refine bind_eq_ok.trans ⟨?_, ?_⟩
      · rintro ⟨⟨⟩, ha, has⟩
        exact ⟨ha, has⟩
      · rintro ⟨ha, has⟩
        exact ⟨(), ha, has⟩

/-- A check goes on where it does not refuse. -/
theorem guard_eq_ok {c : Prop} [Decidable c] {place : Place} {cause : Refusal}
    {x : Except Objection α} {a : α} :
    (if c then refuse place cause else x) = .ok a ↔ ¬ c ∧ x = .ok a := by
  by_cases hc : c <;> simp [hc, refuse]

theorem wrongType_eq_ok {c : Prop} [Decidable c] {x : Except Objection α} {a : α} :
    (if c then .error .wrongType else x) = .ok a ↔ ¬ c ∧ x = .ok a := by
  by_cases hc : c <;> simp [hc]

end Checks

/-! ## Accepted messages -/

/-- Calls that were accepted in one message: they have ids and names, and the ids are told
apart. -/
structure AcceptedCalls (calls : List RequestCall) : Prop where
  given : ∀ c ∈ calls, c.id.isGiven = true ∧ c.name.isGiven = true
  key : ∀ c ∈ calls, c.id.isKey = true
  apart : calls.Pairwise fun c d => d.id.sameKey c.id = false

theorem acceptedCalls_nil : AcceptedCalls [] := by
  constructor <;> simp

/-- After the messages `before` the message `asker` may still be answered: it is the assistant's,
and only tool messages have come since. -/
def MayAnswer (before : List RequestMessage) (asker : RequestMessage) : Prop :=
  ∃ earlier between, before = earlier ++ asker :: between ∧ asker.isBy .assistant = true ∧
    ∀ b ∈ between, b.isBy .tool = true

/-- The forms of a message that is accepted after the messages `before`. -/
inductive AcceptedAfter (before : List RequestMessage) : RequestMessage → Prop
  | system {content : String} (hbefore : ∀ b ∈ before, b.isBy .system = true)
    (hcontent : Text.isBlankText content = false) :
    AcceptedAfter before { role := .text Role.system.name, content := .text content }
  | user {content : String} (hcontent : Text.isBlankText content = false) :
    AcceptedAfter before { role := .text Role.user.name, content := .text content }
  | assistant {content : String} {calls : List RequestCall} (hvoiced : content ≠ "" ∨ calls ≠ [])
    (hcalls : AcceptedCalls calls) :
    AcceptedAfter before
      { role := .text Role.assistant.name, content := .text content, toolCalls := calls }
  | tool {content : String} {id : Json} (hgiven : id.isGiven = true) (hkey : id.isKey = true)
    {asker : RequestMessage} (hasker : MayAnswer before asker)
    (hasked : ∃ c ∈ asker.toolCalls, id.sameKey c.id = true) :
    AcceptedAfter before
      { role := .text Role.tool.name, content := .text content, toolCallId := id }

variable {before : List RequestMessage} {m : RequestMessage}

/-- Who speaks in a message of a known role. -/
theorem isBy_of_role {r : Role} (h : m.role = .text r.name) (s : Role) :
    m.isBy s = decide (r = s) := by
  rw [RequestMessage.isBy, h]
  show (some r.name == some s.name) = _
  by_cases hs : r = s <;> simp [hs, roleName_inj]

theorem isBy_eq_false {r s : Role} (h : m.isBy r = true) (hrs : r ≠ s) : m.isBy s = false := by
  rw [RequestMessage.isBy, beq_iff_eq] at h
  rw [RequestMessage.isBy, h, Option.some_beq_some, beq_eq_false_iff_ne, Ne, roleName_inj]
  exact hrs

/-- After an accepted message of the assistant's it is the one to be answered. -/
theorem mayAnswer_self (hm : m.isBy .assistant = true) : MayAnswer (before ++ [m]) m :=
  ⟨before, [], rfl, hm, fun _ hb => absurd hb List.not_mem_nil⟩

/-- A tool message leaves the one to be answered as it is. -/
theorem MayAnswer.snoc {asker : RequestMessage} (h : MayAnswer before asker)
    (hm : m.isBy .tool = true) : MayAnswer (before ++ [m]) asker := by
  obtain ⟨earlier, between, rfl, hasker, hbetween⟩ := h
  refine ⟨earlier, between ++ [m], by simp, hasker, fun b hb => ?_⟩
  rcases List.mem_append.mp hb with hb | hb
  · exact hbetween b hb
  · obtain rfl := List.mem_singleton.mp hb
    exact hm

/-- The one to be answered is the last message, or the one that was before a tool message. -/
theorem mayAnswer_snoc {asker : RequestMessage} : MayAnswer (before ++ [m]) asker ↔
    asker = m ∧ m.isBy .assistant = true ∨ MayAnswer before asker ∧ m.isBy .tool = true := by
  constructor
  · rintro ⟨earlier, between, hsplit, hasker, hbetween⟩
    rcases List.eq_nil_or_concat between with rfl | ⟨between, last, rfl⟩
    · obtain ⟨-, hlast⟩ := List.append_inj' hsplit rfl
      obtain rfl := List.singleton_inj.mp hlast
      exact .inl ⟨rfl, hasker⟩
    · rw [List.concat_eq_append] at hsplit hbetween
      rw [← List.cons_append, ← List.append_assoc] at hsplit
      obtain ⟨rfl, hlast⟩ := List.append_inj' hsplit rfl
      obtain rfl := List.singleton_inj.mp hlast
      refine .inr ⟨⟨earlier, between, rfl, hasker, fun b hb => ?_⟩, ?_⟩
      · exact hbetween b (List.mem_append_left _ hb)
      · exact hbetween m (List.mem_append_right _ (List.mem_singleton.mpr rfl))
  · rintro (⟨rfl, hm⟩ | ⟨hasker, hm⟩)
    · exact mayAnswer_self hm
    · exact hasker.snoc hm

/-- Where a message may be answered, the last one is the assistant's or a tool's. -/
theorem MayAnswer.last {asker : RequestMessage} (h : MayAnswer before asker) :
    ∃ init l, before = init ++ [l] ∧ (l.isBy .assistant = true ∨ l.isBy .tool = true) := by
  rcases List.eq_nil_or_concat before with rfl | ⟨init, l, rfl⟩
  · obtain ⟨earlier, between, hsplit, -⟩ := h
    exact absurd hsplit (by simp)
  · rw [List.concat_eq_append] at h ⊢
    refine ⟨init, l, rfl, ?_⟩
    rcases mayAnswer_snoc.mp h with ⟨-, hl⟩ | ⟨-, hl⟩
    · exact .inl hl
    · exact .inr hl

/-- Accepted calls with the same text for an id are the same call. -/
theorem AcceptedCalls.eq_of_text {calls : List RequestCall} (h : AcceptedCalls calls)
    {c d : RequestCall} (hc : c ∈ calls) (hd : d ∈ calls) {s : String} (hcid : c.id = .text s)
    (hdid : d.id = .text s) : c = d := by
  obtain ⟨-, -, hapart⟩ := h
  induction hapart with
  | nil => exact absurd hc List.not_mem_nil
  | cons hhead _ ih =>
      rcases List.mem_cons.mp hc with rfl | hctail <;> rcases List.mem_cons.mp hd with rfl | hdtail
      · rfl
      · have hsame := hhead d hdtail
        rw [hcid, hdid, Json.sameKey_text, beq_self_eq_true] at hsame
        exact absurd hsame (by simp)
      · have hsame := hhead c hctail
        rw [hcid, hdid, Json.sameKey_text, beq_self_eq_true] at hsame
        exact absurd hsame (by simp)
      · exact ih hctail hdtail

/-- What an accepted message is like by itself. -/
structure RequestMessage.Formed (m : RequestMessage) : Prop where
  role : ∃ r : Role, m.role = .text r.name
  content : ∃ s, m.content = .text s
  toolCalls : m.isBy .assistant = false → m.toolCalls = []
  toolCallId : m.isBy .tool = false → m.toolCallId = .null

theorem AcceptedAfter.formed (h : AcceptedAfter before m) : m.Formed := by
  cases h with
  | system hbefore hcontent => exact ⟨⟨.system, rfl⟩, ⟨_, rfl⟩, fun _ => rfl, fun _ => rfl⟩
  | user hcontent => exact ⟨⟨.user, rfl⟩, ⟨_, rfl⟩, fun _ => rfl, fun _ => rfl⟩
  | assistant hvoiced hcalls =>
      refine ⟨⟨.assistant, rfl⟩, ⟨_, rfl⟩, fun hby => ?_, fun _ => rfl⟩
      rw [isBy_of_role (r := .assistant) rfl] at hby
      exact absurd hby (by simp)
  | tool hgiven hkey hasker hasked =>
      refine ⟨⟨.tool, rfl⟩, ⟨_, rfl⟩, fun _ => rfl, fun hby => ?_⟩
      rw [isBy_of_role (r := .tool) rfl] at hby
      exact absurd hby (by simp)

/-! ## The pass over the messages -/

theorem isAmong_eq_false {v : Json} {vs : List Json} :
    v.isAmong vs = false ↔ ∀ w ∈ vs, v.sameKey w = false := by
  simp [Json.isAmong]

theorem acceptedCalls_of_check {i j : Nat} {calls : List RequestCall} {ids ids' : List Json}
    (h : checkEach (RequestCall.check i) ids j calls = .ok ids') :
    ids' = ids ++ calls.map (·.id) ∧ AcceptedCalls calls ∧
      ∀ c ∈ calls, ∀ id ∈ ids, c.id.sameKey id = false := by
  induction calls generalizing ids j with
  | nil =>
      obtain rfl := Except.ok.inj h
      exact ⟨by simp, acceptedCalls_nil, by simp⟩
  | cons c calls ih =>
      rw [checkEach_cons, bind_eq_ok] at h
      obtain ⟨next, hcheck, hrest⟩ := h
      rw [RequestCall.check, guard_eq_ok, guard_eq_ok, wrongType_eq_ok, guard_eq_ok] at hcheck
      obtain ⟨hid, hname, hkey, hnew, hnext⟩ := hcheck
      obtain rfl := Except.ok.inj hnext
      obtain ⟨rfl, hcalls, hapart⟩ := ih hrest
      simp only [Bool.not_eq_true', Bool.not_eq_false] at hid hname hkey
      rw [Bool.not_eq_true, isAmong_eq_false] at hnew
      refine ⟨by simp, ?_, ?_⟩
      · constructor
        · exact List.forall_mem_cons.mpr ⟨⟨hid, hname⟩, hcalls.given⟩
        · exact List.forall_mem_cons.mpr ⟨hkey, hcalls.key⟩
        · -- the later calls were checked against the id of this one too
          refine List.pairwise_cons.mpr ⟨fun d hd => ?_, hcalls.apart⟩
          exact hapart d hd c.id (List.mem_append_right _ (List.mem_singleton.mpr rfl))
      · refine List.forall_mem_cons.mpr ⟨hnew, fun d hd id hmem => ?_⟩
        exact hapart d hd id (List.mem_append_left _ hmem)

/-- What the variables of the pass say about the messages so far, of whatever type their values
are. -/
structure Turn.Tracks (t : Turn) (before : List RequestMessage) : Prop where
  begun : t.begun = false → ∀ b ∈ before, b.isBy .system = true
  asked : t.previous = some .assistant ∨ t.previous = some .tool →
    ∃ asker, MayAnswer before asker ∧ t.outstanding = asker.toolCalls.map (·.id)

theorem tracks_nil : Turn.Tracks {} [] where
  begun := fun _ _ hb => absurd hb List.not_mem_nil
  asked := fun h => absurd h (by simp)

theorem role_of_checkRole {i : Nat} {role : Json} {r : Role} (h : checkRole i role = .ok r) :
    role = .text r.name := by
  rw [checkRole, wrongType_eq_ok] at h
  obtain ⟨-, h⟩ := h
  cases role with
  | text s =>
      cases hr : Role.ofName? s with
      | none => exact absurd h (by simp [Json.text?, hr, refuse])
      | some r' =>
          rw [show (Json.text s).text?.bind Role.ofName? = Role.ofName? s from rfl, hr] at h
          obtain rfl := Except.ok.inj h
          rw [Role.name_of_ofName? hr]
  | _ => exact absurd h (by simp [Json.text?, refuse])

theorem content_of_checkContent {i : Nat} {content : Json} {s : String}
    (h : checkContent i content = .ok s) : content = .text s := by
  cases content with
  | text t => rw [Except.ok.inj h]
  | _ => exact absurd h (by simp [checkContent, refuse])

theorem namesCall_eq_false : m.namesCall = false ↔ m.toolCallId = .null := by
  unfold RequestMessage.namesCall
  split <;> simp_all

variable {t t' : Turn}

/-- **One step of the pass.** A message that passes is accepted after the ones before it, and the
variables then speak of one message more. -/
theorem accepted_of_check {i : Nat} (h : t.Tracks before) (hcheck : t.check i m = .ok t') :
    AcceptedAfter before m ∧ t'.Tracks (before ++ [m]) := by
  rw [Turn.check] at hcheck
  simp only [bind_eq_ok] at hcheck
  obtain ⟨r, hrole, content, hcontent, ⟨⟩, hcommon, hown⟩ := hcheck
  rw [Turn.common, guard_eq_ok, guard_eq_ok, guard_eq_ok, guard_eq_ok] at hcommon
  obtain ⟨hlate, hcalls, hid, hblank, -⟩ := hcommon
  have hby := isBy_of_role (role_of_checkRole hrole)
  obtain ⟨role, content', toolCallId, toolCalls⟩ := m
  obtain rfl : role = _ := role_of_checkRole hrole
  obtain rfl : content' = _ := content_of_checkContent hcontent
  have hnone : r ≠ .assistant → toolCalls = [] := by
    intro hr
    by_contra hne
    exact hcalls ⟨by simpa using hne, hr⟩
  have hnull : r ≠ .tool → toolCallId = .null := by
    intro hr
    rw [← namesCall_eq_false (m := ⟨_, _, toolCallId, _⟩), ← Bool.not_eq_true]
    exact fun hnames => hid ⟨hnames, hr⟩
  have hspoken : r = .system ∨ r = .user → Text.isBlankText content = false := by
    intro hr
    rw [← Bool.not_eq_true]
    exact fun hb => hblank ⟨hr, hb⟩
  cases r with
  | system =>
      obtain rfl := Except.ok.inj hown
      obtain rfl := hnone (by simp)
      obtain rfl := hnull (by simp)
      have hbegun : t.begun = false := by
        rw [← Bool.not_eq_true]
        exact fun hb => hlate ⟨rfl, hb⟩
      refine ⟨.system (h.begun hbegun) (hspoken (.inl rfl)), fun _ b hb => ?_, fun hp => ?_⟩
      · rcases List.mem_append.mp hb with hb | hb
        · exact h.begun hbegun b hb
        · obtain rfl := List.mem_singleton.mp hb
          rw [hby]
          rfl
      · exact absurd hp (by simp)
  | user =>
      obtain rfl := Except.ok.inj hown
      obtain rfl := hnone (by simp)
      obtain rfl := hnull (by simp)
      refine ⟨.user (hspoken (.inr rfl)), fun hb => ?_, fun hp => ?_⟩
      · exact absurd hb (by simp)
      · exact absurd hp (by simp)
  | assistant =>
      obtain rfl := hnull (by simp)
      rw [Turn.assistant, guard_eq_ok, exceptMap_eq_ok] at hown
      obtain ⟨hvoiced, ids, hids, rfl⟩ := hown
      obtain ⟨rfl, haccepted, -⟩ := acceptedCalls_of_check hids
      have hspoken' : content ≠ "" ∨ toolCalls ≠ [] := by
        simpa [or_iff_not_imp_left] using hvoiced
      refine ⟨.assistant hspoken' haccepted, fun hb => absurd hb (by simp), fun _ => ?_⟩
      exact ⟨_, mayAnswer_self (by rw [hby]; rfl), by simp⟩
  | tool =>
      obtain rfl := hnone (by simp)
      rw [Turn.tool, guard_eq_ok, guard_eq_ok, wrongType_eq_ok, guard_eq_ok, guard_eq_ok] at hown
      obtain ⟨hgiven, hprevious, hkey, -, hamong, hnext⟩ := hown
      obtain rfl := Except.ok.inj hnext
      simp only [Bool.not_eq_true', Bool.not_eq_false] at hgiven hkey hamong
      obtain ⟨asker, hasker, hout⟩ := h.asked (by
        by_contra hno
        exact hprevious (not_or.mp hno))
      have hasked : ∃ c ∈ asker.toolCalls, toolCallId.sameKey c.id = true := by
        rw [hout, Json.isAmong, List.any_map, List.any_eq_true] at hamong
        exact hamong
      refine ⟨.tool hgiven hkey hasker hasked, fun hb => absurd hb (by simp), fun _ => ?_⟩
      exact ⟨asker, hasker.snoc (by rw [hby]; rfl), hout⟩

/-- Each message of a list is accepted after the ones before it. -/
def AcceptedMessages (ms : List RequestMessage) : Prop :=
  ∀ before m after, ms = before ++ m :: after → AcceptedAfter before m

theorem acceptedMessages_nil : AcceptedMessages [] := by
  intro before m after h
  exact absurd h (by simp)

theorem acceptedMessages_snoc (h : AcceptedMessages before) (hm : AcceptedAfter before m) :
    AcceptedMessages (before ++ [m]) := by
  intro earlier b after hsplit
  rcases List.eq_nil_or_concat after with rfl | ⟨after, last, rfl⟩
  · obtain ⟨rfl, hb⟩ := List.append_inj' hsplit rfl
    rwa [← List.singleton_inj.mp hb]
  · rw [List.concat_eq_append, ← List.cons_append, ← List.append_assoc] at hsplit
    obtain ⟨rfl, -⟩ := List.append_inj' hsplit rfl
    exact h _ _ _ rfl

theorem AcceptedMessages.of_append {after : List RequestMessage}
    (h : AcceptedMessages (before ++ after)) : AcceptedMessages before := by
  intro earlier b rest hsplit
  exact h earlier b (rest ++ after) (by rw [hsplit]; simp)

theorem AcceptedAfter.calls (h : AcceptedAfter before m) : AcceptedCalls m.toolCalls := by
  cases h with
  | assistant hvoiced hcalls => exact hcalls
  | _ => exact acceptedCalls_nil

/-- The calls that may be answered have been accepted. -/
theorem AcceptedMessages.calls (h : AcceptedMessages before) {asker : RequestMessage}
    (hasker : MayAnswer before asker) : AcceptedCalls asker.toolCalls := by
  obtain ⟨earlier, between, hsplit, -⟩ := hasker
  exact (h earlier asker between hsplit).calls

/-- A pass that comes through has accepted all messages. -/
theorem acceptedMessages_of_checkEach {i : Nat} {ms : List RequestMessage} (h : t.Tracks before)
    (hbefore : AcceptedMessages before) (hcheck : checkEach Turn.check t i ms = .ok t') :
    AcceptedMessages (before ++ ms) := by
  induction ms generalizing before t i with
  | nil => rwa [List.append_nil]
  | cons m ms ih =>
      rw [checkEach_cons, bind_eq_ok] at hcheck
      obtain ⟨next, hm, hrest⟩ := hcheck
      obtain ⟨haccepted, htracks⟩ := accepted_of_check h hm
      rw [List.append_cons]
      exact ih htracks (acceptedMessages_snoc hbefore haccepted) hrest

/-! ## Accepted requests -/

/-- What there is to rely on in a request that was accepted. -/
structure Request.Accepted (r : Request) : Prop where
  nonempty : r.messages ≠ []
  messages : AcceptedMessages r.messages
  toolNames : ∀ t ∈ r.tools, ∃ name, t.name = .text name
  toolChoice : r.toolChoice = .null ∨ ∃ choice, r.toolChoice = .text choice
  settings : ∀ s, r.setting s = .null ∨
    ∃ x, s.number? (r.setting s) = some x ∧ x.isFinite = true
  stops : ∀ stops, r.stop = some stops → ∀ v ∈ stops, ∃ s, v = .text s ∧ s ≠ ""

theorem Request.Accepted.formed {r : Request} (h : r.Accepted) (hm : m ∈ r.messages) :
    m.Formed := by
  obtain ⟨before, after, hsplit⟩ := List.append_of_mem hm
  exact (h.messages before m after hsplit).formed

theorem names_of_checkTools {i : Nat} {names names' : List String} {tools : List Tool}
    (h : checkEach Tool.check names i tools = .ok names') :
    ∀ t ∈ tools, ∃ name, t.name = .text name := by
  induction tools generalizing names i with
  | nil => simp
  | cons tool tools ih =>
      rw [checkEach_cons, bind_eq_ok] at h
      obtain ⟨next, htool, hrest⟩ := h
      refine List.forall_mem_cons.mpr ⟨?_, ih hrest⟩
      unfold Tool.check at htool
      split at htool
      · next name hname => exact ⟨name, hname⟩
      · exact absurd htool (by simp [refuse])

theorem text_of_checkToolChoice {choice : Json} {names : List String}
    (h : checkToolChoice choice names = .ok ()) :
    choice = .null ∨ ∃ s, choice = .text s := by
  unfold checkToolChoice at h
  split at h
  · exact .inl rfl
  · exact .inr ⟨_, rfl⟩
  · rw [guard_eq_ok, wrongType_eq_ok] at h
    obtain ⟨-, -, hknown⟩ := h
    cases choice with
    | text s => exact .inr ⟨s, rfl⟩
    | _ => exact absurd hknown (by simp [Json.text?, refuse])

theorem finite_of_check {s : Setting} {v : Json} (h : s.check v = .ok ()) :
    v = .null ∨ ∃ x, s.number? v = some x ∧ x.isFinite = true := by
  unfold Setting.check at h
  split at h
  · exact .inl rfl
  · split at h
    · exact absurd h (by simp [refuse])
    · next x hx =>
      rw [guard_eq_ok] at h
      exact .inr ⟨x, hx, by simpa using h.1⟩

theorem finite_of_checkSettings {value : Setting → Json} (h : checkSettings value = .ok ())
    (s : Setting) : value s = .null ∨ ∃ x, s.number? (value s) = some x ∧ x.isFinite = true := by
  have hmem : s ∈ Setting.all := by cases s <;> simp [Setting.all]
  exact finite_of_check (forM_eq_ok.mp h s hmem)

theorem texts_of_checkStops {stops : List Json} (h : checkStops stops = .ok ()) :
    ∀ v ∈ stops, ∃ s, v = .text s ∧ s ≠ "" := by
  rw [checkStops, guard_eq_ok] at h
  obtain ⟨-, h⟩ := h
  split at h
  · next hall =>
    intro v hv
    have hstop := List.all_eq_true.mp hall v hv
    cases v with
    | text s => exact ⟨s, rfl, by simpa [isStop] using hstop⟩
    | _ => exact absurd hstop (by simp [isStop])
  · exact absurd h (by simp [refuse])

/-- **What validation lets through can be relied on.** -/
theorem accepted_of_validate {r : Request} (h : r.validate = .ok ()) : r.Accepted := by
  have hnonempty : r.messages ≠ [] := by
    intro hnil
    unfold Request.validate at h
    simp [hnil, refuse, bind, Except.bind] at h
  unfold Request.validate at h
  rw [if_neg (by simpa using hnonempty)] at h
  simp only [bind_eq_ok] at h
  obtain ⟨names, htools, ⟨⟩, hchoice, ⟨⟩, hsettings, hrest⟩ := h
  have hstops : (∀ stops, r.stop = some stops → checkStops stops = .ok ()) ∧
      checkMessages r.messages = .ok () := by
    split at hrest
    · next hnone => exact ⟨fun stops hsome => absurd (hnone.symm.trans hsome) (by simp), hrest⟩
    · next stops hsome =>
      obtain ⟨⟨⟩, hstops, hmessages⟩ := bind_eq_ok.mp hrest
      refine ⟨fun stops' hsome' => ?_, hmessages⟩
      rwa [← Option.some.inj (hsome.symm.trans hsome')]
  obtain ⟨hstops, hmessages⟩ := hstops
  obtain ⟨t, hpass, -⟩ := exceptMap_eq_ok.mp hmessages
  exact {
    nonempty := hnonempty
    messages := acceptedMessages_of_checkEach tracks_nil acceptedMessages_nil hpass
    toolNames := names_of_checkTools htools
    toolChoice := text_of_checkToolChoice hchoice
    settings := finite_of_checkSettings hsettings
    stops := fun stops hsome => texts_of_checkStops (hstops stops hsome) }

/-- A conversation in which the model calls a tool, and what the tool reports. -/
def errand (report : String) : Request :=
  { messages := [
      { role := .text "user", content := .text "What is the weather?" },
      { role := .text "assistant", toolCalls := [{ id := .text "c1", name := .text "look" }] },
      { role := .text "tool", content := .text report, toolCallId := .text "c1" }]
    tools := [{ name := .text "look", description := .text "Looks out." }] }

theorem errand_validate (report : String) : (errand report).validate = .ok () := rfl

end ChatClient
