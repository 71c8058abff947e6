import Mathlib.Order.Bounds.Basic
import ChatClient.Failure
import ChatClient.Request.Validation

/-!
# What validation lets through as a conversation

Validation passes once over the messages with four variables. What it decides can be said
without them: `Fits before m` is what a message must be like after the ones before it, and a
conversation is a list in which each message fits. A tool message fits if the call it names
is awaited: the last assistant message asked for it, and only tool messages with other
answers have come since.

`Stands` ties the variables to the messages so far. They say which calls are awaited, and
that is all that the next message needs of them.
-/

namespace ChatClient

open Json (text)

/-! ## Conversations -/

/-- The call `id` waits for its answer: an assistant message asked for it, and only tool
messages that answer other calls stand after that one. -/
def Awaits (before : List Message) (id : String) : Prop :=
  ∃ earlier a between, before = earlier ++ a :: between ∧ a.role = Role.assistant.name ∧
    (∃ c ∈ a.toolCalls, c.id = id) ∧
    ∀ b ∈ between, b.role = Role.tool.name ∧ b.toolCallId ≠ some id

/-- Message `m` may come after the messages `before`. -/
structure Fits (before : List Message) (m : Message) : Prop where
  role : ∃ r : Role, m.role = r.name
  system : m.role = Role.system.name → ∀ b ∈ before, b.role = Role.system.name
  toolCalls : m.toolCalls ≠ [] → m.role = Role.assistant.name
  toolCallId : m.toolCallId ≠ none → m.role = Role.tool.name
  content : m.role = Role.system.name ∨ m.role = Role.user.name →
    ∃ c ∈ m.content.toList, Text.isBlank c = false
  assistant : m.role = Role.assistant.name → (m.content ≠ "" ∨ m.toolCalls ≠ []) ∧
    (∀ c ∈ m.toolCalls, c.id ≠ "" ∧ c.name ≠ "") ∧ (m.toolCalls.map (·.id)).Nodup
  tool : m.role = Role.tool.name → ∃ id, m.toolCallId = some id ∧ id ≠ "" ∧ Awaits before id

/-- Each message may come after the ones before it. -/
def Conversation (ms : List Message) : Prop :=
  ∀ (i : Nat) (m : Message), ms[i]? = some m → Fits (ms.take i) m

variable {before ms : List Message} {m : Message} {id : String}

theorem conversation_nil : Conversation [] := fun _ _ h => absurd h (by simp)

theorem conversation_snoc : Conversation (before ++ [m]) ↔ Conversation before ∧ Fits before m := by
  constructor
  · intro h
    constructor
    · intro i b hb
      obtain ⟨hi, -⟩ := List.getElem?_eq_some_iff.mp hb
      have hfits := h i b ((List.getElem?_append_left hi).trans hb)
      rwa [List.take_append_of_le_length (Nat.le_of_lt hi)] at hfits
    · have hfits := h before.length m List.getElem?_concat_length
      rwa [List.take_left] at hfits
  · intro h i b hb
    obtain ⟨hbefore, hm⟩ := h
    -- a position among `before`, the one of `m`, or one behind the end
    rcases Nat.lt_trichotomy i before.length with hi | rfl | hi
    · rw [List.getElem?_append_left hi] at hb
      rw [List.take_append_of_le_length (Nat.le_of_lt hi)]
      exact hbefore i b hb
    · obtain rfl := Option.some.inj (List.getElem?_concat_length.symm.trans hb)
      rwa [List.take_left]
    · rw [List.getElem?_eq_none (by simp; omega)] at hb
      exact absurd hb (by simp)

/-- What comes first in a conversation is one. -/
theorem Conversation.take (h : Conversation ms) (n : Nat) : Conversation (ms.take n) := by
  intro i b hb
  rw [List.getElem?_take] at hb
  split at hb
  · next hi =>
      rw [List.take_take, Nat.min_eq_left (Nat.le_of_lt hi)]
      exact h i b hb
  · exact absurd hb (by simp)

/-- Which calls are awaited after one more message. -/
theorem awaits_snoc : Awaits (before ++ [m]) id ↔
    (m.role = Role.assistant.name ∧ ∃ c ∈ m.toolCalls, c.id = id) ∨
      (m.role = Role.tool.name ∧ m.toolCallId ≠ some id ∧ Awaits before id) := by
  constructor
  · intro h
    obtain ⟨earlier, a, between, hsplit, ha, hc, hb⟩ := h
    -- `m` is the message that asked, or the last one after it
    rcases List.eq_nil_or_concat between with rfl | ⟨between', b, rfl⟩
    · obtain ⟨-, hm⟩ := List.append_inj' hsplit rfl
      obtain rfl := List.singleton_inj.mp hm
      exact Or.inl ⟨ha, hc⟩
    · rw [List.concat_eq_append] at hsplit hb
      rw [← List.cons_append, ← List.append_assoc] at hsplit
      obtain ⟨hbefore, hm⟩ := List.append_inj' hsplit rfl
      obtain rfl := List.singleton_inj.mp hm
      obtain ⟨hrole, hid⟩ := hb m (by simp)
      exact Or.inr ⟨hrole, hid, earlier, a, between', hbefore, ha, hc,
        fun b hmem => hb b (List.mem_append_left _ hmem)⟩
  · intro h
    rcases h with ⟨ha, hc⟩ | ⟨hrole, hid, earlier, a, between, rfl, ha, hc, hb⟩
    · exact ⟨before, m, [], rfl, ha, hc, fun _ h => absurd h List.not_mem_nil⟩
    · refine ⟨earlier, a, between ++ [m], by simp, ha, hc, ?_⟩
      intro b hmem
      rcases List.mem_append.mp hmem with hmem | hmem
      · exact hb b hmem
      · obtain rfl := List.mem_singleton.mp hmem
        exact ⟨hrole, hid⟩

/-! ## Checks that decide -/

/-- A check lets through just what `P` holds of, with a result that `Q` holds of, and
otherwise finds a fault in message `i`. -/
def Decides {α : Type} (i : Nat) (P : Prop) (Q : α → Prop) : Except Objection α → Prop
  | .ok a => P ∧ Q a
  | .error o => ¬ P ∧ ∃ f, o = .fault f ∧ f.place.message? = some i

namespace Decides

variable {α β : Type} {i : Nat} {P R : Prop} {Q : α → Prop} {Q' : β → Prop}
  {r : Except Objection α} {next : α → Except Objection β}

theorem iff (h : Decides i P Q r) (hP : P ↔ R) : Decides i R Q r := by
  cases r with
  | ok a => exact ⟨hP.mp h.1, h.2⟩
  | error o => exact ⟨fun hR => h.1 (hP.mpr hR), h.2⟩

theorem bind (h : Decides i P Q r) (hnext : ∀ a, Q a → Decides i R Q' (next a)) :
    Decides i (P ∧ R) Q' (r >>= next) := by
  cases r with
  | ok a => exact (hnext a h.2).iff ⟨fun hR => ⟨h.1, hR⟩, And.right⟩
  | error o => exact ⟨fun hP => h.1 hP.1, h.2⟩

theorem map {g : α → β} (h : Decides i P Q r) (hg : ∀ a, Q a → Q' (g a)) :
    Decides i P Q' (r.map g) := by
  cases r with
  | ok a => exact ⟨h.1, hg a h.2⟩
  | error o => exact h

theorem refused (place : Place) (cause : Refusal) (hplace : place.message? = some i) (hP : ¬ P) :
    Decides i P Q (refuse place cause) :=
  ⟨hP, _, rfl, hplace⟩

theorem guarded {c : Prop} [Decidable c] {place : Place} {cause : Refusal}
    (hplace : place.message? = some i) (h : ¬ c → Decides i P Q r) :
    Decides i (¬ c ∧ P) Q (if c then refuse place cause else r) := by
  by_cases hc : c
  · rw [if_pos hc]
    exact refused place cause hplace (fun hP => hP.1 hc)
  · rw [if_neg hc]
    exact (h hc).iff ⟨fun hP => ⟨hc, hP⟩, And.right⟩

end Decides

theorem checkEach_cons {σ α ε : Type} (check : σ → Nat → α → Except ε σ) (s : σ) (i : Nat)
    (a : α) (as : List α) :
    checkEach check s i (a :: as) = check s i a >>= fun s => checkEach check s (i + 1) as := by
  rw [checkEach]
  cases check s i a <;> rfl

/-! ## The checks of each role -/

/-- One call of an assistant message, after calls with some ids. -/
theorem checkCall_decides (i j : Nat) (c : ToolCall) (ids : List String) :
    Decides i ((c.id ≠ "" ∧ c.name ≠ "") ∧ c.id ∉ ids)
      (fun ids' => ids' = (ids ++ [c.id]).map text)
      (RequestCall.check i (ids.map text) j c.toRequest) := by
  have hid : c.toRequest.id = text c.id := rfl
  have hname : c.toRequest.name = text c.name := rfl
  have hkey : ¬ (!(text c.id).isKey) = true := Bool.false_ne_true
  rw [RequestCall.check, hid, hname, if_neg hkey, Json.isAmong_text]
  refine Decides.iff (Decides.guarded rfl fun _ => Decides.guarded rfl fun _ =>
    Decides.guarded (P := True) rfl fun _ => ⟨trivial, by simp⟩) ?_
  simp [Json.isGiven, and_assoc]

/-- All of its calls. -/
theorem checkCalls_decides (i j : Nat) (calls : List ToolCall) (ids : List String) :
    Decides i ((∀ c ∈ calls, (c.id ≠ "" ∧ c.name ≠ "") ∧ c.id ∉ ids) ∧
        (calls.map (·.id)).Nodup)
      (fun ids' => ids' = (ids ++ calls.map (·.id)).map text)
      (checkEach (RequestCall.check i) (ids.map text) j (calls.map ToolCall.toRequest)) := by
  induction calls generalizing ids j with
  | nil =>
      refine ⟨⟨?_, List.nodup_nil⟩, by simp⟩
      intro c hc
      exact absurd hc List.not_mem_nil
  | cons c calls ih =>
      rw [List.map_cons (f := ToolCall.toRequest), checkEach_cons]
      have hrest : ∀ ids', ids' = (ids ++ [c.id]).map text →
          Decides i ((∀ d ∈ calls, (d.id ≠ "" ∧ d.name ≠ "") ∧ d.id ∉ ids ++ [c.id]) ∧
              (calls.map (·.id)).Nodup)
            (fun ids' => ids' = (ids ++ (c :: calls).map (·.id)).map text)
            (checkEach (RequestCall.check i) ids' (j + 1) (calls.map ToolCall.toRequest)) := by
        intro ids' hids'
        have hcalls := ih (j + 1) (ids ++ [c.id])
        rw [List.append_assoc, List.singleton_append] at hcalls
        rwa [hids']
      refine ((checkCall_decides i j c ids).bind hrest).iff ?_
      -- later ids are new to the earlier ones just if the earlier ones are new to them
      simp only [List.map_cons, List.forall_mem_cons, List.nodup_cons, List.mem_append,
        List.mem_singleton, List.mem_map, not_or, not_exists, not_and]
      constructor
      · intro h
        obtain ⟨hc, hcalls, hnd⟩ := h
        exact ⟨⟨hc, fun d hd => ⟨(hcalls d hd).1, (hcalls d hd).2.1⟩⟩,
          fun d hd => (hcalls d hd).2.2, hnd⟩
      · intro h
        obtain ⟨⟨hc, hcalls⟩, hnot, hnd⟩ := h
        exact ⟨hc, fun d hd => ⟨(hcalls d hd).1, (hcalls d hd).2, hnot d hd⟩, hnd⟩

/-! ## The invariant and its step -/

/-- What the variables of the pass say about the messages so far. -/
structure Stands (t : Turn) (before : List Message) : Prop where
  begun : t.begun = false ↔ ∀ b ∈ before, b.role = Role.system.name
  /-- A call is awaited if it was asked for, has no answer, and an answer may come now. -/
  awaits : ∃ asked answered : List String,
    t.outstanding = asked.map text ∧ t.answered = answered.map text ∧
      ∀ id, Awaits before id ↔
        (t.previous = some .assistant ∨ t.previous = some .tool) ∧ id ∈ asked ∧ id ∉ answered

theorem stands_nil : Stands {} [] where
  begun := by simp
  awaits := ⟨[], [], rfl, rfl, fun id => by simp [Awaits]⟩

theorem roleName_inj {r s : Role} : r.name = s.name ↔ r = s := by
  constructor
  · intro h
    have hname := Role.ofName?_name r
    rw [h, Role.ofName?_name] at hname
    exact (Option.some.inj hname).symm
  · exact congrArg Role.name

/-- What it means to fit, for a message of a known role. -/
theorem fits_iff {r : Role} (hr : m.role = r.name) :
    Fits before m ↔
      ((r = .system → ∀ b ∈ before, b.role = Role.system.name) ∧
        (m.toolCalls ≠ [] → r = .assistant) ∧ (m.toolCallId ≠ none → r = .tool) ∧
        (r = .system ∨ r = .user → ∃ c ∈ m.content.toList, Text.isBlank c = false)) ∧
      (r = .assistant → (m.content ≠ "" ∨ m.toolCalls ≠ []) ∧
        (∀ c ∈ m.toolCalls, c.id ≠ "" ∧ c.name ≠ "") ∧ (m.toolCalls.map (·.id)).Nodup) ∧
      (r = .tool → ∃ id, m.toolCallId = some id ∧ id ≠ "" ∧ Awaits before id) := by
  constructor
  · intro h
    obtain ⟨-, hsystem, hcalls, hcallId, hcontent, hassistant, htool⟩ := h
    simp only [hr, roleName_inj] at hsystem hcalls hcallId hcontent hassistant htool
    exact ⟨⟨hsystem, hcalls, hcallId, hcontent⟩, hassistant, htool⟩
  · intro h
    obtain ⟨⟨hsystem, hcalls, hcallId, hcontent⟩, hassistant, htool⟩ := h
    constructor
    · exact ⟨r, hr⟩
    all_goals simpa only [hr, roleName_inj]

variable {t : Turn}

/-- The checks that come before those of a role's own. -/
theorem common_decides (i : Nat) (h : Stands t before) (r : Role) (m : Message) :
    Decides i ((r = .system → ∀ b ∈ before, b.role = Role.system.name) ∧
        (m.toolCalls ≠ [] → r = .assistant) ∧ (m.toolCallId ≠ none → r = .tool) ∧
        (r = .system ∨ r = .user → ∃ c ∈ m.content.toList, Text.isBlank c = false))
      (fun _ => True) (t.common i r m.content m.toRequest) := by
  have hcalls : m.toRequest.toolCalls.isEmpty = m.toolCalls.isEmpty := by
    simp [Message.toRequest]
  have hnames : m.toRequest.namesCall = m.toolCallId.isSome := by
    cases h : m.toolCallId <;> simp [RequestMessage.namesCall, Message.toRequest, Json.ofText?, h]
  rw [Turn.common, hcalls, hnames, ← h.begun]
  refine Decides.iff (Decides.guarded rfl fun _ => Decides.guarded rfl fun _ =>
    Decides.guarded rfl fun _ => Decides.guarded (P := True) rfl fun _ => ⟨trivial, trivial⟩) ?_
  simp [Text.isBlankText, Option.isSome_iff_ne_none]

theorem assistant_decides (i : Nat) (hr : m.role = Role.assistant.name) :
    Decides i ((m.content ≠ "" ∨ m.toolCalls ≠ []) ∧
        (∀ c ∈ m.toolCalls, c.id ≠ "" ∧ c.name ≠ "") ∧ (m.toolCalls.map (·.id)).Nodup)
      (fun t' => Stands t' (before ++ [m]))
      (Turn.assistant i m.content m.toRequest.toolCalls) := by
  have hcalls : m.toRequest.toolCalls = m.toolCalls.map ToolCall.toRequest := rfl
  rw [Turn.assistant, hcalls]
  refine Decides.iff (Decides.guarded rfl fun _ =>
    (checkCalls_decides i 0 m.toolCalls []).map fun ids hids => ?_) ?_
  · exact {
      begun := by simp [hr, roleName_inj]
      awaits := ⟨[] ++ m.toolCalls.map (·.id), [], hids, rfl, fun id => by
        simp [awaits_snoc, hr, roleName_inj]⟩ }
  · simp [or_iff_not_imp_left]

/-- An answer settles its call and leaves the other ones waiting. -/
theorem awaits_answered (hr : m.role = Role.tool.name) (hid : m.toolCallId = some id) {x : String} :
    Awaits (before ++ [m]) x ↔ x ≠ id ∧ Awaits before x := by
  rw [awaits_snoc, hr, hid]
  constructor
  · intro h
    rcases h with ⟨hrole, -⟩ | ⟨-, hne, hx⟩
    · exact absurd (roleName_inj.mp hrole) (by decide)
    · exact ⟨fun he => hne (congrArg some he.symm), hx⟩
  · intro h
    exact Or.inr ⟨rfl, fun he => h.1 (Option.some.inj he).symm, h.2⟩

theorem tool_decides (i : Nat) (h : Stands t before) (hr : m.role = Role.tool.name) :
    Decides i (∃ id, m.toolCallId = some id ∧ id ≠ "" ∧ Awaits before id)
      (fun t' => Stands t' (before ++ [m])) (t.tool i m.toRequest.toolCallId) := by
  obtain ⟨asked, answered, hasked, hanswered, hawaits⟩ := h.awaits
  cases hid : m.toolCallId with
  | none =>
      have hnull : m.toRequest.toolCallId = .null := by simp [Message.toRequest, Json.ofText?, hid]
      rw [hnull]
      exact Decides.refused (.toolCallId i) .answerWithoutId rfl (by simp)
  | some id =>
      have htext : m.toRequest.toolCallId = text id := by
        simp [Message.toRequest, Json.ofText?, hid]
      have hkey : ¬ (!(text id).isKey) = true := Bool.false_ne_true
      rw [htext, Turn.tool, if_neg hkey, hasked, hanswered, Json.isAmong_text, Json.isAmong_text]
      refine Decides.iff (Decides.guarded rfl fun _ => Decides.guarded rfl fun hprevious =>
        Decides.guarded rfl fun _ => Decides.guarded (P := True) rfl fun _ => ⟨trivial, ?_⟩) ?_
      · -- an answer may come now, as one just did, and so may the next one
        have hspeaker : t.previous = some .assistant ∨ t.previous = some .tool := by
          by_contra hno
          exact hprevious (not_or.mp hno)
        refine {
          begun := by simp [hr, roleName_inj]
          awaits := ⟨asked, id :: answered, rfl, rfl, fun x => ?_⟩ }
        rw [awaits_answered hr hid, hawaits, List.mem_cons, not_or]
        constructor
        · intro hx
          exact ⟨Or.inr rfl, hx.2.2.1, hx.1, hx.2.2.2⟩
        · intro hx
          exact ⟨hx.2.2.1, hspeaker, hx.2.1, hx.2.2.2⟩
      · simp only [hawaits, Option.some.injEq, exists_eq_left', Json.isGiven, Bool.not_not,
          String.isEmpty_iff, decide_eq_true_eq, Bool.not_eq_true', decide_eq_false_iff_not,
          not_not, not_and_or]
        tauto

theorem user_stands (hr : m.role = Role.user.name) :
    Stands { begun := true, previous := some .user } (before ++ [m]) where
  begun := by simp [hr, roleName_inj]
  awaits := ⟨[], [], rfl, rfl, fun id => by simp [awaits_snoc, hr, roleName_inj]⟩

theorem system_stands (h : Stands t before) (hr : m.role = Role.system.name) :
    Stands { begun := t.begun, previous := some .system } (before ++ [m]) where
  begun := by simp [h.begun, List.mem_append, or_imp, forall_and, hr]
  awaits := ⟨[], [], rfl, rfl, fun id => by simp [awaits_snoc, hr, roleName_inj]⟩

theorem checkRole_text (i : Nat) (s : String) :
    checkRole i (text s) =
      (Role.ofName? s).elim (refuse (.role i) (.unknownRole (text s))) Except.ok := by
  have hkey : ¬ (!(text s).isKey) = true := Bool.false_ne_true
  have hname : (text s).text?.bind Role.ofName? = Role.ofName? s := rfl
  rw [checkRole, if_neg hkey, hname]
  cases Role.ofName? s <;> rfl

/-- **One step of the pass.** A message is let through just if it fits after the ones before
it, and then the variables stand for one message more. -/
theorem check_decides (i : Nat) (h : Stands t before) (m : Message) :
    Decides i (Fits before m) (fun t' => Stands t' (before ++ [m])) (t.check i m.toRequest) := by
  have hrole : checkRole i m.toRequest.role = _ := checkRole_text i m.role
  have hcontent : checkContent i m.toRequest.content = .ok m.content := rfl
  rw [Turn.check, hrole, hcontent]
  cases hr : Role.ofName? m.role with
  | none =>
      refine Decides.refused (.role i) _ rfl ?_
      intro hfits
      obtain ⟨r, hrole⟩ := hfits.role
      rw [hrole, Role.ofName?_name] at hr
      exact absurd hr (by simp)
  | some r =>
      have hname := (Role.name_of_ofName? hr).symm
      refine Decides.iff ((common_decides i h r m).bind fun _ _ => ?_) (fits_iff hname).symm
      cases r with
      | assistant => exact (assistant_decides i hname).iff (by simp)
      | tool => exact (tool_decides i h hname).iff (by simp)
      | user => exact ⟨by simp, user_stands hname⟩
      | system => exact ⟨by simp, system_stands h hname⟩

/-! ## The whole pass -/

/-- What the pass over some messages comes to, after a conversation that `t` stands for. -/
theorem checkEach_spec (hbefore : Conversation before) (h : Stands t before) (ms : List Message) :
    match checkEach Turn.check t before.length (ms.map Message.toRequest) with
    | .ok _ => Conversation (before ++ ms)
    | .error o => ∃ i f, Conversation (before ++ ms.take i) ∧
        ¬ Conversation (before ++ ms.take (i + 1)) ∧ o = .fault f ∧
        f.place.message? = some (before.length + i) := by
  induction ms generalizing t before with
  | nil => simpa [checkEach] using hbefore
  | cons m ms ih =>
      have hstep := check_decides before.length h m
      rw [List.map_cons, checkEach]
      cases hcheck : t.check before.length m.toRequest with
      | error o =>
          rw [hcheck] at hstep
          obtain ⟨hnot, f, rfl, hplace⟩ := hstep
          refine ⟨0, f, by simpa using hbefore, ?_, rfl, hplace⟩
          intro hc
          exact hnot (conversation_snoc.mp hc).2
      | ok t' =>
          rw [hcheck] at hstep
          obtain ⟨hfits, hstands⟩ := hstep
          have hrest := ih (conversation_snoc.mpr ⟨hbefore, hfits⟩) hstands
          rw [List.length_append, List.length_singleton] at hrest
          simp only
          split
          · next hrun =>
              rw [hrun] at hrest
              simpa using hrest
          · next o hrun =>
              rw [hrun] at hrest
              obtain ⟨i, f, hpre, hnot, ho, hplace⟩ := hrest
              refine ⟨i + 1, f, ?_, ?_, ho, ?_⟩
              · simpa using hpre
              · simpa using hnot
              · rw [hplace]
                congr 1
                omega

theorem callPath (j k : Nat) (part : String) :
    "messages[" ++ toString j ++ "].tool_calls[" ++ toString k ++ part =
      "messages[" ++ toString j ++ "]." ++ ("tool_calls[" ++ toString k ++ part) := by
  have hcut : "].tool_calls[" = "]." ++ "tool_calls[" := rfl
  rw [hcut]
  simp only [String.append_assoc]

/-- A place in message `i` has a path that begins with that message. -/
theorem path_of_message? {place : Place} {i : Nat} (h : place.message? = some i) :
    ∃ rest, place.path = "messages[" ++ toString i ++ "]." ++ rest := by
  cases place with
  | role j =>
      obtain rfl := Option.some.inj h
      exact ⟨"role", by rw [String.append_assoc]; rfl⟩
  | content j =>
      obtain rfl := Option.some.inj h
      exact ⟨"content", by rw [String.append_assoc]; rfl⟩
  | toolCallId j =>
      obtain rfl := Option.some.inj h
      exact ⟨"tool_call_id", by rw [String.append_assoc]; rfl⟩
  | toolCalls j =>
      obtain rfl := Option.some.inj h
      exact ⟨"tool_calls", by rw [String.append_assoc]; rfl⟩
  | callId j k =>
      obtain rfl := Option.some.inj h
      exact ⟨_, callPath j k "].id"⟩
  | callName j k =>
      obtain rfl := Option.some.inj h
      exact ⟨_, callPath j k "].name"⟩
  | _ => exact absurd h (by simp [Place.message?])

/--
**Validation of the messages, exactly.**

They pass just if they are a conversation. Otherwise the fault lies in the first message by
which they no longer are one, and its path says so.
-/
theorem checkMessages_exact (ms : List Message) :
    (checkMessages (ms.map Message.toRequest) = .ok () ↔ Conversation ms) ∧
      (¬ Conversation ms → ∃ message hint i rest,
        (checkMessages (ms.map Message.toRequest)).mapError Failure.ofObjection =
          .error (.validation message (some ("messages[" ++ toString i ++ "]." ++ rest)) hint) ∧
        IsLeast {i | i < ms.length ∧ ¬ Conversation (ms.take (i + 1))} i) := by
  have hspec := checkEach_spec conversation_nil stands_nil ms
  rw [List.length_nil] at hspec
  unfold checkMessages
  cases hrun : checkEach Turn.check {} 0 (ms.map Message.toRequest) with
  | ok t =>
      rw [hrun] at hspec
      exact ⟨⟨fun _ => hspec, fun _ => rfl⟩, fun hnot => absurd hspec hnot⟩
  | error o =>
      rw [hrun] at hspec
      obtain ⟨i, f, hpre, hnot, rfl, hplace⟩ := hspec
      simp only [List.nil_append, Nat.zero_add] at hpre hnot hplace
      obtain ⟨rest, hpath⟩ := path_of_message? hplace
      have hi : i < ms.length := by
        by_contra hge
        rw [List.take_of_length_le (by omega)] at hpre hnot
        exact hnot hpre
      -- what comes before the faulty message is a conversation, and so is each part of it
      have hleast : IsLeast {i | i < ms.length ∧ ¬ Conversation (ms.take (i + 1))} i := by
        refine ⟨⟨hi, hnot⟩, ?_⟩
        intro k hk
        by_contra hlt
        have hshorter := hpre.take (k + 1)
        rw [List.take_take, Nat.min_eq_left (by omega)] at hshorter
        exact hk.2 hshorter
      refine ⟨⟨fun h => absurd h (by simp [Except.map]), fun h => absurd (h.take _) hnot⟩, ?_⟩
      intro _
      refine ⟨f.cause.message, f.cause.hint?, i, rest, ?_, hleast⟩
      rw [← hpath]
      rfl

/-- A second answer to one call is refused where it stands. -/
example :
    (checkMessages ([.user "hi", .assistant "" [{ id := "a", name := "f" }], .tool "a" "1",
      .tool "a" "2"].map Message.toRequest)).mapError Failure.ofObjection =
      .error (.validation "Tool call 'a' was already answered"
        (some "messages[3].tool_call_id") none) := by
  rfl

end ChatClient
