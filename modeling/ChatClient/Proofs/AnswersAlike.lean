import ChatClient.Dialect
import ChatClient.Proofs.ReadAlike
import ChatClient.Proofs.Readings

/-!
# Answers that are read alike

A complete answer is decoded and then read: calls without an id get one, and a finish code that is
not known is logged. Of the texts of an answer only the finish code comes into a log line, and none
comes into a failure. So two answers that are the same but for texts that say the same to the
library fail alike, or neither of them does, and they leave the same ledger, as long as they have
the same finish code.
-/

namespace ChatClient

open Payload

/-! ## Decoding -/

namespace Groq

variable {T : String → String → Prop}

/-- What matters of a call: whether it has an id, and a name. -/
structure CallAlike (T : String → String → Prop) (c d : Call) : Prop where
  id : Option.Rel T c.id d.id
  name : T c.function.name d.function.name

/-- What matters of a choice. -/
structure ChoiceAlike (T : String → String → Prop) (c d : Choice) : Prop where
  toolCalls : Option.Rel (List.Forall₂ (CallAlike T)) c.message.toolCalls d.message.toolCalls

theorem usage_alike (hT : SaysTheSame T) : DecodesAlike T usage fun _ _ => True := by
  refine fields_alike fun es fs h => ?_
  have hprompt := optional_alike hT h ["prompt_tokens"] (by decide) (whole_alike hT)
  have hcompletion := optional_alike hT h ["completion_tokens"] (by decide) (whole_alike hT)
  have htotal := optional_alike hT h ["total_tokens"] (by decide) (whole_alike hT)
  exact ((hprompt.map fun _ _ _ _ _ _ _ _ _ => trivial).seq hcompletion).seq htotal

theorem callFunction_alike (hT : SaysTheSame T) :
    DecodesAlike T callFunction fun f g => T f.name g.name := by
  refine fields_alike fun es fs h => ?_
  have hname := required_alike hT h ["name"] (by decide) text_alike
  have harguments := optional_alike hT h ["arguments"] (by decide) text_alike
  exact (hname.map fun _ _ hname _ _ _ => hname).seq harguments

theorem call_alike (hT : SaysTheSame T) : DecodesAlike T call (CallAlike T) := by
  refine fields_alike fun es fs h => ?_
  have hid := optional_alike hT h ["id"] (by decide) text_alike
  have hfunction := required_alike hT h ["function"] (by decide) (callFunction_alike hT)
  exact (hid.map fun _ _ hid _ _ hname => ⟨hid, hname⟩).seq hfunction

theorem answer_alike (hT : SaysTheSame T) :
    DecodesAlike T answer fun a b =>
      Option.Rel (List.Forall₂ (CallAlike T)) a.toolCalls b.toolCalls := by
  refine fields_alike fun es fs h => ?_
  have hcontent := optional_alike hT h ["content"] (by decide) text_alike
  have hcalls := optional_alike hT h ["tool_calls"] (by decide) (listOf_alike (call_alike hT))
  exact (hcontent.map fun _ _ _ _ _ hcalls => hcalls).seq hcalls

theorem choice_alike (hT : SaysTheSame T) : DecodesAlike T choice (ChoiceAlike T) := by
  refine fields_alike fun es fs h => ?_
  have hmessage := required_alike hT h ["message"] (by decide) (answer_alike hT)
  have hreason := required_alike hT h ["finish_reason"] (by decide) text_alike
  exact (hmessage.map fun _ _ hcalls _ _ _ => ⟨hcalls⟩).seq hreason

theorem firstChoice_alike (hT : SaysTheSame T) : DecodesAlike T firstChoice (ChoiceAlike T) := by
  intro v w h
  have hlist := listOf_alike (choice_alike hT) v w h
  unfold firstChoice
  generalize listOf choice v = x, listOf choice w = y at hlist
  cases hlist with
  | ok h =>
      cases h with
      | nil => exact .faulty _
      | cons h _ => exact .ok h
  | faulty ps => exact .faulty ps

theorem completion_alike (hT : SaysTheSame T) :
    DecodesAlike T completion fun c d => ChoiceAlike T c.choice d.choice := by
  refine fields_alike fun es fs h => ?_
  have hid := optional_alike hT h ["id"] (by decide) text_alike
  have hmodel := optional_alike hT h ["model"] (by decide) text_alike
  have hchoice := required_alike hT h ["choices"] (by decide) (firstChoice_alike hT)
  have husage := optional_alike hT h ["usage"] (by decide) (usage_alike hT)
  exact (((hid.map fun _ _ _ _ _ _ _ _ hchoice _ _ _ => hchoice).seq hmodel).seq hchoice).seq
    husage

end Groq

namespace Gemini

variable {T : String → String → Prop}

/-- What matters of a part: whether it is a call, and then whether that has an id, and a name. -/
def PartAlike (T : String → String → Prop) (p q : PartPayload) : Prop :=
  Option.Rel (fun f g => Option.Rel T f.id g.id ∧ T f.name g.name) p.functionCall q.functionCall

/-- What matters of a candidate. -/
structure CandidateAlike (T : String → String → Prop) (c d : Candidate) : Prop where
  parts : List.Forall₂ (PartAlike T) c.parts d.parts
  finishReason : Option.Rel T c.finishReason d.finishReason

/-- What matters of a generated response. -/
structure GeneratedAlike (T : String → String → Prop) (g h : Generated) : Prop where
  candidates : List.Forall₂ (CandidateAlike T) g.candidates h.candidates
  blockReason : Option.Rel T g.promptFeedback.join h.promptFeedback.join

theorem functionCall_alike (hT : SaysTheSame T) :
    DecodesAlike T functionCall fun f g => Option.Rel T f.id g.id ∧ T f.name g.name := by
  refine fields_alike fun es fs h => ?_
  have hid := optional_alike hT h ["id"] (by decide) text_alike
  have hname := required_alike hT h ["name"] (by decide) text_alike
  have hargs := optional_alike hT h ["args"] (by decide) object_alike
  exact ((hid.map fun _ _ hid _ _ hname _ _ _ => ⟨hid, hname⟩).seq hname).seq hargs

theorem partPayload_alike (hT : SaysTheSame T) : DecodesAlike T partPayload (PartAlike T) := by
  refine fields_alike fun es fs h => ?_
  have htext := optional_alike hT h ["text"] (by decide) text_alike
  have hthought := optional_alike hT h ["thought"] (by decide) (flag_alike hT)
  have hcall := optional_alike hT h ["functionCall", "function_call"] (by decide)
    (functionCall_alike hT)
  exact ((htext.map fun _ _ _ _ _ _ _ _ hcall => hcall).seq hthought).seq hcall

theorem contentPayload_alike (hT : SaysTheSame T) :
    DecodesAlike T contentPayload fun c d => List.Forall₂ (PartAlike T) c.parts d.parts := by
  refine fields_alike fun es fs h => ?_
  have hrole := optional_alike hT h ["role"] (by decide) text_alike
  have hparts := withDefault_alike hT h ["parts"] (by decide) (listOf_alike (partPayload_alike hT))
    .nil
  exact (hrole.map fun _ _ _ _ _ hparts => hparts).seq hparts

theorem candidate_alike (hT : SaysTheSame T) : DecodesAlike T candidate (CandidateAlike T) := by
  refine fields_alike fun es fs h => ?_
  have hcontent := optional_alike hT h ["content"] (by decide) (contentPayload_alike hT)
  have hreason := optional_alike hT h ["finishReason", "finish_reason"] (by decide) text_alike
  refine (hcontent.map fun c d hcontent _ _ hreason => ⟨?_, hreason⟩).seq hreason
  cases hcontent with
  | none => exact .nil
  | some hparts => exact hparts

theorem usage_alike (hT : SaysTheSame T) : DecodesAlike T usage fun _ _ => True := by
  refine fields_alike fun es fs h => ?_
  have hprompt := optional_alike hT h ["promptTokenCount", "prompt_token_count"] (by decide)
    (whole_alike hT)
  have hcandidates := optional_alike hT h ["candidatesTokenCount", "candidates_token_count"]
    (by decide) (whole_alike hT)
  have htotal := optional_alike hT h ["totalTokenCount", "total_token_count"] (by decide)
    (whole_alike hT)
  exact ((hprompt.map fun _ _ _ _ _ _ _ _ _ => trivial).seq hcandidates).seq htotal

theorem promptFeedback_alike (hT : SaysTheSame T) :
    DecodesAlike T promptFeedback (Option.Rel T) :=
  fields_alike fun _ _ h =>
    optional_alike hT h ["blockReason", "block_reason"] (by decide) text_alike

theorem generated_alike (hT : SaysTheSame T) : DecodesAlike T generated (GeneratedAlike T) := by
  refine fields_alike fun es fs h => ?_
  have hcandidates := withDefault_alike hT h ["candidates"] (by decide)
    (listOf_alike (candidate_alike hT)) .nil
  have husage := optional_alike hT h ["usageMetadata", "usage_metadata"] (by decide)
    (usage_alike hT)
  have hfeedback := optional_alike hT h ["promptFeedback", "prompt_feedback"] (by decide)
    (promptFeedback_alike hT)
  have hversion := optional_alike hT h ["modelVersion", "model_version"] (by decide) text_alike
  have hid := optional_alike hT h ["responseId", "response_id"] (by decide) text_alike
  refine ((((hcandidates.map
    fun _ _ hcandidates _ _ _ _ _ hfeedback _ _ _ _ _ _ => ⟨hcandidates, ?_⟩).seq
      husage).seq hfeedback).seq hversion).seq hid
  cases hfeedback with
  | none => exact .none
  | some h => exact h

end Gemini

/-! ## Reading -/

namespace Reading

variable {α β γ δ : Type} {R : α → β → Prop} {S : γ → δ → Prop} {m : Reading α} {n : Reading β}

/-- From each ledger, both fail alike, or neither of them does, and they leave the same ledger. -/
def RunsAlike (R : α → β → Prop) (m : Reading α) (n : Reading β) : Prop :=
  ∀ l, FailAlike R (m.run l).1 (n.run l).1 ∧ (m.run l).2 = (n.run l).2

theorem runsAlike_pure {a : α} {b : β} (h : R a b) : RunsAlike R (pure a) (pure b) :=
  fun _ => ⟨.ok h, rfl⟩

theorem runsAlike_throw (f : Failure) : RunsAlike R (throw f) (throw f) :=
  fun _ => ⟨.error f, rfl⟩

theorem runsAlike_liftExcept {x : Except Failure α} {y : Except Failure β} (h : FailAlike R x y) :
    RunsAlike R (liftExcept x) (liftExcept y) := by
  cases h with
  | error f => exact runsAlike_throw f
  | ok h => exact runsAlike_pure h

theorem runsAlike_self (m : Reading α) : RunsAlike Eq m m := by
  intro l
  cases (m.run l).1 with
  | ok a => exact ⟨.ok rfl, rfl⟩
  | error f => exact ⟨.error f, rfl⟩

theorem RunsAlike.bind {f : α → Reading γ} {g : β → Reading δ} (h : RunsAlike R m n)
    (hfg : ∀ a b, R a b → RunsAlike S (f a) (g b)) : RunsAlike S (m >>= f) (n >>= g) := by
  intro l
  obtain ⟨hresult, hledger⟩ := h l
  rw [run_bind, run_bind]
  revert hresult hledger
  cases m.run l with
  | mk x l₁ =>
      cases n.run l with
      | mk y l₂ =>
          rintro hresult (rfl : l₁ = l₂)
          cases hresult with
          | error f => exact ⟨.error f, rfl⟩
          | ok hab => exact hfg _ _ hab l₁

theorem runsAlike_mapM {f : α → Reading γ} {g : β → Reading δ}
    (hfg : ∀ a b, R a b → RunsAlike S (f a) (g b)) {as : List α} {bs : List β}
    (h : List.Forall₂ R as bs) : RunsAlike (List.Forall₂ S) (as.mapM f) (bs.mapM g) := by
  induction h with
  | nil => exact runsAlike_pure .nil
  | cons hab _ ih =>
      rw [List.mapM_cons, List.mapM_cons]
      exact (hfg _ _ hab).bind fun c d hcd =>
        ih.bind fun cs ds hcds => runsAlike_pure (.cons hcd hcds)

/-- A call that comes without an id gets the same one on both sides. -/
theorem runsAlike_idOr {T : String → String → Prop} (hT : SaysTheSame T) {o o' : Option String}
    (h : Option.Rel T o o') : RunsAlike (fun _ _ => True) (idOr o) (idOr o') := by
  have hmade (o : Option String) : RunsAlike (fun _ _ : String => True) (idOr o) (idOr o) :=
    fun l => ⟨((runsAlike_self (idOr o)) l).1.imp fun _ _ _ => trivial, rfl⟩
  cases h with
  | none => exact hmade none
  | @some s t hst =>
      have hempty := (hT s t hst).empty
      unfold idOr
      simp only [given?, Option.filter_some, hempty]
      cases t.isEmpty with
      | true => exact hmade none
      | false => exact runsAlike_pure trivial

theorem runsAlike_decode {T : String → String → Prop} {d : Decoder α} {R : α → α → Prop}
    (h : DecodesAlike T d R) (p : Provider) {v w : Json} (hvw : v.Alike T w) :
    RunsAlike (fun a b => R a b ∧ d v = .ok a ∧ d w = .ok b) (decode p d v) (decode p d w) := by
  have hd := h v w hvw
  unfold decode
  generalize d v = x, d w = y at hd
  cases hd with
  | ok h => exact runsAlike_pure ⟨h, rfl, rfl⟩
  | faulty ps => exact runsAlike_throw _

end Reading

open Reading

/-- Two calls that both have a name, or both have none. -/
def ToolCall.NamedAlike (c d : ToolCall) : Prop := c.name.isEmpty = d.name.isEmpty

/-- Whether an answer is consistent depends on its reason and on which calls are named. -/
theorem Answered.response_alike (p : Provider) {a b : Answered}
    (hreason : a.finishReason = b.finishReason)
    (hcalls : List.Forall₂ ToolCall.NamedAlike a.toolCalls b.toolCalls) :
    FailAlike (fun _ _ => True) (a.response p) (b.response p) := by
  have hnames : a.toolCalls.any (·.name.isEmpty) = b.toolCalls.any (·.name.isEmpty) := by
    generalize a.toolCalls = cs, b.toolCalls = ds at hcalls
    induction hcalls with
    | nil => rfl
    | cons hcd _ ih => rw [List.any_cons, List.any_cons, hcd, ih]
  have hempty : a.toolCalls.isEmpty = b.toolCalls.isEmpty := by
    generalize a.toolCalls = cs, b.toolCalls = ds at hcalls
    cases hcalls <;> rfl
  unfold response
  rw [hnames, hempty, hreason]
  dsimp only
  split_ifs
  all_goals first
    | exact .error _
    | exact .ok trivial

/-- The finish code of the answer that a value is, if it is one. -/
def Provider.finishCode? (p : Provider) (v : Json) : Option String :=
  match p with
  | .groq =>
    match Groq.completion v with
    | .ok c => some c.choice.finishReason
    | .faulty _ => none
  | .gemini =>
    match Gemini.generated v with
    | .ok g => g.candidates.head?.bind (·.finishReason)
    | .faulty _ => none

namespace Groq

variable {T : String → String → Prop}

theorem Call.read_alike (hT : SaysTheSame T) {c d : Call} (h : CallAlike T c d) :
    RunsAlike ToolCall.NamedAlike c.read d.read :=
  (runsAlike_idOr hT h.id).bind fun _ _ _ => runsAlike_pure (hT _ _ h.name).empty

theorem Completion.response_alike (hT : SaysTheSame T) {c d : Completion}
    (h : ChoiceAlike T c.choice d.choice) (hcode : c.choice.finishReason = d.choice.finishReason) :
    RunsAlike (fun _ _ => True) c.response d.response := by
  have hcalls : List.Forall₂ (CallAlike T) (c.choice.message.toolCalls.getD [])
      (d.choice.message.toolCalls.getD []) := by
    have htool := h.toolCalls
    generalize c.choice.message.toolCalls = o, d.choice.message.toolCalls = o' at htool
    cases htool with
    | none => exact .nil
    | some h => exact h
  unfold response
  rw [hcode]
  refine (runsAlike_mapM (R := CallAlike T) (fun _ _ => Call.read_alike hT) hcalls).bind
    fun cs ds hcds => ?_
  refine (runsAlike_self _).bind fun r r' hr => ?_
  exact runsAlike_liftExcept (Answered.response_alike .groq hr hcds)

theorem readValue_alike (hT : SaysTheSame T) {v w : Json} (h : v.Alike T w)
    (hcode : Provider.groq.finishCode? v = Provider.groq.finishCode? w) :
    RunsAlike (fun _ _ => True) (decode .groq completion v >>= Completion.response)
      (decode .groq completion w >>= Completion.response) := by
  refine (runsAlike_decode (completion_alike hT) .groq h).bind ?_
  rintro c d ⟨hcd, hc, hd⟩
  refine Completion.response_alike hT hcd ?_
  simpa [Provider.finishCode?, hc, hd] using hcode

end Groq

namespace Gemini

variable {T : String → String → Prop}

theorem PartPayload.read_alike (hT : SaysTheSame T) {p q : PartPayload} (h : PartAlike T p q) :
    RunsAlike (fun r r' => List.Forall₂ ToolCall.NamedAlike r.2 r'.2) p.read q.read := by
  unfold PartAlike at h
  unfold read
  generalize p.functionCall = o, q.functionCall = o' at h
  cases h with
  | none => exact runsAlike_pure .nil
  | some h =>
      exact (runsAlike_idOr hT h.1).bind fun _ _ _ =>
        runsAlike_pure (.cons (hT _ _ h.2).empty .nil)

theorem readParts_alike (hT : SaysTheSame T) {ps qs : List PartPayload}
    (h : List.Forall₂ (PartAlike T) ps qs) :
    RunsAlike (fun r r' => List.Forall₂ ToolCall.NamedAlike r.2 r'.2) (readParts ps)
      (readParts qs) := by
  refine (runsAlike_mapM (R := PartAlike T) (fun _ _ => PartPayload.read_alike hT) h).bind
    fun rs rs' hrs => runsAlike_pure ?_
  dsimp only
  induction hrs with
  | nil => exact .nil
  | cons hr _ ih =>
      rw [List.map_cons, List.map_cons, List.flatten_cons, List.flatten_cons]
      exact List.rel_append hr ih

theorem Generated.response_alike (hT : SaysTheSame T) {g h : Generated} (hgh : GeneratedAlike T g h)
    (hcode : g.candidates.head?.bind (·.finishReason) = h.candidates.head?.bind (·.finishReason)) :
    RunsAlike (fun _ _ => True) g.response h.response := by
  have hcandidates := hgh.candidates
  unfold response
  generalize g.candidates = cs, h.candidates = ds at hcandidates hcode
  cases hcandidates with
  | nil =>
      have hblock := hgh.blockReason
      unfold blockReason?
      dsimp only
      generalize g.promptFeedback.join = o, h.promptFeedback.join = o' at hblock
      cases hblock with
      | none => exact runsAlike_throw _
      | @some s t hst =>
          simp only [Option.filter_some, (hT s t hst).empty]
          cases t.isEmpty with
          | true => exact runsAlike_throw _
          | false => exact runsAlike_liftExcept (Answered.response_alike .gemini rfl .nil)
  | @cons c d cs ds hcd _ =>
      simp only [List.head?_cons, Option.bind_some] at hcode
      dsimp only
      rw [hcode]
      cases d.finishReason with
      | none => exact runsAlike_throw _
      | some code =>
          refine (readParts_alike hT hcd.parts).bind fun r r' hr => ?_
          refine (runsAlike_self _).bind fun reason reason' hreason => ?_
          exact runsAlike_liftExcept (Answered.response_alike .gemini hreason hr)

theorem readValue_alike (hT : SaysTheSame T) {v w : Json} (h : v.Alike T w)
    (hcode : Provider.gemini.finishCode? v = Provider.gemini.finishCode? w) :
    RunsAlike (fun _ _ => True) (decode .gemini generated v >>= Generated.response)
      (decode .gemini generated w >>= Generated.response) := by
  refine (runsAlike_decode (generated_alike hT) .gemini h).bind ?_
  rintro g g' ⟨hg, hv, hw⟩
  refine Generated.response_alike hT hg ?_
  simpa [Provider.finishCode?, hv, hw] using hcode

end Gemini

/-! ## Answers -/

/-- Two bodies that are no JSON, or two values that are alike and have the same finish code. -/
inductive BodiesAlike (p : Provider) (T : String → String → Prop) (bs bs' : List UInt8) : Prop
  | unreadable (h : Json.readBytes? bs = none) (h' : Json.readBytes? bs' = none)
  | value {v w : Json} (h : Json.readBytes? bs = some v) (h' : Json.readBytes? bs' = some w)
    (hvw : v.Alike T w) (hcode : p.finishCode? v = p.finishCode? w)

/-- Both bodies are no JSON, or both are values that are alike. -/
theorem BodiesAlike.runsAlike_body {p : Provider} {T : String → String → Prop}
    {bs bs' : List UInt8} (h : BodiesAlike p T bs bs') (provider : Option String) :
    RunsAlike (fun v w => v.Alike T w ∧ p.finishCode? v = p.finishCode? w)
      (liftExcept (Reading.body provider bs)) (liftExcept (Reading.body provider bs')) := by
  refine runsAlike_liftExcept ?_
  unfold Reading.body
  cases h with
  | unreadable h h' =>
      rw [h, h']
      exact .error _
  | value h h' hvw hcode =>
      rw [h, h']
      exact .ok ⟨hvw, hcode⟩

/-- **Answers that are alike are read alike.** -/
theorem Adapter.readResponse_alike {T : String → String → Prop} (hT : SaysTheSame T) (a : Adapter)
    {bs bs' : List UInt8} (h : BodiesAlike a.provider T bs bs') :
    RunsAlike (fun _ _ => True) (a.readResponse bs) (a.readResponse bs') := by
  unfold readResponse
  revert h
  cases a.provider with
  | groq =>
      exact fun h => (h.runsAlike_body _).bind fun _ _ hvw => Groq.readValue_alike hT hvw.1 hvw.2
  | gemini =>
      exact fun h => (h.runsAlike_body _).bind fun _ _ hvw => Gemini.readValue_alike hT hvw.1 hvw.2

end ChatClient
