import Mathlib.Data.List.Forall2
import Mathlib.Data.Option.Basic
import ChatClient.Gemini.Payload
import ChatClient.Groq.Payload

/-!
# What payloads say

A decoder collects what it needs from a JSON value field by field. What it accepts can be
said without it: `part? v names` is what stands under the first of some names, and a record
is in a value when each of its fields is what stands under the field's name. Every decoder
accepts just the values that its record is in.

So the readers of the services can be looked at from the JSON side, where two payloads that
are decoded in different ways have something in common.
-/

namespace ChatClient.Payload

variable {α β : Type} {v : Json} {names : List String} {d : Decoder α} {P : Json → α → Prop}

/-! ## Fields -/

/-- What stands under the first of some names that is there. -/
def slot? (v : Json) (names : List String) : Option Json := names.findSome? v.field?

/-- The same, where null is nothing. -/
def part? (v : Json) (names : List String) : Option Json :=
  match slot? v names with
  | some .null => none
  | o => o

/-- A value is a list whose items are in relation with others, one by one. -/
def IsList (P : Json → α → Prop) (v : Json) (as : List α) : Prop :=
  ∃ vs, v = .list vs ∧ List.Forall₂ P vs as

/-- A decoder accepts just the values that a relation holds of, and gives what it relates them
to. -/
def Accepts (d : Decoder α) (P : Json → α → Prop) : Prop := ∀ v a, d v = .ok a ↔ P v a

theorem lookup?_map_snd (es : Entries) (names : List String) :
    (lookup? es names).map (·.2) = slot? (.object es) names := by
  induction names with
  | nil => rfl
  | cons n ns ih =>
      have hfield : Json.field? (.object es) n = es.get? n := rfl
      rw [lookup?, slot?, List.findSome?_cons, List.findSome?_cons, hfield]
      cases es.get? n with
      | some w => rfl
      | none => exact ih

theorem lookup?_eq_none {es : Entries} :
    lookup? es names = none ↔ slot? (.object es) names = none := by
  rw [← lookup?_map_snd, Option.map_eq_none_iff]

/-- What is found under a name is what stands in the slot. -/
theorem slot?_of_lookup? {es : Entries} {n : String} {w : Json}
    (h : lookup? es names = some (n, w)) : slot? (.object es) names = some w := by
  rw [← lookup?_map_snd, h]
  rfl

theorem part?_eq_some {w : Json} :
    part? v names = some w ↔ slot? v names = some w ∧ w ≠ .null := by
  unfold part?
  constructor
  · intro h
    split at h
    · exact absurd h (by simp)
    · next hne => exact ⟨h, fun hw => hne (hw ▸ h)⟩
  · intro h
    obtain ⟨hslot, hne⟩ := h
    rw [hslot]
    split
    · next hnull => exact absurd (Option.some.inj hnull) hne
    · rfl

theorem isObject_of_part? {w : Json} (h : part? v names = some w) : v.isObject = true := by
  obtain ⟨n, -, hn⟩ := List.exists_of_findSome?_eq_some (part?_eq_some.mp h).1
  cases v with
  | object es => rfl
  | _ => exact absurd hn (by simp [Json.field?])

/-! ## Decoders of fields -/

theorem under_eq_ok {c : Checked α} {step : Step} {a : α} :
    c.under step = .ok a ↔ c = .ok a := by
  cases c <;> simp [Checked.under]

theorem map_eq_ok {c : Checked α} {f : α → β} {b : β} :
    f <$> c = .ok b ↔ ∃ a, c = .ok a ∧ f a = b := by
  cases c with
  | ok a => simp [Checked.map_ok]
  | faulty ps => simp [Functor.map, Checked.map]

theorem seq_eq_ok {c : Checked (α → β)} {c' : Checked α} {b : β} :
    c <*> c' = .ok b ↔ ∃ f a, c = .ok f ∧ c' = .ok a ∧ f a = b := by
  cases c <;> cases c' <;> simp [Seq.seq, Checked.ap]

/-- A record is read from the fields of an object. -/
theorem accepts_fields {read : Entries → Checked α} (hobject : ∀ v a, P v a → v.isObject = true)
    (hread : ∀ es a, read es = .ok a ↔ P (.object es) a) : Accepts (fields read) P := by
  intro v a
  cases v with
  | object es => exact hread es a
  | _ =>
      constructor
      · intro h
        exact absurd h (by simp [fields, bad])
      · intro h
        exact absurd (hobject _ a h) (by simp [Json.isObject])

/-- A field that may be absent. -/
theorem optional_eq_ok {es : Entries} (hd : Accepts d P) {o : Option α} :
    optional es names d = .ok o ↔ Option.Rel P (part? (.object es) names) o := by
  unfold optional part?
  cases hl : lookup? es names with
  | none =>
      rw [lookup?_eq_none.mp hl]
      cases o <;> simp
  | some e =>
      obtain ⟨n, w⟩ := e
      rw [slot?_of_lookup? hl]
      cases w with
      | null => cases o <;> simp
      | _ => cases o <;> simp [map_eq_ok, under_eq_ok, hd _ _]

/-- A field that must be there. -/
theorem required_eq_ok {es : Entries} (hd : Accepts d P) (hnull : ∀ a, ¬ P .null a) {a : α} :
    required es names d = .ok a ↔ ∃ w, part? (.object es) names = some w ∧ P w a := by
  unfold required
  cases hl : lookup? es names with
  | none => simp [part?, lookup?_eq_none.mp hl]
  | some e =>
      obtain ⟨n, w⟩ := e
      simp only [under_eq_ok, hd w a, part?_eq_some, slot?_of_lookup? hl]
      constructor
      · intro h
        exact ⟨w, ⟨rfl, fun hw => hnull a (hw ▸ h)⟩, h⟩
      · intro h
        obtain ⟨w', ⟨hw, -⟩, h⟩ := h
        obtain rfl := Option.some.inj hw
        exact h

/-- A field that has a default when it is absent. -/
theorem withDefault_eq_ok {es : Entries} (hd : Accepts d P) {default a : α} :
    withDefault es names d default = .ok a ↔
      (slot? (.object es) names = none ∧ a = default) ∨
        ∃ w, slot? (.object es) names = some w ∧ P w a := by
  unfold withDefault
  cases hl : lookup? es names with
  | none =>
      rw [lookup?_eq_none.mp hl]
      simp [eq_comm]
  | some e =>
      obtain ⟨n, w⟩ := e
      simp [under_eq_ok, hd w a, slot?_of_lookup? hl]

theorem itemsFrom_eq_ok (hd : Accepts d P) {i : Nat} {vs : List Json} {as : List α} :
    itemsFrom d i vs = .ok as ↔ List.Forall₂ P vs as := by
  induction vs generalizing i as with
  | nil => cases as <;> simp [itemsFrom]
  | cons v vs ih =>
      rw [itemsFrom, seq_eq_ok]
      simp only [map_eq_ok, under_eq_ok, ih]
      constructor
      · intro h
        obtain ⟨f, bs, ⟨b, hb, rfl⟩, hbs, rfl⟩ := h
        exact .cons ((hd v b).mp hb) hbs
      · intro h
        cases h with
        | @cons _ b _ bs hb hbs => exact ⟨_, bs, ⟨b, (hd v b).mpr hb, rfl⟩, hbs, rfl⟩

theorem accepts_listOf (hd : Accepts d P) : Accepts (listOf d) (IsList P) := by
  intro v as
  cases v with
  | list vs => simp [listOf, IsList, itemsFrom_eq_ok hd]
  | _ => simp [listOf, IsList, bad]

theorem accepts_text : Accepts text fun v s => v = .text s := by
  intro v s
  cases v <;> simp [text, bad]

theorem accepts_object : Accepts object fun v es => v = .object es := by
  intro v es
  cases v <;> simp [object, bad]

/-- Scalars that may be written in several ways are what their decoder says. -/
theorem accepts_self (d : Decoder α) : Accepts d fun v a => d v = .ok a := fun _ _ => Iff.rfl

/-- A field that may be absent, where a value says one thing only. -/
theorem optionalAs_eq_ok {es : Entries} {write : α → Json} (hd : Accepts d fun v a => v = write a)
    {o : Option α} : optional es names d = .ok o ↔ part? (.object es) names = o.map write := by
  rw [optional_eq_ok hd]
  cases o <;> cases part? (.object es) names <;> simp

/-- A text that may be absent. -/
theorem optionalText_eq_ok {es : Entries} {o : Option String} :
    optional es names text = .ok o ↔ part? (.object es) names = o.map .text :=
  optionalAs_eq_ok accepts_text

/-- A text that must be there. -/
theorem requiredText_eq_ok {es : Entries} {s : String} :
    required es names text = .ok s ↔ part? (.object es) names = some (.text s) := by
  rw [required_eq_ok accepts_text (by simp)]
  simp

end ChatClient.Payload

/-! ## Groq -/

namespace ChatClient.Groq

open Payload

/-- Token counts, each of them in any form that a whole number may have. -/
@[mk_iff]
structure IsUsage (v : Json) (u : Usage) : Prop where
  object : v.isObject = true
  prompt : Option.Rel (fun w n => whole w = .ok n) (part? v ["prompt_tokens"]) u.promptTokens
  completion :
    Option.Rel (fun w n => whole w = .ok n) (part? v ["completion_tokens"]) u.completionTokens
  total : Option.Rel (fun w n => whole w = .ok n) (part? v ["total_tokens"]) u.totalTokens

/-- A function that is called. -/
@[mk_iff]
structure IsCallFunction (v : Json) (f : CallFunction) : Prop where
  name : part? v ["name"] = some (.text f.name)
  arguments : part? v ["arguments"] = f.arguments.map .text

/-- A tool call of a completion. -/
@[mk_iff]
structure IsCall (v : Json) (c : Call) : Prop where
  id : part? v ["id"] = c.id.map .text
  function : ∃ w, part? v ["function"] = some w ∧ IsCallFunction w c.function

/-- What a choice of a completion says. -/
@[mk_iff]
structure IsAnswer (v : Json) (a : Answer) : Prop where
  object : v.isObject = true
  content : part? v ["content"] = a.content.map .text
  toolCalls : Option.Rel (IsList IsCall) (part? v ["tool_calls"]) a.toolCalls

/-- A choice of a completion. -/
@[mk_iff]
structure IsChoice (v : Json) (c : Choice) : Prop where
  message : ∃ w, part? v ["message"] = some w ∧ IsAnswer w c.message
  finishReason : part? v ["finish_reason"] = some (.text c.finishReason)

/-- A completion. Its first choice counts; the other ones are choices too. -/
@[mk_iff]
structure IsCompletion (v : Json) (c : Completion) : Prop where
  id : part? v ["id"] = c.id.map .text
  model : part? v ["model"] = c.model.map .text
  choices : ∃ w others, part? v ["choices"] = some w ∧ IsList IsChoice w (c.choice :: others)
  usage : Option.Rel IsUsage (part? v ["usage"]) c.usage

/-- The parts of a function in a fragment of a call. -/
@[mk_iff]
structure IsDeltaFunction (v : Json) (f : DeltaFunction) : Prop where
  object : v.isObject = true
  name : part? v ["name"] = f.name.map .text
  arguments : part? v ["arguments"] = f.arguments.map .text

/-- A fragment of a call. -/
@[mk_iff]
structure IsCallDelta (v : Json) (d : CallDelta) : Prop where
  object : v.isObject = true
  index : (slot? v ["index"] = none ∧ d.index = 0) ∨
    ∃ w, slot? v ["index"] = some w ∧ whole w = .ok d.index
  id : part? v ["id"] = d.id.map .text
  function : Option.Rel IsDeltaFunction (part? v ["function"]) d.function

/-- What an event adds. -/
@[mk_iff]
structure IsDelta (v : Json) (d : Delta) : Prop where
  object : v.isObject = true
  content : part? v ["content"] = d.content.map .text
  toolCalls : Option.Rel (IsList IsCallDelta) (part? v ["tool_calls"]) d.toolCalls

/-- A choice of an event. -/
@[mk_iff]
structure IsStreamChoice (v : Json) (c : StreamChoice) : Prop where
  object : v.isObject = true
  delta : (slot? v ["delta"] = none ∧ c.delta = {}) ∨
    ∃ w, slot? v ["delta"] = some w ∧ IsDelta w c.delta
  finishReason : part? v ["finish_reason"] = c.finishReason.map .text

/-- The fields of the service's own. -/
@[mk_iff]
structure IsOwnUsage (v : Json) (u : Option Usage) : Prop where
  object : v.isObject = true
  usage : Option.Rel IsUsage (part? v ["usage"]) u

/-- An event of a streamed completion. -/
@[mk_iff]
structure IsStreamEvent (v : Json) (e : StreamEvent) : Prop where
  object : v.isObject = true
  id : part? v ["id"] = e.id.map .text
  model : part? v ["model"] = e.model.map .text
  choices : (slot? v ["choices"] = none ∧ e.choices = []) ∨
    ∃ w, slot? v ["choices"] = some w ∧ IsList IsStreamChoice w e.choices
  plainUsage : Option.Rel IsUsage (part? v ["usage"]) e.plainUsage
  ownUsage : Option.Rel IsOwnUsage (part? v ["x_groq"]) e.ownUsage

theorem accepts_usage : Accepts usage IsUsage := by
  refine accepts_fields (fun _ _ h => h.object) fun es u => ?_
  obtain ⟨p, c, t⟩ := u
  simp [isUsage_iff, Json.isObject, seq_eq_ok, map_eq_ok, optional_eq_ok (accepts_self whole)]

theorem accepts_callFunction : Accepts callFunction IsCallFunction := by
  refine accepts_fields (fun _ _ h => isObject_of_part? h.name) fun es f => ?_
  obtain ⟨name, arguments⟩ := f
  simp [isCallFunction_iff, seq_eq_ok, map_eq_ok, requiredText_eq_ok, optionalText_eq_ok]

theorem not_isCallFunction_null (f : CallFunction) : ¬ IsCallFunction .null f :=
  fun h => absurd (isObject_of_part? h.name) (by simp [Json.isObject])

theorem accepts_call : Accepts call IsCall := by
  refine accepts_fields (fun _ _ h => ?_) fun es c => ?_
  · obtain ⟨w, hw, -⟩ := h.function
    exact isObject_of_part? hw
  · obtain ⟨id, f⟩ := c
    simp [isCall_iff, seq_eq_ok, map_eq_ok, optionalText_eq_ok,
      required_eq_ok accepts_callFunction not_isCallFunction_null]

theorem accepts_answer : Accepts answer IsAnswer := by
  refine accepts_fields (fun _ _ h => h.object) fun es a => ?_
  obtain ⟨content, calls⟩ := a
  simp [isAnswer_iff, Json.isObject, seq_eq_ok, map_eq_ok, optionalText_eq_ok,
    optional_eq_ok (accepts_listOf accepts_call)]

theorem not_isAnswer_null (a : Answer) : ¬ IsAnswer .null a :=
  fun h => absurd h.object (by simp [Json.isObject])

theorem accepts_choice : Accepts choice IsChoice := by
  refine accepts_fields (fun _ _ h => isObject_of_part? h.finishReason) fun es c => ?_
  obtain ⟨message, reason⟩ := c
  simp [isChoice_iff, seq_eq_ok, map_eq_ok, requiredText_eq_ok,
    required_eq_ok accepts_answer not_isAnswer_null]

/-- The first choice counts. -/
theorem accepts_firstChoice :
    Accepts firstChoice fun v c => ∃ others, IsList IsChoice v (c :: others) := by
  intro v c
  have hlist := accepts_listOf accepts_choice v
  unfold firstChoice
  cases h : listOf choice v with
  | faulty ps => simp [← hlist, h]
  | ok cs => cases cs <;> simp [← hlist, h, bad]

theorem accepts_completion : Accepts completion IsCompletion := by
  refine accepts_fields (fun _ _ h => ?_) fun es c => ?_
  · obtain ⟨w, _, hw, -⟩ := h.choices
    exact isObject_of_part? hw
  · obtain ⟨id, model, choice, u⟩ := c
    simp [isCompletion_iff, seq_eq_ok, map_eq_ok, optionalText_eq_ok,
      required_eq_ok accepts_firstChoice (by simp [IsList]), optional_eq_ok accepts_usage,
      and_assoc]

theorem accepts_deltaFunction : Accepts deltaFunction IsDeltaFunction := by
  refine accepts_fields (fun _ _ h => h.object) fun es f => ?_
  obtain ⟨name, arguments⟩ := f
  simp [isDeltaFunction_iff, Json.isObject, seq_eq_ok, map_eq_ok, optionalText_eq_ok]

theorem accepts_callDelta : Accepts callDelta IsCallDelta := by
  refine accepts_fields (fun _ _ h => h.object) fun es d => ?_
  obtain ⟨index, id, f⟩ := d
  simp [isCallDelta_iff, Json.isObject, seq_eq_ok, map_eq_ok, optionalText_eq_ok,
    withDefault_eq_ok (accepts_self whole), optional_eq_ok accepts_deltaFunction]

theorem accepts_delta : Accepts delta IsDelta := by
  refine accepts_fields (fun _ _ h => h.object) fun es d => ?_
  obtain ⟨content, calls⟩ := d
  simp [isDelta_iff, Json.isObject, seq_eq_ok, map_eq_ok, optionalText_eq_ok,
    optional_eq_ok (accepts_listOf accepts_callDelta)]

theorem accepts_streamChoice : Accepts streamChoice IsStreamChoice := by
  refine accepts_fields (fun _ _ h => h.object) fun es c => ?_
  obtain ⟨d, reason⟩ := c
  simp [isStreamChoice_iff, Json.isObject, seq_eq_ok, map_eq_ok, optionalText_eq_ok,
    withDefault_eq_ok accepts_delta]

theorem accepts_ownUsage : Accepts ownUsage IsOwnUsage := by
  refine accepts_fields (fun _ _ h => h.object) fun es u => ?_
  simp [isOwnUsage_iff, Json.isObject, optional_eq_ok accepts_usage]

theorem accepts_streamEvent : Accepts streamEvent IsStreamEvent := by
  refine accepts_fields (fun _ _ h => h.object) fun es e => ?_
  obtain ⟨id, model, choices, plain, own⟩ := e
  simp [isStreamEvent_iff, Json.isObject, seq_eq_ok, map_eq_ok, optionalText_eq_ok,
    withDefault_eq_ok (accepts_listOf accepts_streamChoice), optional_eq_ok accepts_usage,
    optional_eq_ok accepts_ownUsage, and_assoc]

end ChatClient.Groq

/-! ## Gemini -/

namespace ChatClient.Gemini

open Payload

/-- A function call. -/
@[mk_iff]
structure IsFunctionCall (v : Json) (f : FunctionCall) : Prop where
  id : part? v ["id"] = f.id.map .text
  name : part? v ["name"] = some (.text f.name)
  args : part? v ["args"] = f.args.map .object

/-- A part of a content. -/
@[mk_iff]
structure IsPart (v : Json) (p : PartPayload) : Prop where
  object : v.isObject = true
  text : part? v ["text"] = p.text.map .text
  thought : Option.Rel (fun w b => flag w = .ok b) (part? v ["thought"]) p.thought
  functionCall :
    Option.Rel IsFunctionCall (part? v ["functionCall", "function_call"]) p.functionCall

/-- What one side says. -/
@[mk_iff]
structure IsContent (v : Json) (c : ContentPayload) : Prop where
  object : v.isObject = true
  role : part? v ["role"] = c.role.map .text
  parts : (slot? v ["parts"] = none ∧ c.parts = []) ∨
    ∃ w, slot? v ["parts"] = some w ∧ IsList IsPart w c.parts

/-- A candidate. -/
@[mk_iff]
structure IsCandidate (v : Json) (c : Candidate) : Prop where
  object : v.isObject = true
  content : Option.Rel IsContent (part? v ["content"]) c.content
  finishReason : part? v ["finishReason", "finish_reason"] = c.finishReason.map .text

/-- Token counts, each of them in any form that a whole number may have. -/
@[mk_iff]
structure IsUsage (v : Json) (u : Usage) : Prop where
  object : v.isObject = true
  prompt : Option.Rel (fun w n => whole w = .ok n)
    (part? v ["promptTokenCount", "prompt_token_count"]) u.promptTokens
  completion : Option.Rel (fun w n => whole w = .ok n)
    (part? v ["candidatesTokenCount", "candidates_token_count"]) u.completionTokens
  total : Option.Rel (fun w n => whole w = .ok n)
    (part? v ["totalTokenCount", "total_token_count"]) u.totalTokens

/-- Why a prompt was blocked. -/
@[mk_iff]
structure IsPromptFeedback (v : Json) (reason : Option String) : Prop where
  object : v.isObject = true
  blockReason : part? v ["blockReason", "block_reason"] = reason.map .text

/-- A generated response, or an event of a streamed one. -/
@[mk_iff]
structure IsGenerated (v : Json) (g : Generated) : Prop where
  object : v.isObject = true
  candidates : (slot? v ["candidates"] = none ∧ g.candidates = []) ∨
    ∃ w, slot? v ["candidates"] = some w ∧ IsList IsCandidate w g.candidates
  usage : Option.Rel IsUsage (part? v ["usageMetadata", "usage_metadata"]) g.usage
  promptFeedback :
    Option.Rel IsPromptFeedback (part? v ["promptFeedback", "prompt_feedback"]) g.promptFeedback
  modelVersion : part? v ["modelVersion", "model_version"] = g.modelVersion.map .text
  responseId : part? v ["responseId", "response_id"] = g.responseId.map .text

theorem accepts_functionCall : Accepts functionCall IsFunctionCall := by
  refine accepts_fields (fun _ _ h => isObject_of_part? h.name) fun es f => ?_
  obtain ⟨id, name, args⟩ := f
  simp [isFunctionCall_iff, seq_eq_ok, map_eq_ok, requiredText_eq_ok, optionalText_eq_ok,
    optionalAs_eq_ok accepts_object]

theorem accepts_part : Accepts partPayload IsPart := by
  refine accepts_fields (fun _ _ h => h.object) fun es p => ?_
  obtain ⟨s, thought, f⟩ := p
  simp [isPart_iff, Json.isObject, seq_eq_ok, map_eq_ok, optionalText_eq_ok,
    optional_eq_ok (accepts_self flag), optional_eq_ok accepts_functionCall]

theorem accepts_content : Accepts contentPayload IsContent := by
  refine accepts_fields (fun _ _ h => h.object) fun es c => ?_
  obtain ⟨role, parts⟩ := c
  simp [isContent_iff, Json.isObject, seq_eq_ok, map_eq_ok, optionalText_eq_ok,
    withDefault_eq_ok (accepts_listOf accepts_part)]

theorem accepts_candidate : Accepts candidate IsCandidate := by
  refine accepts_fields (fun _ _ h => h.object) fun es c => ?_
  obtain ⟨content, reason⟩ := c
  simp [isCandidate_iff, Json.isObject, seq_eq_ok, map_eq_ok, optionalText_eq_ok,
    optional_eq_ok accepts_content]

theorem accepts_usage : Accepts usage IsUsage := by
  refine accepts_fields (fun _ _ h => h.object) fun es u => ?_
  obtain ⟨p, c, t⟩ := u
  simp [isUsage_iff, Json.isObject, seq_eq_ok, map_eq_ok, optional_eq_ok (accepts_self whole)]

theorem accepts_promptFeedback : Accepts promptFeedback IsPromptFeedback := by
  refine accepts_fields (fun _ _ h => h.object) fun es reason => ?_
  simp [isPromptFeedback_iff, Json.isObject, optionalText_eq_ok]

theorem accepts_generated : Accepts generated IsGenerated := by
  refine accepts_fields (fun _ _ h => h.object) fun es g => ?_
  obtain ⟨candidates, u, feedback, version, id⟩ := g
  simp [isGenerated_iff, Json.isObject, seq_eq_ok, map_eq_ok, optionalText_eq_ok,
    withDefault_eq_ok (accepts_listOf accepts_candidate), optional_eq_ok accepts_usage,
    optional_eq_ok accepts_promptFeedback, and_assoc]

end ChatClient.Gemini
