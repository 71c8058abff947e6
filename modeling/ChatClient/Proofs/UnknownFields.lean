import Mathlib.Data.List.Forall2
import Mathlib.Data.Option.Basic
import ChatClient.Proofs.JsonBytes
import ChatClient.Proofs.SilentEvents

/-!
# Fields that are not known

Services add fields to their answers without notice. A `Shape` says which fields of a payload are
known, and what is known of the values under them; `Adds` relates a payload to one with more fields
in it, at any depth where something is known and under any other names. A decoder that `Ignores`
what its shape does not name comes to the same in both, faults included, and so does all that is
made of it.

Each decoder has a shape here that has its fields. The arguments of a call are passed on as they
are, so they have no shape: nothing can be added to them without being seen.
-/

namespace ChatClient

namespace Payload

/-! ## Shapes -/

/-- What is known of a value: nothing, so that it is taken as a whole, or what its items or some of
its fields are. -/
inductive Shape where
  | whole
  | items (item : Shape)
  | record (fields : List (String × Shape))

/-- What is known of the value under a name; nothing if the name is not known. -/
def Shape.under (fields : List (String × Shape)) (name : String) : Shape :=
  (fields.lookup name).getD .whole

mutual

/-- A value, and the same value with fields that are not known added to it. -/
inductive Adds : Shape → Json → Json → Prop
  | self (shape : Shape) (v : Json) : Adds shape v v
  | list {item : Shape} {vs ws : List Json} (h : AddsItems item vs ws) :
    Adds (.items item) (.list vs) (.list ws)
  | object {fields : List (String × Shape)} {es fs : Entries} (h : AddsEntries fields es fs) :
    Adds (.record fields) (.object es) (.object fs)

/-- The same for the items of a list. -/
inductive AddsItems : Shape → List Json → List Json → Prop
  | nil {item : Shape} : AddsItems item [] []
  | cons {item : Shape} {v w : Json} {vs ws : List Json} (h : Adds item v w)
    (hs : AddsItems item vs ws) : AddsItems item (v :: vs) (w :: ws)

/-- The same for the entries of an object, where the new ones stand. -/
inductive AddsEntries : List (String × Shape) → Entries → Entries → Prop
  | nil {fields : List (String × Shape)} : AddsEntries fields [] []
  | keep {fields : List (String × Shape)} {name : String} {v w : Json} {es fs : Entries}
    (h : Adds (Shape.under fields name) v w) (hs : AddsEntries fields es fs) :
    AddsEntries fields ((name, v) :: es) ((name, w) :: fs)
  | add {fields : List (String × Shape)} {name : String} {v : Json} {es fs : Entries}
    (hname : name ∉ fields.map (·.1)) (hs : AddsEntries fields es fs) :
    AddsEntries fields es ((name, v) :: fs)

end

section

variable {α : Type} {shape item : Shape} {fields known : List (String × Shape)} {v w : Json}
  {es fs : Entries} {d : Decoder α}

theorem eq_of_adds_whole (h : Adds .whole v w) : v = w := by
  cases h
  rfl

theorem AddsItems.forall₂ {vs ws : List Json} (h : AddsItems item vs ws) :
    List.Forall₂ (Adds item) vs ws := by
  induction vs generalizing ws with
  | nil =>
      cases h
      exact .nil
  | cons v vs ih =>
      cases h with
      | cons hv hvs => exact .cons hv (ih hvs)

/-- A name that is known leads to the same value, or to one with something added to it. -/
theorem AddsEntries.get? {name : String} (hname : name ∈ fields.map (·.1))
    (h : AddsEntries fields es fs) :
    Option.Rel (Adds (Shape.under fields name)) (es.get? name) (fs.get? name) := by
  -- on the longer of the two, where each entry is kept or new
  induction fs generalizing es with
  | nil =>
      cases h
      exact .none
  | cons f fs ih =>
      cases h with
      | @keep _ k v w es _ hv hs =>
          rw [Entries.get?_cons, Entries.get?_cons]
          by_cases hk : k = name
          · subst hk
            rw [if_pos rfl, if_pos rfl]
            exact .some hv
          · rw [if_neg hk, if_neg hk]
            exact ih hs
      | @add _ k v _ _ hk hs =>
          have hne : k ≠ name := fun h => hk (h ▸ hname)
          rw [Entries.get?_cons, if_neg hne]
          exact ih hs

/-! ## Decoders -/

/-- A decoder comes to the same whatever is added to a value. -/
def Ignores (shape : Shape) (d : Decoder α) : Prop := ∀ v w, Adds shape v w → d v = d w

theorem ignores_whole (d : Decoder α) : Ignores .whole d :=
  fun _ _ h => congrArg d (eq_of_adds_whole h)

theorem itemsFrom_adds (hd : Ignores item d) (i : ℕ) {vs ws : List Json}
    (h : List.Forall₂ (Adds item) vs ws) : itemsFrom d i vs = itemsFrom d i ws := by
  induction h generalizing i with
  | nil => rfl
  | cons hv _ ih => rw [itemsFrom, itemsFrom, hd _ _ hv, ih]

theorem ignores_listOf (hd : Ignores item d) : Ignores (.items item) (listOf d) := by
  intro v w h
  cases h with
  | self => rfl
  | list h => exact itemsFrom_adds hd 0 h.forall₂

theorem ignores_fields {read : Entries → Checked α}
    (hread : ∀ es fs, AddsEntries known es fs → read es = read fs) :
    Ignores (.record known) (Payload.fields read) := by
  intro v w h
  cases h with
  | self => rfl
  | object h => exact hread _ _ h

/-- The names under which a field is looked for are known, and the same of all of them. -/
def Knows (fields : List (String × Shape)) (names : List String) (shape : Shape) : Prop :=
  ∀ name ∈ names, fields.lookup name = some shape

theorem knows_one {name : String} (h : fields.lookup name = some shape) :
    Knows fields [name] shape :=
  List.forall_mem_singleton.mpr h

/-- A name in camel case, and the same name with underscores. -/
theorem knows_both {camel snake : String} (h : fields.lookup camel = some shape)
    (h' : fields.lookup snake = some shape) : Knows fields [camel, snake] shape :=
  List.forall_mem_cons.mpr ⟨h, knows_one h'⟩

theorem lookup?_adds (h : AddsEntries known es fs) {names : List String}
    (hnames : Knows known names shape) :
    Option.Rel (fun e f => e.1 = f.1 ∧ Adds shape e.2 f.2) (lookup? es names)
      (lookup? fs names) := by
  induction names with
  | nil => exact .none
  | cons name names ih =>
      obtain ⟨hname, hnames⟩ := List.forall_mem_cons.mp hnames
      have hmem : name ∈ known.map (·.1) := by
        obtain ⟨field, hfield, hsame⟩ := List.lookup_isSome_iff.mp (by rw [hname]; rfl)
        rw [beq_iff_eq.mp hsame]
        exact List.mem_map_of_mem hfield
      have hget := h.get? hmem
      rw [Shape.under, hname, Option.getD_some] at hget
      unfold lookup?
      rw [List.findSome?_cons, List.findSome?_cons]
      generalize es.get? name = o, fs.get? name = o' at hget
      cases hget with
      | none => exact ih hnames
      | some h => exact .some ⟨rfl, h⟩

variable (names : List String) (h : AddsEntries known es fs) (hnames : Knows known names shape)
  (hd : Ignores shape d)

include h hnames hd

theorem required_adds : required es names d = required fs names d := by
  have hlookup := lookup?_adds h hnames
  unfold required
  generalize lookup? es names = o, lookup? fs names = o' at hlookup
  cases hlookup with
  | none => rfl
  | @some e f hef =>
      obtain ⟨name, v⟩ := e
      obtain ⟨name', w⟩ := f
      obtain ⟨rfl, hv⟩ := hef
      simp only [hd v w hv]

theorem optional_adds : optional es names d = optional fs names d := by
  have hlookup := lookup?_adds h hnames
  unfold optional
  generalize lookup? es names = o, lookup? fs names = o' at hlookup
  cases hlookup with
  | none => rfl
  | @some e f hef =>
      obtain ⟨name, v⟩ := e
      obtain ⟨name', w⟩ := f
      obtain ⟨rfl, hv⟩ := hef
      have hsame := hd v w hv
      -- null is told apart before anything is decoded, and nothing is added to it
      cases hv with
      | self => rfl
      | list _ | object _ => simp only [hsame]

theorem withDefault_adds (default : α) :
    withDefault es names d default = withDefault fs names d default := by
  have hlookup := lookup?_adds h hnames
  unfold withDefault
  generalize lookup? es names = o, lookup? fs names = o' at hlookup
  cases hlookup with
  | none => rfl
  | @some e f hef =>
      obtain ⟨name, v⟩ := e
      obtain ⟨name', w⟩ := f
      obtain ⟨rfl, hv⟩ := hef
      simp only [hd v w hv]

end

end Payload

open Payload

/-! ## Answers of Groq -/

namespace Groq

def usageShape : Shape :=
  .record [("prompt_tokens", .whole), ("completion_tokens", .whole), ("total_tokens", .whole)]

/-- A function has the same fields in a call and in a fragment of one. -/
def functionShape : Shape := .record [("name", .whole), ("arguments", .whole)]

def callShape : Shape := .record [("id", .whole), ("function", functionShape)]

def answerShape : Shape := .record [("content", .whole), ("tool_calls", .items callShape)]

def choiceShape : Shape := .record [("message", answerShape), ("finish_reason", .whole)]

/-- The fields of a completion. -/
def completionFields : List (String × Shape) := [
  ("id", .whole), ("model", .whole), ("choices", .items choiceShape), ("usage", usageShape)]

def callDeltaShape : Shape :=
  .record [("index", .whole), ("id", .whole), ("function", functionShape)]

def deltaShape : Shape := .record [("content", .whole), ("tool_calls", .items callDeltaShape)]

def streamChoiceShape : Shape := .record [("delta", deltaShape), ("finish_reason", .whole)]

/-- The fields of an event of a streamed completion. -/
def eventFields : List (String × Shape) := [
  ("id", .whole), ("model", .whole), ("choices", .items streamChoiceShape),
  ("usage", usageShape), ("x_groq", .record [("usage", usageShape)])]

theorem ignores_usage : Ignores usageShape usage :=
  ignores_fields fun es fs h => by
    rw [optional_adds ["prompt_tokens"] h (knows_one rfl) (ignores_whole _),
      optional_adds ["completion_tokens"] h (knows_one rfl) (ignores_whole _),
      optional_adds ["total_tokens"] h (knows_one rfl) (ignores_whole _)]

theorem ignores_callFunction : Ignores functionShape callFunction :=
  ignores_fields fun es fs h => by
    rw [required_adds ["name"] h (knows_one rfl) (ignores_whole _),
      optional_adds ["arguments"] h (knows_one rfl) (ignores_whole _)]

theorem ignores_call : Ignores callShape call :=
  ignores_fields fun es fs h => by
    rw [optional_adds ["id"] h (knows_one rfl) (ignores_whole _),
      required_adds ["function"] h (knows_one rfl) ignores_callFunction]

theorem ignores_answer : Ignores answerShape answer :=
  ignores_fields fun es fs h => by
    rw [optional_adds ["content"] h (knows_one rfl) (ignores_whole _),
      optional_adds ["tool_calls"] h (knows_one rfl) (ignores_listOf ignores_call)]

theorem ignores_choice : Ignores choiceShape choice :=
  ignores_fields fun es fs h => by
    rw [required_adds ["message"] h (knows_one rfl) ignores_answer,
      required_adds ["finish_reason"] h (knows_one rfl) (ignores_whole _)]

theorem ignores_firstChoice : Ignores (.items choiceShape) firstChoice := by
  intro v w h
  rw [firstChoice, firstChoice, ignores_listOf ignores_choice v w h]

theorem ignores_completion : Ignores (.record completionFields) completion :=
  ignores_fields fun es fs h => by
    rw [optional_adds ["id"] h (knows_one rfl) (ignores_whole _),
      optional_adds ["model"] h (knows_one rfl) (ignores_whole _),
      required_adds ["choices"] h (knows_one rfl) ignores_firstChoice,
      optional_adds ["usage"] h (knows_one rfl) ignores_usage]

theorem ignores_deltaFunction : Ignores functionShape deltaFunction :=
  ignores_fields fun es fs h => by
    rw [optional_adds ["name"] h (knows_one rfl) (ignores_whole _),
      optional_adds ["arguments"] h (knows_one rfl) (ignores_whole _)]

theorem ignores_callDelta : Ignores callDeltaShape callDelta :=
  ignores_fields fun es fs h => by
    rw [withDefault_adds ["index"] h (knows_one rfl) (ignores_whole _),
      optional_adds ["id"] h (knows_one rfl) (ignores_whole _),
      optional_adds ["function"] h (knows_one rfl) ignores_deltaFunction]

theorem ignores_delta : Ignores deltaShape delta :=
  ignores_fields fun es fs h => by
    rw [optional_adds ["content"] h (knows_one rfl) (ignores_whole _),
      optional_adds ["tool_calls"] h (knows_one rfl) (ignores_listOf ignores_callDelta)]

theorem ignores_streamChoice : Ignores streamChoiceShape streamChoice :=
  ignores_fields fun es fs h => by
    rw [withDefault_adds ["delta"] h (knows_one rfl) ignores_delta,
      optional_adds ["finish_reason"] h (knows_one rfl) (ignores_whole _)]

theorem ignores_ownUsage : Ignores (.record [("usage", usageShape)]) ownUsage :=
  ignores_fields fun es fs h => by rw [optional_adds ["usage"] h (knows_one rfl) ignores_usage]

theorem ignores_streamEvent : Ignores (.record eventFields) streamEvent :=
  ignores_fields fun es fs h => by
    rw [optional_adds ["id"] h (knows_one rfl) (ignores_whole _),
      optional_adds ["model"] h (knows_one rfl) (ignores_whole _),
      withDefault_adds ["choices"] h (knows_one rfl) (ignores_listOf ignores_streamChoice),
      optional_adds ["usage"] h (knows_one rfl) ignores_usage,
      optional_adds ["x_groq"] h (knows_one rfl) ignores_ownUsage]

end Groq

/-! ## Answers of Gemini -/

namespace Gemini

def functionCallShape : Shape := .record [("id", .whole), ("name", .whole), ("args", .whole)]

def partShape : Shape := .record [
  ("text", .whole), ("thought", .whole), ("functionCall", functionCallShape),
  ("function_call", functionCallShape)]

def contentShape : Shape := .record [("role", .whole), ("parts", .items partShape)]

def candidateShape : Shape :=
  .record [("content", contentShape), ("finishReason", .whole), ("finish_reason", .whole)]

def usageShape : Shape := .record [
  ("promptTokenCount", .whole), ("prompt_token_count", .whole),
  ("candidatesTokenCount", .whole), ("candidates_token_count", .whole),
  ("totalTokenCount", .whole), ("total_token_count", .whole)]

def promptFeedbackShape : Shape := .record [("blockReason", .whole), ("block_reason", .whole)]

/-- The fields of a generated response. -/
def generatedFields : List (String × Shape) := [
  ("candidates", .items candidateShape),
  ("usageMetadata", usageShape), ("usage_metadata", usageShape),
  ("promptFeedback", promptFeedbackShape), ("prompt_feedback", promptFeedbackShape),
  ("modelVersion", .whole), ("model_version", .whole),
  ("responseId", .whole), ("response_id", .whole)]

theorem ignores_functionCall : Ignores functionCallShape functionCall :=
  ignores_fields fun es fs h => by
    rw [optional_adds ["id"] h (knows_one rfl) (ignores_whole _),
      required_adds ["name"] h (knows_one rfl) (ignores_whole _),
      optional_adds ["args"] h (knows_one rfl) (ignores_whole _)]

theorem ignores_partPayload : Ignores partShape partPayload :=
  ignores_fields fun es fs h => by
    rw [optional_adds ["text"] h (knows_one rfl) (ignores_whole _),
      optional_adds ["thought"] h (knows_one rfl) (ignores_whole _),
      optional_adds ["functionCall", "function_call"] h (knows_both rfl rfl) ignores_functionCall]

theorem ignores_contentPayload : Ignores contentShape contentPayload :=
  ignores_fields fun es fs h => by
    rw [optional_adds ["role"] h (knows_one rfl) (ignores_whole _),
      withDefault_adds ["parts"] h (knows_one rfl) (ignores_listOf ignores_partPayload)]

theorem ignores_candidate : Ignores candidateShape candidate :=
  ignores_fields fun es fs h => by
    rw [optional_adds ["content"] h (knows_one rfl) ignores_contentPayload,
      optional_adds ["finishReason", "finish_reason"] h (knows_both rfl rfl) (ignores_whole _)]

theorem ignores_usage : Ignores usageShape usage :=
  ignores_fields fun es fs h => by
    rw [optional_adds ["promptTokenCount", "prompt_token_count"] h (knows_both rfl rfl)
        (ignores_whole _),
      optional_adds ["candidatesTokenCount", "candidates_token_count"] h (knows_both rfl rfl)
        (ignores_whole _),
      optional_adds ["totalTokenCount", "total_token_count"] h (knows_both rfl rfl)
        (ignores_whole _)]

theorem ignores_promptFeedback : Ignores promptFeedbackShape promptFeedback :=
  ignores_fields fun es fs h => by
    rw [optional_adds ["blockReason", "block_reason"] h (knows_both rfl rfl) (ignores_whole _)]

theorem ignores_generated : Ignores (.record generatedFields) generated :=
  ignores_fields fun es fs h => by
    rw [withDefault_adds ["candidates"] h (knows_one rfl) (ignores_listOf ignores_candidate),
      optional_adds ["usageMetadata", "usage_metadata"] h (knows_both rfl rfl) ignores_usage,
      optional_adds ["promptFeedback", "prompt_feedback"] h (knows_both rfl rfl)
        ignores_promptFeedback,
      optional_adds ["modelVersion", "model_version"] h (knows_both rfl rfl) (ignores_whole _),
      optional_adds ["responseId", "response_id"] h (knows_both rfl rfl) (ignores_whole _)]

end Gemini

/-! ## Answers and events -/

/-- The fields of a complete answer. -/
def Provider.answerFields : Provider → List (String × Shape)
  | .groq => Groq.completionFields
  | .gemini => Gemini.generatedFields

/-- The fields of an event. One under `error` may report a failure, so that is no field to add. -/
def Provider.eventFields (p : Provider) : List (String × Shape) :=
  ("error", .whole) ::
    match p with
    | .groq => Groq.eventFields
    | .gemini => Gemini.generatedFields

section Answers

variable {α : Type} {fields : List (String × Shape)} {v w : Json} {es fs : Entries} {d : Decoder α}
  {name : String}

/-- What is added besides a further name is added. -/
theorem Payload.AddsEntries.forget (hname : name ∉ fields.map (·.1))
    (h : AddsEntries ((name, .whole) :: fields) es fs) : AddsEntries fields es fs := by
  induction fs generalizing es with
  | nil =>
      cases h
      exact .nil
  | cons f fs ih =>
      cases h with
      | @keep _ k v w es _ hv hs =>
          refine .keep ?_ (ih hs)
          by_cases hk : k = name
          · subst hk
            rw [Shape.under, List.lookup_cons_self, Option.getD_some] at hv
            exact eq_of_adds_whole hv ▸ .self _ v
          · rwa [Shape.under, List.lookup_cons, beq_false_of_ne hk] at hv
      | @add _ k v _ _ hk hs => exact .add (fun hmem => hk (List.mem_cons_of_mem _ hmem)) (ih hs)

theorem Payload.Ignores.besides (hname : name ∉ fields.map (·.1))
    (hd : Ignores (.record fields) d) : Ignores (.record ((name, .whole) :: fields)) d := by
  intro v w h
  cases h with
  | self => rfl
  | object h => exact hd _ _ (.object (h.forget hname))

/-- What is decoded of both is the same, and so is what is made of it. -/
theorem Reading.decode_adds {β : Type} {shape : Shape} (p : Provider) (hd : Ignores shape d)
    (h : Adds shape v w) (use : α → Reading β) :
    (Reading.decode p d v >>= use) = (Reading.decode p d w >>= use) := by
  rw [Reading.decode, Reading.decode, hd v w h]

theorem Reading.body_adds {β : Type} {p : Option String} {bs : List UInt8}
    (h : Json.readBytes? bs = some v) (use : Json → Reading β) :
    (liftExcept (Reading.body p bs) >>= use) = use v := by
  rw [Reading.body, h]
  rfl

/-- The same failure is reported in both, or none. -/
theorem Adapter.streamFailure?_adds (a : Adapter)
    (h : Adds (.record (("error", .whole) :: fields)) v w) :
    a.streamFailure? v = a.streamFailure? w := by
  have hfield : v.field? "error" = w.field? "error" := by
    cases h with
    | self => rfl
    | @object _ es fs h =>
        have herror : "error" ∈ (("error", Shape.whole) :: fields).map (·.1) := List.mem_cons_self
        have hget := h.get? herror
        rw [Json.field?, Json.field?]
        generalize es.get? "error" = o, fs.get? "error" = o' at hget
        cases hget with
        | none => rfl
        | some h => rw [eq_of_adds_whole h]
  rw [Adapter.streamFailure?, Adapter.streamFailure?, errorObject, errorObject, hfield]

end Answers

end ChatClient
