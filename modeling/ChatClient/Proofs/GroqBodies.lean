import Mathlib.Data.List.Forall2
import Mathlib.Data.Option.Basic
import ChatClient.Dialect
import ChatClient.Proofs.Accepted

/-!
# A body tells which request it was written for

The body for Groq leaves out what is not given and writes null for a text that need not be there.
For an accepted request nothing is lost by that, but for `top_k`: what is left out is left out just
where there is nothing, and an assistant message writes null just for the empty text.

When two bodies are the same is for their reader to say. Two values may have to be equal, or two
numbers of different kinds may count as the same and the order of entries not count; `Sameness`
names what the argument needs, and it holds of both.
-/

namespace ChatClient

/-! ## Values that count as the same -/

namespace Json

/-- Values that compare as the same: a value and itself, texts by their characters, numbers and
truth values by their quantity, and objects by the values under their names, in whatever order
these stand. -/
inductive Same : Json → Json → Prop
  | self (v : Json) : Same v v
  | key {v w : Json} (h : v.sameKey w = true) : Same v w
  | list {vs ws : List Json} (h : List.Forall₂ Same vs ws) : Same (.list vs) (.list ws)
  | object {es fs : Entries} (h : ∀ name, Option.Rel Same (es.get? name) (fs.get? name)) :
    Same (.object es) (.object fs)

/-- A way to compare values: a text and null are the same as themselves only, and where two values
are the same so are their items and their fields. -/
structure Sameness (R : Json → Json → Prop) : Prop where
  text : ∀ {s v}, R (.text s) v ↔ v = .text s
  text_right : ∀ {s v}, R v (.text s) ↔ v = .text s
  null : ∀ {v}, R .null v ↔ v = .null
  null_right : ∀ {v}, R v .null ↔ v = .null
  items : ∀ {vs ws}, R (.list vs) (.list ws) → List.Forall₂ R vs ws
  field : ∀ {v w}, R v w → ∀ name, Option.Rel R (v.field? name) (w.field? name)

theorem rel_refl {R : Json → Json → Prop} (hR : ∀ v, R v v) (o : Option Json) :
    Option.Rel R o o := by
  cases o with
  | none => exact .none
  | some v => exact .some (hR v)

theorem sameness_eq : Sameness Eq where
  text := eq_comm
  text_right := Iff.rfl
  null := eq_comm
  null_right := Iff.rfl
  items := fun h => Json.list.inj h ▸ List.forall₂_refl _
  field := fun h _ => h ▸ rel_refl Eq.refl _

/-- What can be looked up has no fields. -/
theorem field?_of_sameKey {v w : Json} (h : v.sameKey w = true) (name : String) :
    v.field? name = none ∧ w.field? name = none := by
  cases v <;> cases w <;> simp_all [sameKey, quantity?, number?, field?]

theorem sameness_same : Sameness Same where
  text := by
    intro s v
    constructor
    · rintro (_ | h)
      · rfl
      · exact sameKey_text_left.mp h
    · rintro rfl
      exact .self _
  text_right := by
    intro s v
    constructor
    · rintro (_ | h)
      · rfl
      · exact sameKey_text_right.mp h
    · rintro rfl
      exact .self _
  null := by
    intro v
    constructor
    · rintro (_ | h)
      · rfl
      · exact sameKey_null_left.mp h
    · rintro rfl
      exact .self _
  null_right := by
    intro v
    constructor
    · rintro (_ | h)
      · rfl
      · exact sameKey_null_right.mp h
    · rintro rfl
      exact .self _
  items := by
    intro vs ws h
    cases h with
    | self => exact List.forall₂_same.mpr fun v _ => .self v
    | key h => exact absurd h (by simp [sameKey, quantity?, number?])
    | list h => exact h
  field := by
    intro v w h name
    cases h with
    | self => exact rel_refl .self _
    | key h =>
        obtain ⟨hv, hw⟩ := field?_of_sameKey h name
        rw [hv, hw]
        exact .none
    | list h => exact .none
    | object h => exact h name

end Json

/-! ## Requests that are the same -/

section Agreement

variable (R : Json → Json → Prop)

/-- Two calls whose parts are the same. -/
structure RequestCall.Agrees (c d : RequestCall) : Prop where
  id : R c.id d.id
  name : R c.name d.name
  arguments : R c.arguments d.arguments

/-- Two messages whose parts are the same. -/
structure RequestMessage.Agrees (m n : RequestMessage) : Prop where
  role : R m.role n.role
  content : R m.content n.content
  toolCallId : R m.toolCallId n.toolCallId
  toolCalls : List.Forall₂ (RequestCall.Agrees R) m.toolCalls n.toolCalls

/-- Two tools whose parts are the same. -/
structure Tool.Agrees (t u : Tool) : Prop where
  name : R t.name u.name
  description : R t.description u.description
  parameters : R t.parameters u.parameters

/-- Two requests that are the same but for `top_k`. -/
structure Request.Agrees (r q : Request) : Prop where
  messages : List.Forall₂ (RequestMessage.Agrees R) r.messages q.messages
  tools : List.Forall₂ (Tool.Agrees R) r.tools q.tools
  toolChoice : R r.toolChoice q.toolChoice
  temperature : R r.temperature q.temperature
  maxTokens : R r.maxTokens q.maxTokens
  topP : R r.topP q.topP
  seed : R r.seed q.seed
  stop : Option.Rel (List.Forall₂ R) r.stop q.stop

end Agreement

section Equality

theorem eq_of_forall₂ {α : Type} {S : α → α → Prop} (hS : ∀ a b, S a b → a = b) {as bs : List α}
    (h : List.Forall₂ S as bs) : as = bs :=
  List.forall₂_eq_eq_eq ▸ h.imp hS

theorem RequestCall.Agrees.eq {c d : RequestCall} (h : c.Agrees Eq d) : c = d := by
  obtain ⟨hid, hname, harguments⟩ := h
  cases c
  simp_all

theorem RequestMessage.Agrees.eq {m n : RequestMessage} (h : m.Agrees Eq n) : m = n := by
  obtain ⟨hrole, hcontent, hid, hcalls⟩ := h
  have hcalls := eq_of_forall₂ (fun c d => RequestCall.Agrees.eq) hcalls
  cases m
  simp_all

theorem Tool.Agrees.eq {t u : Tool} (h : t.Agrees Eq u) : t = u := by
  obtain ⟨hname, hdescription, hparameters⟩ := h
  cases t
  simp_all

/-- Two requests whose parts are equal differ in nothing but `top_k`. -/
theorem Request.Agrees.eq {r q : Request} (h : r.Agrees Eq q) : r = { q with topK := r.topK } := by
  have hmessages := eq_of_forall₂ (fun m n => RequestMessage.Agrees.eq) h.messages
  have htools := eq_of_forall₂ (fun t u => Tool.Agrees.eq) h.tools
  have hstop : r.stop = q.stop := by
    rcases hr : r.stop with _ | stops <;> rcases hq : q.stop with _ | stops'
    · rfl
    · exact absurd (hr ▸ hq ▸ h.stop) (by rintro ⟨⟩)
    · exact absurd (hr ▸ hq ▸ h.stop) (by rintro ⟨⟩)
    · obtain ⟨h⟩ : Option.Rel (List.Forall₂ Eq) (some stops) (some stops') := hr ▸ hq ▸ h.stop
      rw [eq_of_forall₂ (fun v w => id) h]
  have htoolChoice := h.toolChoice
  have htemperature := h.temperature
  have hmaxTokens := h.maxTokens
  have htopP := h.topP
  have hseed := h.seed
  cases r
  simp_all

end Equality

/-! ## What a body says -/

/-- A value, unless it is null. -/
def Json.present? : Json → Option Json
  | .null => none
  | v => some v

/-- An entry, if there is a value for it. -/
def Entries.optional (name : String) : Option Json → Entries
  | none => []
  | some v => [(name, v)]

theorem Entries.get?_optional (key name : String) (v : Option Json) :
    (Entries.optional key v).get? name = if key = name then v else none := by
  cases v <;> simp [optional, get?_cons]

/-- Values as a list, unless there are none. -/
def Json.listed? (vs : List Json) : Option Json := if vs.isEmpty then none else some (.list vs)

namespace Json.Sameness

variable {R : Json → Json → Prop}

theorem of_present {v w : Json} (hR : Sameness R) (h : Option.Rel R v.present? w.present?) :
    R v w := by
  cases v <;> cases w <;> first
    | exact Option.rel_some_some.mp h
    | exact hR.null.mpr rfl
    | cases h

theorem of_listed {vs ws : List Json} (hR : Sameness R)
    (h : Option.Rel R (listed? vs) (listed? ws)) : List.Forall₂ R vs ws := by
  cases vs <;> cases ws <;> rcases h with h | _
  · exact .nil
  · exact hR.items h

theorem of_field {v w v' w' : Json} (hR : Sameness R) (h : R v w) (name : String)
    (hv : v.field? name = some v') (hw : w.field? name = some w') : R v' w' := by
  have hrel := hR.field h name
  rw [hv, hw] at hrel
  exact Option.rel_some_some.mp hrel

/-- What was written item by item is compared item by item. -/
theorem forall₂_of_map {α : Type} {f : α → Json} {S : α → α → Prop} {as bs : List α}
    (hS : ∀ a ∈ as, ∀ b ∈ bs, R (f a) (f b) → S a b)
    (h : List.Forall₂ R (as.map f) (bs.map f)) : List.Forall₂ S as bs := by
  induction as generalizing bs with
  | nil =>
      cases bs with
      | nil => exact .nil
      | cons b bs => cases h
  | cons a as ih =>
      cases bs with
      | nil => cases h
      | cons b bs =>
          obtain ⟨hab, hrest⟩ := List.forall₂_cons.mp h
          refine .cons (hS a List.mem_cons_self b List.mem_cons_self hab) (ih ?_ hrest)
          exact fun a ha b hb => hS a (List.mem_cons_of_mem _ ha) b (List.mem_cons_of_mem _ hb)

end Json.Sameness

namespace Groq

theorem renderSetting_eq (name : String) (v : Json) :
    renderSetting name v = Entries.optional name v.present? := by
  cases v <;> rfl

/-- The body as a row of entries, each of which is there if there is a value for it. -/
theorem renderBody_eq (r : Request) (model : String) (stream : Bool) :
    renderBody r model stream =
      [("model", .text model), ("messages", .list (r.messages.map renderMessage))] ++
      Entries.optional "tools" (Json.listed? (r.tools.map renderTool)) ++
      Entries.optional "tool_choice" (r.toolChoice.present?.map renderChoice) ++
      Entries.optional "temperature" r.temperature.present? ++
      Entries.optional "max_completion_tokens" r.maxTokens.present? ++
      Entries.optional "top_p" r.topP.present? ++
      Entries.optional "stop" (r.stop.map .list) ++
      Entries.optional "seed" r.seed.present? ++
      Entries.optional "stream" (if stream then some (.bool true) else none) := by
  have htools : (if r.tools.isEmpty then [] else [("tools", .list (r.tools.map renderTool))]) =
      Entries.optional "tools" (Json.listed? (r.tools.map renderTool)) := by
    cases r.tools <;> rfl
  have hstream : (if stream then [("stream", .bool true)] else []) =
      Entries.optional "stream" (if stream then some (.bool true) else none) := by
    cases stream <;> rfl
  simp only [renderBody, htools, hstream, renderSetting_eq]
  -- whether a choice and stops are given is all that is left
  cases r.toolChoice <;> cases r.stop <;> rfl

/-- Where the fields of a request stand in the body that was written of it. -/
structure BodyOf (r : Request) (body : Json) : Prop where
  messages : body.field? "messages" = some (.list (r.messages.map renderMessage))
  tools : body.field? "tools" = Json.listed? (r.tools.map renderTool)
  toolChoice : body.field? "tool_choice" = r.toolChoice.present?.map renderChoice
  temperature : body.field? "temperature" = r.temperature.present?
  maxTokens : body.field? "max_completion_tokens" = r.maxTokens.present?
  topP : body.field? "top_p" = r.topP.present?
  seed : body.field? "seed" = r.seed.present?
  stop : body.field? "stop" = r.stop.map .list

theorem bodyOf_renderBody (r : Request) (model : String) (stream : Bool) :
    BodyOf r (.object (renderBody r model stream)) := by
  rw [renderBody_eq]
  constructor <;> simp [Json.field?, Entries.get?_append, Entries.get?_cons, Entries.get?_optional]

/-- A well-formed message as a row of entries. -/
theorem renderMessage_eq {m : RequestMessage} (hm : m.Formed) :
    renderMessage m = .object (
      [("role", m.role),
        ("content", if !m.toolCalls.isEmpty && !m.content.isGiven then .null else m.content)] ++
      Entries.optional "tool_calls" (Json.listed? (m.toolCalls.map renderCall)) ++
      Entries.optional "tool_call_id" (if m.isBy .tool then some m.toolCallId else none)) := by
  have hasks : (m.isBy .assistant && !m.toolCalls.isEmpty) = !m.toolCalls.isEmpty := by
    by_cases hby : m.isBy .assistant = true
    · rw [hby, Bool.true_and]
    · rw [hm.toolCalls (by simpa using hby)]
      simp
  have hcalls : (if !m.toolCalls.isEmpty then [("tool_calls", .list (m.toolCalls.map renderCall))]
      else []) = Entries.optional "tool_calls" (Json.listed? (m.toolCalls.map renderCall)) := by
    cases m.toolCalls <;> rfl
  have hid : (if m.isBy .tool then [("tool_call_id", m.toolCallId)] else []) =
      Entries.optional "tool_call_id" (if m.isBy .tool then some m.toolCallId else none) := by
    cases m.isBy .tool <;> rfl
  simp only [renderMessage, hasks, hcalls, hid]

/-- Where the fields of a message stand in what was written of it. -/
structure MessageOf (m : RequestMessage) (written : Json) : Prop where
  role : written.field? "role" = some m.role
  content : written.field? "content" =
    some (if !m.toolCalls.isEmpty && !m.content.isGiven then .null else m.content)
  toolCalls : written.field? "tool_calls" = Json.listed? (m.toolCalls.map renderCall)
  toolCallId : written.field? "tool_call_id" = if m.isBy .tool then some m.toolCallId else none

theorem messageOf_renderMessage {m : RequestMessage} (hm : m.Formed) :
    MessageOf m (renderMessage m) := by
  rw [renderMessage_eq hm]
  constructor <;> simp [Json.field?, Entries.get?_append, Entries.get?_cons, Entries.get?_optional]

/-! ## Reading a body back -/

section Reading

variable {R : Json → Json → Prop} (hR : Json.Sameness R)

include hR

theorem call_agrees {c d : RequestCall} (h : R (renderCall c) (renderCall d)) : c.Agrees R d := by
  have hfunction : R (.object [("name", c.name), ("arguments", c.arguments)])
      (.object [("name", d.name), ("arguments", d.arguments)]) := hR.of_field h "function" rfl rfl
  exact {
    id := hR.of_field h "id" rfl rfl
    name := hR.of_field hfunction "name" rfl rfl
    arguments := hR.of_field hfunction "arguments" rfl rfl }

theorem tool_agrees {t u : Tool} (h : R (renderTool t) (renderTool u)) : t.Agrees R u := by
  have hfunction : R
      (.object [("name", t.name), ("description", t.description), ("parameters", t.parameters)])
      (.object [("name", u.name), ("description", u.description), ("parameters", u.parameters)]) :=
    hR.of_field h "function" rfl rfl
  exact {
    name := hR.of_field hfunction "name" rfl rfl
    description := hR.of_field hfunction "description" rfl rfl
    parameters := hR.of_field hfunction "parameters" rfl rfl }

/-- A mode is written as a text and a function as an object, so that a tool that goes by the name
of a mode is not taken for it. -/
theorem choice_agrees {s t : String} (h : R (renderChoice (.text s)) (renderChoice (.text t))) :
    R (.text s) (.text t) := by
  have hobject {v w : Json} (hv : R (.object [("type", .text "function"),
      ("function", .object [("name", v)])]) (.object [("type", .text "function"),
      ("function", .object [("name", w)])])) : R v w :=
    hR.of_field (hR.of_field hv "function" rfl rfl) "name" rfl rfl
  unfold renderChoice at h
  split at h <;> split at h
  · exact h
  · exact absurd (hR.text.mp h) (by simp)
  · exact absurd (hR.text_right.mp h) (by simp)
  · exact hobject h

/-- Null is written for the empty text only. -/
theorem content_agrees {b c : Bool} {s t : String}
    (h : R (if b && !(Json.text s).isGiven then .null else .text s)
      (if c && !(Json.text t).isGiven then .null else .text t)) : R (.text s) (.text t) := by
  have hempty {d : Bool} {u : String} (hu : (d && !(Json.text u).isGiven) = true) : u = "" := by
    simpa [Json.isGiven] using (Bool.and_eq_true_iff.mp hu).2
  split at h <;> split at h
  · next hs ht => rw [hempty hs, hempty ht, hR.text]
  · exact absurd (hR.null.mp h) (by simp)
  · exact absurd (hR.null_right.mp h) (by simp)
  · exact h

theorem message_agrees {m n : RequestMessage} (hm : m.Formed) (hn : n.Formed)
    (h : R (renderMessage m) (renderMessage n)) : m.Agrees R n := by
  have hofm := messageOf_renderMessage hm
  have hofn := messageOf_renderMessage hn
  have hrole : R m.role n.role := hR.of_field h "role" hofm.role hofn.role
  have hcontent := hR.of_field h "content" hofm.content hofn.content
  have hcalls := hR.field h "tool_calls"
  rw [hofm.toolCalls, hofn.toolCalls] at hcalls
  have hid := hR.field h "tool_call_id"
  rw [hofm.toolCallId, hofn.toolCallId] at hid
  obtain ⟨r, hr⟩ := hm.role
  obtain ⟨s, hs⟩ := hm.content
  obtain ⟨t, ht⟩ := hn.content
  have hsame : n.role = .text r.name := hR.text.mp (hr ▸ hrole)
  refine {
    role := hrole
    content := ?_
    toolCallId := ?_
    toolCalls :=
      Json.Sameness.forall₂_of_map (fun c _ d _ => call_agrees hR) (hR.of_listed hcalls) }
  · rw [hs, ht] at hcontent ⊢
    exact content_agrees hR hcontent
  · -- who is no tool has no id
    rw [isBy_of_role hr, isBy_of_role hsame] at hid
    by_cases htool : r = .tool
    · simpa [htool] using hid
    · have hno : decide (r = .tool) = false := by simpa using htool
      rw [hm.toolCallId (by rw [isBy_of_role hr, hno]),
        hn.toolCallId (by rw [isBy_of_role hsame, hno]), hR.null]

theorem toolChoice_agrees {v w : Json} (hv : v = .null ∨ ∃ s, v = .text s)
    (hw : w = .null ∨ ∃ s, w = .text s)
    (h : Option.Rel R (v.present?.map renderChoice) (w.present?.map renderChoice)) : R v w := by
  rcases hv with rfl | ⟨s, rfl⟩ <;> rcases hw with rfl | ⟨t, rfl⟩
  · exact hR.null.mpr rfl
  · cases h
  · cases h
  · exact choice_agrees hR (Option.rel_some_some.mp h)

/-- **Of an accepted request the body keeps everything but `top_k`.** -/
theorem request_agrees {r q : Request} (hr : r.Accepted) (hq : q.Accepted) {model : String}
    {stream : Bool}
    (h : R (.object (renderBody r model stream)) (.object (renderBody q model stream))) :
    r.Agrees R q := by
  have hofr := bodyOf_renderBody r model stream
  have hofq := bodyOf_renderBody q model stream
  have hfield {name : String} {o p : Option Json}
      (ho : (Json.object (renderBody r model stream)).field? name = o)
      (hp : (Json.object (renderBody q model stream)).field? name = p) : Option.Rel R o p :=
    ho ▸ hp ▸ hR.field h name
  have hmessages : List.Forall₂ R (r.messages.map renderMessage) (q.messages.map renderMessage) :=
    hR.items (hR.of_field h "messages" hofr.messages hofq.messages)
  have htools := hR.of_listed (hfield hofr.tools hofq.tools)
  have hstop := hfield hofr.stop hofq.stop
  exact {
    messages := Json.Sameness.forall₂_of_map
      (fun m hm n hn => message_agrees hR (hr.formed hm) (hq.formed hn)) hmessages
    tools := Json.Sameness.forall₂_of_map (fun t _ u _ => tool_agrees hR) htools
    toolChoice := toolChoice_agrees hR hr.toolChoice hq.toolChoice
      (hfield hofr.toolChoice hofq.toolChoice)
    temperature := hR.of_present (hfield hofr.temperature hofq.temperature)
    maxTokens := hR.of_present (hfield hofr.maxTokens hofq.maxTokens)
    topP := hR.of_present (hfield hofr.topP hofq.topP)
    seed := hR.of_present (hfield hofr.seed hofq.seed)
    stop := by
      cases hrs : r.stop <;> cases hqs : q.stop <;> rw [hrs, hqs] at hstop
      · exact .none
      · cases hstop
      · cases hstop
      · exact .some (hR.items (Option.rel_some_some.mp hstop)) }

end Reading

end Groq

/-- **Two requests with the same body differ in nothing but `top_k`.** Let two accepted requests be
written for Groq, with the same model and both streamed or both not. Their bodies are equal just if
all their other fields are; and where bodies count as the same whose numbers have the same quantity
and whose entries stand in another order, the other fields are the same in that way. -/
theorem Groq.body_tellsApart {a : Adapter} (ha : a.provider = .groq) {r q : Request}
    (hr : r.validate = .ok ()) (hq : q.validate = .ok ()) (model : String) (stream : Bool) :
    ∃ written log written' log' body body',
      a.render r model stream = .ok (written, log) ∧ written.body = some body ∧
      a.render q model stream = .ok (written', log') ∧ written'.body = some body' ∧
      (body = body' ↔ r = { q with topK := r.topK }) ∧
      (body.Same body' → r.Agrees Json.Same q) := by
  have hwritten (p : Request) : a.render p model stream =
      .ok (Groq.render a p model stream, Groq.renderLogs p) := by
    rw [Adapter.render, ha]
  have hr := accepted_of_validate hr
  have hq := accepted_of_validate hq
  refine ⟨_, _, _, _, _, _, hwritten r, rfl, hwritten q, rfl,
    ⟨fun h => ?_, fun h => ?_⟩, fun h => ?_⟩
  · exact (request_agrees Json.sameness_eq hr hq h).eq
  · -- the body does not say what `top_k` is
    have hbody := congrArg (fun p => Json.object (Groq.renderBody p model stream)) h
    exact hbody.trans rfl
  · exact request_agrees Json.sameness_same hr hq h

/-- A conversation in which a tool was called reads the same whatever `top_k` is. -/
theorem Groq.body_tellsApart_topK :
    let a : Adapter := { provider := .groq, credential := ⟨"groq", "k"⟩, baseUrl := "https://x" }
    let q : Request := { errand "rain" with topK := .int 40 }
    (errand "rain").validate = .ok () ∧ q.validate = .ok () ∧
      ∃ written log written' log', a.render (errand "rain") "m" true = .ok (written, log) ∧
        a.render q "m" true = .ok (written', log') ∧ written.body = written'.body := by
  intro a q
  have hr : (errand "rain").validate = .ok () := errand_validate "rain"
  have hq : q.validate = .ok () := rfl
  obtain ⟨w, log, w', log', body, body', hw, hbody, hw', hbody', hiff, -⟩ :=
    body_tellsApart (a := a) rfl hr hq "m" true
  exact ⟨hr, hq, w, log, w', log', hw, hw', by rw [hbody, hbody', hiff.mpr rfl]⟩

end ChatClient
