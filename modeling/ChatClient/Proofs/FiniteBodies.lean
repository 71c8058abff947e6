import ChatClient.Proofs.GeminiTurns
import ChatClient.Proofs.GroqBodies
import ChatClient.Wire.Encoding

/-!
# Bodies that can be sent

A body with a float that is infinite or not a number cannot be written as JSON, and a request with
such a body is not sent. Validation keeps such floats out of the settings. It does not look at the
schemas of tools, and it does not read the texts that are read when a request is written for Gemini:
the arguments of calls and the reports of tools. The reader of JSON texts takes the words `NaN` and
`Infinity`, so a text that is no JSON may be read into a body that cannot be sent.

The theorem says of every accepted request just when that happens.
-/

namespace ChatClient

/-! ## Floats that JSON does not have -/

namespace Json

@[simp] theorem hasNonFinite_text (s : String) : (text s).hasNonFinite = false := by
  simp [hasNonFinite]

@[simp] theorem hasNonFinite_null : null.hasNonFinite = false := by
  simp [hasNonFinite]

@[simp] theorem hasNonFinite_bool (b : Bool) : (bool b).hasNonFinite = false := by
  simp [hasNonFinite]

@[simp] theorem hasNonFinite_list (vs : List Json) :
    (list vs).hasNonFinite = vs.any hasNonFinite := by
  rw [hasNonFinite]
  induction vs with
  | nil => rfl
  | cons v vs ih => rw [itemsNonFinite, List.any_cons, ih]

@[simp] theorem hasNonFinite_object (es : Entries) :
    (object es).hasNonFinite = es.any fun e => e.2.hasNonFinite := by
  rw [hasNonFinite]
  induction es with
  | nil => rfl
  | cons e es ih =>
      obtain ⟨k, v⟩ := e
      rw [entriesNonFinite, List.any_cons, ih]

theorem any_present (v : Json) : v.present?.any hasNonFinite = v.hasNonFinite := by
  cases v <;> simp [present?]

theorem any_listed (vs : List Json) : (listed? vs).any hasNonFinite = vs.any hasNonFinite := by
  cases vs <;> simp [listed?]

theorem any_optional (name : String) (v : Option Json) :
    (Entries.optional name v).any (fun e => e.2.hasNonFinite) = v.any hasNonFinite := by
  cases v <;> simp [Entries.optional]

end Json

/-- A text that is read as a value with such a float. -/
def ReadsNonFinite (s : String) : Prop := (Json.read? s).any Json.hasNonFinite = true

instance (s : String) : Decidable (ReadsNonFinite s) := inferInstanceAs (Decidable (_ = true))

/-- The ways in which a message may bring such a float into a body. -/
inductive RequestMessage.Spoils (p : Provider) (m : RequestMessage) : Prop
  | toolCallId (h : m.toolCallId.hasNonFinite = true)
  | callId {c : RequestCall} (hc : c ∈ m.toolCalls) (h : c.id.hasNonFinite = true)
  | callName {c : RequestCall} (hc : c ∈ m.toolCalls) (h : c.name.hasNonFinite = true)
  | arguments {c : RequestCall} (hp : p = .groq) (hc : c ∈ m.toolCalls)
    (h : c.arguments.hasNonFinite = true)
  | argumentsText {c : RequestCall} {s : String} (hp : p = .gemini) (hc : c ∈ m.toolCalls)
    (hs : c.arguments = .text s) (h : ReadsNonFinite s)
  | report {s : String} (hp : p = .gemini) (hm : m.isBy .tool = true) (hs : m.content = .text s)
    (h : ReadsNonFinite s)

/-- Only a tool or the assistant may. -/
theorem RequestMessage.Spoils.speaker {p : Provider} {m : RequestMessage} (h : m.Spoils p)
    (hm : m.Formed) : m.isBy .tool = true ∨ m.isBy .assistant = true := by
  have hcalls {c : RequestCall} (hc : c ∈ m.toolCalls) : m.isBy .assistant = true := by
    by_contra hby
    exact absurd hc (by simp [hm.toolCalls (by simpa using hby)])
  cases h with
  | toolCallId h =>
      left
      by_contra hby
      exact absurd h (by simp [hm.toolCallId (by simpa using hby)])
  | callId hc h => exact .inr (hcalls hc)
  | callName hc h => exact .inr (hcalls hc)
  | arguments hp hc h => exact .inr (hcalls hc)
  | argumentsText hp hc hs h => exact .inr (hcalls hc)
  | report hp hm hs h => exact .inl hm

/-- A tool that brings such a float into a body. -/
def Tool.Spoils (t : Tool) : Prop :=
  t.description.hasNonFinite = true ∨ t.parameters.hasNonFinite = true

/-- A setting that was accepted is finite. -/
theorem Request.Accepted.setting_finite {r : Request} (h : r.Accepted) (s : Setting) :
    (r.setting s).hasNonFinite = false := by
  rcases h.settings s with hnull | ⟨x, hx, hfinite⟩
  · rw [hnull, Json.hasNonFinite_null]
  · cases hv : r.setting s with
    | int n => simp [Json.hasNonFinite]
    | float y =>
        rw [hv, Setting.number?] at hx
        split at hx
        · exact absurd hx (by simp)
        · obtain rfl := Option.some.inj hx
          rw [Json.hasNonFinite, Bool.not_eq_false']
          exact hfinite
    | _ => exact absurd hx (by simp [hv, Setting.number?])

/-- Words to stop at are texts. -/
theorem Request.Accepted.stop_finite {r : Request} (h : r.Accepted) :
    (r.stop.map Json.list).any Json.hasNonFinite = false := by
  cases hstop : r.stop with
  | none => rfl
  | some stops =>
      rw [Option.map_some, Option.any_some, Json.hasNonFinite_list, List.any_eq_false]
      intro v hv
      obtain ⟨s, rfl, -⟩ := h.stops stops hstop v hv
      simp

/-- A choice of tools is a text, so that it is finite if it is written so. -/
theorem Request.Accepted.choice_finite {r : Request} (h : r.Accepted) {write : Json → Json}
    (hwrite : ∀ s, (write (.text s)).hasNonFinite = false) :
    (r.toolChoice.present?.map write).any Json.hasNonFinite = false := by
  rcases h.toolChoice with hnull | ⟨s, htext⟩
  · rw [hnull]
    rfl
  · rw [htext]
    exact hwrite s

/-- The name of a tool is a text, so that it is the rest of the tool that may spoil what is written
of it. -/
theorem Request.Accepted.tools_nonFinite {r : Request} (h : r.Accepted) {write : Tool → Json}
    (hwrite : ∀ t name, t.name = .text name → ((write t).hasNonFinite = true ↔ t.Spoils)) :
    (r.tools.map write).any Json.hasNonFinite = true ↔ ∃ t ∈ r.tools, t.Spoils := by
  rw [List.any_map, List.any_eq_true]
  refine exists_congr fun t => and_congr_right fun ht => ?_
  obtain ⟨name, hname⟩ := h.toolNames t ht
  exact hwrite t name hname

/-! ## Bodies for Groq -/

namespace Groq

theorem nonFinite_renderMessage {m : RequestMessage} (hm : m.Formed) :
    (renderMessage m).hasNonFinite = true ↔ m.Spoils .groq := by
  obtain ⟨r, hrole⟩ := hm.role
  obtain ⟨s, hcontent⟩ := hm.content
  have hwritten : (if !m.toolCalls.isEmpty && !m.content.isGiven then Json.null
      else m.content).hasNonFinite = false := by
    split <;> simp [hcontent]
  have hid : (if m.isBy .tool then some m.toolCallId else none).any Json.hasNonFinite =
      m.toolCallId.hasNonFinite := by
    by_cases hby : m.isBy .tool = true
    · simp [hby]
    · simp [hby, hm.toolCallId (by simpa using hby)]
  rw [renderMessage_eq hm]
  simp only [Json.hasNonFinite_object, List.any_append, List.any_cons, List.any_nil, hrole,
    hwritten, Json.hasNonFinite_text, Json.any_optional, Json.any_listed, hid, Bool.or_false,
    Bool.false_or, Bool.or_eq_true, List.any_map, List.any_eq_true]
  constructor
  · rintro (⟨c, hc, h⟩ | h)
    · have hparts : c.id.hasNonFinite = true ∨ c.name.hasNonFinite = true ∨
          c.arguments.hasNonFinite = true := by
        simpa [renderCall] using h
      rcases hparts with h | h | h
      · exact .callId hc h
      · exact .callName hc h
      · exact .arguments rfl hc h
    · exact .toolCallId h
  · rintro (h | ⟨hc, h⟩ | ⟨hc, h⟩ | ⟨-, hc, h⟩ | ⟨hp, -⟩ | ⟨hp, -⟩)
    · exact .inr h
    · exact .inl ⟨_, hc, by simp [renderCall, h]⟩
    · exact .inl ⟨_, hc, by simp [renderCall, h]⟩
    · exact .inl ⟨_, hc, by simp [renderCall, h]⟩
    · exact absurd hp (by simp)
    · exact absurd hp (by simp)

theorem nonFinite_renderChoice (s : String) : (renderChoice (.text s)).hasNonFinite = false := by
  unfold renderChoice
  split <;> simp

theorem nonFinite_renderTool (t : Tool) (name : String) (hname : t.name = .text name) :
    (renderTool t).hasNonFinite = true ↔ t.Spoils := by
  simp [renderTool, hname, Tool.Spoils]

theorem nonFinite_renderBody {r : Request} (hr : r.Accepted) (model : String) (stream : Bool) :
    (Json.object (renderBody r model stream)).hasNonFinite = true ↔
      (∃ m ∈ r.messages, m.Spoils .groq) ∨ ∃ t ∈ r.tools, t.Spoils := by
  have hchoice := hr.choice_finite nonFinite_renderChoice
  have hstop := hr.stop_finite
  have hstream : (if stream then some (Json.bool true) else none).any Json.hasNonFinite =
      false := by
    cases stream <;> simp
  have htemperature : r.temperature.hasNonFinite = false := hr.setting_finite .temperature
  have hmaxTokens : r.maxTokens.hasNonFinite = false := hr.setting_finite .maxTokens
  have htopP : r.topP.hasNonFinite = false := hr.setting_finite .topP
  have hseed : r.seed.hasNonFinite = false := hr.setting_finite .seed
  have htools := hr.tools_nonFinite nonFinite_renderTool
  have hmessages : (r.messages.map renderMessage).any Json.hasNonFinite = true ↔
      ∃ m ∈ r.messages, m.Spoils .groq := by
    rw [List.any_map, List.any_eq_true]
    exact exists_congr fun m => and_congr_right fun hm => nonFinite_renderMessage (hr.formed hm)
  rw [renderBody_eq]
  simp only [Json.hasNonFinite_object, List.any_append, List.any_cons, List.any_nil,
    Json.hasNonFinite_text, Json.hasNonFinite_list, Json.any_optional, Json.any_listed,
    Json.any_present, hchoice, hstop, hstream, htemperature, hmaxTokens, htopP, hseed,
    Bool.or_false, Bool.false_or, Bool.or_eq_true, htools, hmessages]

end Groq

/-! ## Bodies for Gemini -/

namespace Gemini

/-- What is sent of a result holds such a float just if the result is read so. -/
theorem Packs.nonFinite {s : String} {es : Entries} (h : Packs s es) :
    (Json.object es).hasNonFinite = true ↔ ReadsNonFinite s := by
  unfold ReadsNonFinite
  cases h with
  | object hread => simp [hread]
  | value hread _ => simp [hread]
  | text hread => simp [hread]

/-- The arguments that are sent hold such a float just if their text is read so. -/
theorem nonFinite_arguments {room : Nat} {c : RequestCall} {args : Entries}
    (h : c.load room = .value (.object args)) : (Json.object args).hasNonFinite = true ↔
      ∃ s, c.arguments = .text s ∧ ReadsNonFinite s := by
  unfold RequestCall.load at h
  split at h
  · next s hs =>
    have hloaded : loadArguments? s = some (.object args) := by
      split at h
      · next v hv => rw [(Json.bounded_eq_ok.mp hv).2, Loaded.value.inj h]
      · exact absurd h (by simp)
      · exact absurd h (by simp)
    have hread : (Json.object args).hasNonFinite = true ↔ ReadsNonFinite s := by
      by_cases hgiven : s = ""
      · -- the empty text stands for no arguments, and cannot be read
        subst hgiven
        obtain rfl : [] = args := Json.object.inj (Option.some.inj hloaded)
        have hnone : Json.read? "" = none := rfl
        simp [ReadsNonFinite, hnone]
      · rw [loadArguments?_of_ne hgiven] at hloaded
        simp [ReadsNonFinite, hloaded]
    rw [hread, hs]
    simp
  · next hother =>
    split at h
    · exact absurd h (by simp)
    · obtain rfl : args = [] := by simpa [eq_comm] using h
      exact ⟨fun hnil => absurd hnil (by simp), fun ⟨s, hs, _⟩ => absurd hs (hother s)⟩

/-- A part that holds such a float. -/
theorem nonFinite_call (id name : Json) (args : Entries) :
    (Part.call id name args).json.hasNonFinite = true ↔
      id.hasNonFinite = true ∨ name.hasNonFinite = true ∨
        (Json.object args).hasNonFinite = true := by
  simp [Part.json]

theorem nonFinite_result (id name : Json) (response : Entries) :
    (Part.result id name response).json.hasNonFinite = true ↔
      id.hasNonFinite = true ∨ name.hasNonFinite = true ∨
        (Json.object response).hasNonFinite = true := by
  simp [Part.json]

/-- Whether a turn holds such a float. -/
def Turn.nonFinite (t : Turn) : Bool := t.parts.any fun part => part.json.hasNonFinite

theorem nonFinite_json (t : Turn) : t.json.hasNonFinite = t.nonFinite := by
  rw [Turn.json, Turn.nonFinite]
  simp [Function.comp_def]

/-- What a call brings into a body for Gemini. -/
theorem nonFinite_of_asks {m : RequestMessage} {parts : List Part}
    (h : List.Forall₂ Asks m.toolCalls parts) {part : Part} (hpart : part ∈ parts)
    (hnf : part.json.hasNonFinite = true) : m.Spoils .gemini := by
  obtain ⟨c, hc, hload⟩ := exists_of_forall₂ h hpart
  obtain ⟨hload⟩ := hload
  rcases (nonFinite_call _ _ _).mp hnf with h | h | h
  · exact .callId hc h
  · exact .callName hc h
  · obtain ⟨s, hs, hreads⟩ := (nonFinite_arguments hload).mp h
    exact .argumentsText rfl hc hs hreads

/-- Where a turn holds such a float there is a message that brought it there: one that the turn
tells, or one before it whose call is answered. -/
theorem Tells.spoils {run : List Placed} {t : Turn} (h : Tells run t) (ht : t.nonFinite = true) :
    ∃ p ∈ run, p.message.Spoils .gemini ∨ ∃ m ∈ p.before, m.Spoils .gemini := by
  obtain ⟨part, hpart, hnf⟩ := List.any_eq_true.mp ht
  cases h with
  | results hparts =>
      obtain ⟨p, hp, hreports⟩ := exists_of_forall₂ hparts hpart
      refine ⟨p, hp, ?_⟩
      cases hreports with
      | @result before m c content es hby hanswers hcontent hpacks =>
      rcases (nonFinite_result _ _ _).mp hnf with h | h | h
      · exact .inl (.toolCallId h)
      · -- the name is that of the call
        obtain ⟨asker, ⟨earlier, between, rfl, -⟩, hc, -⟩ := hanswers.asked
        exact .inr ⟨asker, by simp, .callName hc h⟩
      · exact .inl (.report rfl hby hcontent (hpacks.nonFinite.mp h))
  | @speech before m content calls hby hcontent hcalls =>
      refine ⟨_, List.mem_singleton.mpr rfl, .inl ?_⟩
      rcases List.mem_append.mp hpart with hpart | hpart
      · -- a text is no number
        by_cases hempty : content = "" <;> simp [hempty] at hpart
        subst hpart
        exact absurd hnf (by simp [Part.json])
      · exact nonFinite_of_asks hcalls hpart hnf

/-- What a message brings with it stands in the turn that tells it. -/
theorem Tells.nonFinite {run : List Placed} {t : Turn} (h : Tells run t) {p : Placed} (hp : p ∈ run)
    (hformed : p.message.Formed) (hspoils : p.message.Spoils .gemini) : t.nonFinite = true := by
  rw [Turn.nonFinite, List.any_eq_true]
  cases h with
  | results hparts =>
      obtain ⟨part, hpart, hreports⟩ := exists_of_forall₂_left hparts hp
      refine ⟨part, hpart, ?_⟩
      cases hreports with
      | @result before m c content es hby hanswers hcontent hpacks =>
      rw [nonFinite_result]
      have hnone : m.toolCalls = [] := hformed.toolCalls (isBy_eq_false hby (by simp))
      cases hspoils with
      | toolCallId h => exact .inl h
      | callId hc h => exact absurd hc (by simp [hnone])
      | callName hc h => exact absurd hc (by simp [hnone])
      | arguments hprovider hc h => exact absurd hprovider (by simp)
      | argumentsText hprovider hc hs h => exact absurd hc (by simp [hnone])
      | report hprovider hm hs h =>
          obtain rfl := Json.text.inj (hcontent.symm.trans hs)
          exact .inr (.inr (hpacks.nonFinite.mpr h))
  | @speech before m content calls hby hcontent hcalls =>
      obtain rfl := List.mem_singleton.mp hp
      have hasked {c : RequestCall} (hc : c ∈ m.toolCalls) (hnf : ∀ (room : Nat) (args : Entries),
          c.load room = .value (.object args) → c.id.hasNonFinite = true ∨
            c.name.hasNonFinite = true ∨ (Json.object args).hasNonFinite = true) :
          ∃ part ∈ (if content = "" then [] else [Part.text (.text content)]) ++ calls,
            part.json.hasNonFinite = true := by
        obtain ⟨part, hpart, hload⟩ := exists_of_forall₂_left hcalls hc
        obtain ⟨hload⟩ := hload
        exact ⟨_, List.mem_append_right _ hpart, (nonFinite_call _ _ _).mpr (hnf _ _ hload)⟩
      cases hspoils with
      | toolCallId h =>
          have hnull : m.toolCallId = .null := hformed.toolCallId hby
          exact absurd (hnull ▸ h) (by simp)
      | callId hc h => exact hasked hc fun room args hload => .inl h
      | callName hc h => exact hasked hc fun room args hload => .inr (.inl h)
      | arguments hprovider hc h => exact absurd hprovider (by simp)
      | argumentsText hprovider hc hs h =>
          refine hasked hc fun room args hload => .inr (.inr ?_)
          exact (nonFinite_arguments hload).mpr ⟨_, hs, h⟩
      | report hprovider hm hs h => exact absurd hm (by simp [hby])

/-- A message that is not the system's is told in some turn. -/
theorem exists_turn {ms : List RequestMessage} {m : RequestMessage} (hm : m ∈ ms)
    (hsystem : m.isBy .system = false) : ∃ run ∈ turnsOf ms, ∃ p ∈ run, p.message = m := by
  obtain ⟨before, after, rfl⟩ := List.append_of_mem hm
  have hmem : (⟨before, m⟩ : Placed) ∈ spokenMessages (before ++ m :: after) := by
    rw [spokenMessages, placedFrom_append, placedFrom, List.nil_append]
    exact List.mem_filter.mpr ⟨List.mem_append_cons_self, by simp [hsystem]⟩
  rw [← List.flatten_splitBy sharesTurn (spokenMessages _)] at hmem
  obtain ⟨run, hrun, hp⟩ := List.mem_flatten.mp hmem
  exact ⟨run, hrun, _, hp, rfl⟩

/-- The turns hold such a float just if some message brings one. -/
theorem nonFinite_turns {ms : List RequestMessage} {ts : List Turn}
    (hformed : ∀ m ∈ ms, m.Formed) (h : List.Forall₂ Tells (turnsOf ms) ts) :
    ts.any Turn.nonFinite = true ↔ ∃ m ∈ ms, m.Spoils .gemini := by
  rw [List.any_eq_true]
  constructor
  · rintro ⟨t, ht, hnf⟩
    obtain ⟨run, hrun, htells⟩ := exists_of_forall₂ h ht
    obtain ⟨p, hp, hspoils⟩ := htells.spoils hnf
    obtain ⟨later, rfl⟩ := split_of_mem_turn hrun hp
    rcases hspoils with hspoils | ⟨m, hm, hspoils⟩
    · exact ⟨_, by simp, hspoils⟩
    · exact ⟨m, List.mem_append_left _ hm, hspoils⟩
  · rintro ⟨m, hm, hspoils⟩
    have hsystem : m.isBy .system = false := by
      rcases hspoils.speaker (hformed m hm) with hby | hby <;> exact isBy_eq_false hby (by simp)
    obtain ⟨run, hrun, p, hp, rfl⟩ := exists_turn hm hsystem
    obtain ⟨t, ht, htells⟩ := exists_of_forall₂_left h hrun
    exact ⟨t, ht, htells.nonFinite hp (hformed _ hm) hspoils⟩

/-- The system's text is no number. -/
theorem nonFinite_folded {system : String} {ts contents : List Turn}
    (h : Folded system ts contents) :
    contents.any Turn.nonFinite = ts.any Turn.nonFinite := by
  cases h with
  | @into earlier later t hearlier ht =>
      have hsame : Turn.nonFinite { t with parts := .text (.text (system ++ "\n\n")) :: t.parts } =
          t.nonFinite := by
        simp [Turn.nonFinite, Part.json]
      rw [List.any_append, List.any_append, List.any_cons, List.any_cons, hsame]
  | ahead h => simp [Turn.nonFinite, Part.json]

theorem nonFinite_sentTurns (a : Adapter) (model : String) (system : Option String)
    (ts : List Turn) :
    (sentTurns a model system ts).any Turn.nonFinite = ts.any Turn.nonFinite := by
  unfold sentTurns
  split
  · rfl
  · split
    · exact nonFinite_folded (folded_foldSystem _ ts)
    · rfl

/-- The place of the system's text, where it is not among the turns. -/
def instruction? (a : Adapter) (model : String) (system : Option String) (ts : List Turn) :
    Option Json :=
  match system with
  | none => none
  | some system =>
    if folds a model ts then none
    else some (.object [("parts", .list [(Part.text (.text system)).json])])

/-- The declarations of tools, if there are any. -/
def declarations? (tools : List Tool) : Option Json :=
  if tools.isEmpty then none
  else some (.list [.object [("functionDeclarations", .list (tools.map renderTool))]])

/-- The settings, if any is given. -/
def configuration? (r : Request) : Option Json :=
  if (generationConfig r).isEmpty then none else some (.object (generationConfig r))

/-- The body as a row of entries, each of which is there if there is a value for it. -/
theorem renderBody_eq (a : Adapter) (r : Request) (model : String) (system : Option String)
    (ts : List Turn) : renderBody a r model system ts =
      [("contents", .list ((sentTurns a model system ts).map Turn.json))] ++
      Entries.optional "systemInstruction" (instruction? a model system ts) ++
      Entries.optional "tools" (declarations? r.tools) ++
      Entries.optional "toolConfig" (r.toolChoice.present?.map renderChoice) ++
      Entries.optional "generationConfig" (configuration? r) := by
  have htools : (if r.tools.isEmpty then [] else [("tools", .list [
      .object [("functionDeclarations", .list (r.tools.map renderTool))]])]) =
      Entries.optional "tools" (declarations? r.tools) := by
    unfold declarations?
    split <;> rfl
  have hconfig : (if (generationConfig r).isEmpty then []
      else [("generationConfig", .object (generationConfig r))]) =
      Entries.optional "generationConfig" (configuration? r) := by
    unfold configuration?
    split <;> rfl
  simp only [renderBody, htools, hconfig, sentTurns, instruction?]
  cases system with
  | none => cases r.toolChoice <;> rfl
  | some system =>
      by_cases hfolds : folds a model ts = true
      · simp only [if_pos hfolds]
        cases r.toolChoice <;> rfl
      · simp only [if_neg hfolds]
        cases r.toolChoice <;> rfl

theorem nonFinite_renderChoice (s : String) : (renderChoice (.text s)).hasNonFinite = false := by
  unfold renderChoice
  simp only [Json.hasNonFinite_object, List.any_cons, List.any_nil, Bool.or_false]
  split <;> simp

theorem nonFinite_renderTool (t : Tool) (name : String) (hname : t.name = .text name) :
    (renderTool t).hasNonFinite = true ↔ t.Spoils := by
  simp [renderTool, hname, Tool.Spoils]

theorem any_renderSetting (name : String) (v : Json) :
    (renderSetting name v).any (fun e => e.2.hasNonFinite) = v.hasNonFinite := by
  cases v <;> simp [renderSetting]

theorem nonFinite_configuration {r : Request} (hr : r.Accepted) :
    (configuration? r).any Json.hasNonFinite = false := by
  have hconfig : (generationConfig r).any (fun e => e.2.hasNonFinite) = false := by
    have htemperature : r.temperature.hasNonFinite = false := hr.setting_finite .temperature
    have htopP : r.topP.hasNonFinite = false := hr.setting_finite .topP
    have htopK : r.topK.hasNonFinite = false := hr.setting_finite .topK
    have hmaxTokens : r.maxTokens.hasNonFinite = false := hr.setting_finite .maxTokens
    have hseed : r.seed.hasNonFinite = false := hr.setting_finite .seed
    rw [generationConfig]
    simp only [List.any_append, any_renderSetting, htemperature, htopP, htopK, hmaxTokens, hseed,
      Bool.or_false, Bool.false_or]
    cases hstops : r.stop with
    | none => rfl
    | some stops => simpa [hstops] using hr.stop_finite
  unfold configuration?
  split
  · rfl
  · rw [Option.any_some, Json.hasNonFinite_object, hconfig]

theorem nonFinite_renderBody {r : Request} (hr : r.Accepted) (a : Adapter) (model : String)
    (system : Option String) {ts : List Turn} (h : List.Forall₂ Tells (turnsOf r.messages) ts) :
    (Json.object (renderBody a r model system ts)).hasNonFinite = true ↔
      (∃ m ∈ r.messages, m.Spoils .gemini) ∨ ∃ t ∈ r.tools, t.Spoils := by
  have hturns : ((sentTurns a model system ts).map Turn.json).any Json.hasNonFinite = true ↔
      ∃ m ∈ r.messages, m.Spoils .gemini := by
    rw [List.any_map, ← nonFinite_turns (fun m hm => hr.formed hm) h,
      ← nonFinite_sentTurns a model system]
    simp only [Function.comp_def, nonFinite_json]
  have hinstruction : (instruction? a model system ts).any Json.hasNonFinite = false := by
    unfold instruction?
    split
    · rfl
    · split <;> simp [Part.json]
  have htools : (declarations? r.tools).any Json.hasNonFinite = true ↔ ∃ t ∈ r.tools, t.Spoils := by
    have hdeclared : (declarations? r.tools).any Json.hasNonFinite =
        (r.tools.map renderTool).any Json.hasNonFinite := by
      unfold declarations?
      cases r.tools <;> simp
    rw [hdeclared]
    exact hr.tools_nonFinite nonFinite_renderTool
  have hchoice := hr.choice_finite nonFinite_renderChoice
  rw [renderBody_eq]
  simp only [Json.hasNonFinite_object, List.any_append, List.any_cons, List.any_nil,
    Json.hasNonFinite_list, Json.any_optional, hinstruction, hchoice, nonFinite_configuration hr,
    Bool.or_false, Bool.or_eq_true, hturns, htools]

end Gemini

/-! ## What is sent -/

namespace WireRequest

variable {w : WireRequest} {body : Json}

/-- The body is looked at last. -/
theorem encode_eq (hbody : w.body = some body) {address : Address}
    (haddress : Address.read? w.url = some address) (hheaders : Headers.areAscii w.headers = true) :
    (body.hasNonFinite = true → w.encode = .error (.outside .badValue)) ∧
      (body.hasNonFinite = false → ∃ sent, w.encode = .ok sent) := by
  have hcontent : (w.content?.map Json.hasNonFinite).getD false = body.hasNonFinite := by
    rw [content?, hbody]
    cases body <;> simp
  unfold encode
  rw [haddress, hheaders, hcontent]
  constructor
  · intro hnf
    simp [hnf]
  · intro hnf
    simp [hnf]

/-- What is sent has been found to be all right. -/
theorem encode_ok (hbody : w.body = some body) {sent : SentRequest} (h : w.encode = .ok sent) :
    (∃ address, Address.read? w.url = some address) ∧ Headers.areAscii w.headers = true ∧
      body.hasNonFinite = false := by
  cases haddress : Address.read? w.url with
  | none => exact absurd h (by simp [encode, haddress])
  | some address =>
      have hheaders : Headers.areAscii w.headers = true := by
        by_contra hno
        exact absurd h (by simp [encode, haddress, hno])
      refine ⟨⟨address, rfl⟩, hheaders, ?_⟩
      by_contra hno
      rw [(encode_eq hbody haddress hheaders).1 (by simpa using hno)] at h
      exact absurd h (by simp)

end WireRequest

/-- **A body can be sent unless something in the request spoils it.** When an accepted request is
written, its body holds a float that is infinite or not a number just if a message or a tool brings
one: by a value that is written as it is, or, for Gemini, by the report of a tool or the arguments
of a call whose text is read as such a value. Where the address and the headers allow a request to
be sent, one with such a body fails with an error that is none of the library's, and every other one
is sent. -/
theorem body_nonFinite_iff {a : Adapter} {r : Request} (hr : r.validate = .ok ()) {model : String}
    {stream : Bool} {written : WireRequest} {log : List LogLine}
    (h : a.render r model stream = .ok (written, log)) :
    ∃ body, written.body = some body ∧
      (body.hasNonFinite = true ↔
        (∃ m ∈ r.messages, m.Spoils a.provider) ∨ ∃ t ∈ r.tools, t.Spoils) ∧
      (body.hasNonFinite = true → ∀ sent, written.encode ≠ .ok sent) ∧
      ((∃ address, Address.read? written.url = some address) →
        Headers.areAscii written.headers = true →
        (body.hasNonFinite = true → written.encode = .error (.outside .badValue)) ∧
        (body.hasNonFinite = false → ∃ sent, written.encode = .ok sent)) := by
  have hr := accepted_of_validate hr
  obtain ⟨body, hbody, hiff⟩ : ∃ body, written.body = some body ∧ (body.hasNonFinite = true ↔
      (∃ m ∈ r.messages, m.Spoils a.provider) ∨ ∃ t ∈ r.tools, t.Spoils) := by
    rw [Adapter.render] at h
    cases hprovider : a.provider with
    | groq =>
        rw [hprovider] at h
        obtain ⟨rfl, -⟩ := Prod.mk.inj (Except.ok.inj h)
        exact ⟨_, rfl, Groq.nonFinite_renderBody hr model stream⟩
    | gemini =>
        rw [hprovider] at h
        simp only [Gemini.render, bind_eq_ok] at h
        obtain ⟨ts, hturns, system, hsystem, hwritten⟩ := h
        obtain ⟨rfl, -⟩ := Prod.mk.inj (Except.ok.inj hwritten)
        have htells := Gemini.tells_of_turns hr.messages hturns
        exact ⟨_, rfl, Gemini.nonFinite_renderBody hr a model system htells⟩
  refine ⟨body, hbody, hiff, fun hnf sent hsent => ?_, fun haddress hheaders => ?_⟩
  · exact absurd (WireRequest.encode_ok hbody hsent).2.2 (by simp [hnf])
  · obtain ⟨address, haddress⟩ := haddress
    exact WireRequest.encode_eq hbody haddress hheaders

/-- A report of infinity spoils the body. -/
theorem body_nonFinite_iff_infinity :
    let a : Adapter :=
      { provider := .gemini, credential := ⟨"gemini", "k"⟩, baseUrl := "https://x" }
    (errand "-Infinity").validate = .ok () ∧
      ∃ written log, a.render (errand "-Infinity") "m" false = .ok (written, log) ∧
        ∀ sent, written.encode ≠ .ok sent := by
  intro a
  have hr : (errand "-Infinity").validate = .ok () := errand_validate _
  obtain ⟨written, log, h⟩ : ∃ written log,
      a.render (errand "-Infinity") "m" false = .ok (written, log) := ⟨_, _, rfl⟩
  obtain ⟨body, hbody, hiff, hunsent, -⟩ := body_nonFinite_iff hr h
  have hreads : ReadsNonFinite "-Infinity" := by decide +kernel
  have hspoils : ∃ m ∈ (errand "-Infinity").messages, m.Spoils .gemini :=
    ⟨_, List.mem_of_getLast? rfl, .report rfl rfl rfl hreads⟩
  exact ⟨hr, written, log, h, hunsent (hiff.mpr (.inl hspoils))⟩

/-- The turns of a conversation in which a tool has reported that it has no number. -/
def errandTurns : List Gemini.Turn :=
  [⟨false, [.text (.text "What is the weather?")]⟩,
    ⟨true, [.call (.text "c1") (.text "look") []]⟩,
    ⟨false, [.result (.text "c1") (.text "look") [("result", .float (0.0 / 0.0))]]⟩]

theorem turns_errand : Gemini.turns 960 (errand "NaN").messages = .ok errandTurns := rfl

/-- What is no JSON text may be reported, and the next request is written and not sent. -/
theorem report_spoils_body :
    let a : Adapter :=
      { provider := .gemini, credential := ⟨"gemini", "k"⟩, baseUrl := "https://x" }
    (errand "NaN").validate = .ok () ∧
      (∀ t ∈ (errand "NaN").tools, t.parameters.hasNonFinite = false) ∧
      ∃ written log body, a.render (errand "NaN") "m" false = .ok (written, log) ∧
        written.body = some body ∧ body.hasNonFinite = true ∧
        written.encode = .error (.outside .badValue) := by
  intro a
  obtain ⟨body, hbody⟩ : ∃ body, body =
    Json.object (Gemini.renderBody a (errand "NaN") "m" none errandTurns) := ⟨_, rfl⟩
  obtain ⟨written, hrender, hwritten, hurl, hheaders⟩ : ∃ written : WireRequest,
      a.render (errand "NaN") "m" false = .ok (written, []) ∧ written.body = some body ∧
        written.url = Gemini.methodUrl a "m" false ∧
        written.headers = [("x-goog-api-key", "k"), ("Content-Type", "application/json")] := by
    subst hbody
    refine ⟨{
      method := "POST"
      url := Gemini.methodUrl a "m" false
      headers := [("x-goog-api-key", "k"), ("Content-Type", "application/json")]
      body := some (.object (Gemini.renderBody a (errand "NaN") "m" none errandTurns)) },
      ?_, rfl, rfl, rfl⟩
    show Gemini.render a (errand "NaN") "m" false = _
    rw [Gemini.render, turns_errand]
    rfl
  have hnf : body.hasNonFinite = true := by
    rw [hbody]
    decide +kernel
  have haddress : (Address.read? (Gemini.methodUrl a "m" false)).isSome = true := by decide +kernel
  obtain ⟨address, haddress⟩ := Option.isSome_iff_exists.mp haddress
  have hascii : Headers.areAscii written.headers = true := by
    rw [hheaders]
    decide +kernel
  refine ⟨errand_validate _, by simp [errand], written, [], body, hrender, hwritten, hnf, ?_⟩
  exact (WireRequest.encode_eq hwritten (hurl ▸ haddress) hascii).1 hnf

end ChatClient
