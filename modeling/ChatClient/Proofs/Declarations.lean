import Mathlib.Data.List.Nodup
import ChatClient.Proofs.Arguments
import ChatClient.Proofs.GroqBodies

/-!
# Tools and the choice among them

Validation takes tools one after the other and keeps the names it has seen, and then looks the
choice up among them. `Request.validate_iff_declared` says which tools and which choice pass,
without the passes.

A mode and a tool may go by the same word. Validation lets that through, so whoever reads a body has
to be able to tell which is meant. `Provider.declared?` and `Provider.told?` read a body as the
service does: what is written of an accepted request is read back as its tools, in order, and as
the choice that was made among them.
-/

namespace ChatClient

/-! ## Tools that pass -/

/-- A tool that may be declared: its name can name a tool, and its schema describes an object. -/
structure Tool.Declarable (t : Tool) : Prop where
  name : ∃ s : String, t.name = .text s ∧ 1 ≤ s.length ∧ s.length ≤ 64 ∧
    ∀ c ∈ s.toList, c.isAlphanum = true ∨ c = '_' ∨ c = '-'
  parameters : ∃ schema : Entries, t.parameters = .object schema ∧
    (schema.get? "type" = none ∨ schema.get? "type" = some (.text "object"))

/-- Tools that may be declared together: no two go by the same name. -/
structure Declarable (tools : List Tool) : Prop where
  each : ∀ t ∈ tools, t.Declarable
  apart : (tools.map (·.name)).Nodup

/-- A choice that may be made among tools: none at all, that none is called, or if there are tools
another mode or the name of one of them. -/
def Chooses (choice : Json) (tools : List Tool) : Prop :=
  choice = .null ∨ choice = .text "none" ∨
    tools ≠ [] ∧ (choice = .text "auto" ∨ choice = .text "required" ∨ ∃ t ∈ tools, choice = t.name)

/-- A request without its tools, and without a choice. -/
def Request.withoutTools (r : Request) : Request := { r with tools := [], toolChoice := .null }

section Tools

variable {t : Tool} {tools : List Tool} {names all : List String} {i : ℕ}

theorem isToolName_iff {s : String} : isToolName s = true ↔ 1 ≤ s.length ∧ s.length ≤ 64 ∧
    ∀ c ∈ s.toList, c.isAlphanum = true ∨ c = '_' ∨ c = '-' := by
  simp only [isToolName, isToolNameChar, Bool.and_eq_true, decide_eq_true_eq, List.all_eq_true,
    Bool.or_eq_true, beq_iff_eq, String.length_toList, and_assoc, or_assoc]
  rfl

theorem isObjectSchema_iff {v : Json} : isObjectSchema v = true ↔
    ∃ schema : Entries, v = .object schema ∧
      (schema.get? "type" = none ∨ schema.get? "type" = some (.text "object")) := by
  cases v with
  | object schema =>
      simp only [isObjectSchema, Json.isObject, Json.field?, Bool.true_and, Json.object.injEq,
        exists_eq_left']
      cases Entries.get? schema "type" with
      | none => simp
      | some w => cases w <;> simp
  | _ => simp [isObjectSchema, Json.isObject]

theorem Tool.declarable_iff : t.Declarable ↔
    (∃ s, t.name = .text s ∧ isToolName s = true) ∧ isObjectSchema t.parameters = true := by
  simp only [isToolName_iff, isObjectSchema_iff]
  exact ⟨fun h => ⟨h.name, h.parameters⟩, fun h => ⟨h.1, h.2⟩⟩

/-- **One step.** A tool passes that may be declared, if its name is new. -/
theorem Tool.check_eq_ok : Tool.check names i t = .ok all ↔
    ∃ s, t.name = .text s ∧ t.Declarable ∧ s ∉ names ∧ names ++ [s] = all := by
  simp only [Tool.declarable_iff]
  unfold Tool.check
  split
  · next s hs =>
    simp only [guard_eq_ok, hs, Json.text.injEq, exists_eq_left', Bool.not_eq_true,
      Bool.not_eq_false', Except.ok.injEq]
    tauto
  · next hno =>
    refine ⟨fun h => absurd h (by simp [refuse]), ?_⟩
    rintro ⟨s, hs, -⟩
    exact absurd hs (hno s)

/-- **The run.** Tools pass that may be declared, if their names are new and none comes twice. -/
theorem checkEach_tools_eq_ok : checkEach Tool.check names i tools = .ok all ↔
    ∃ own, tools.map (·.name) = own.map .text ∧ (∀ t ∈ tools, t.Declarable) ∧ own.Nodup ∧
      (∀ s ∈ own, s ∉ names) ∧ names ++ own = all := by
  -- on the tools; the names seen so far grow with each of them
  induction tools generalizing names i with
  | nil =>
      constructor
      · intro h
        exact ⟨[], rfl, by simp, List.nodup_nil, by simp, by simpa using Except.ok.inj h⟩
      · rintro ⟨own, hown, -, -, -, rfl⟩
        obtain rfl : own = [] := by simpa using hown.symm
        rw [checkEach, List.append_nil]
  | cons t tools ih =>
      simp only [checkEach_cons, bind_eq_ok, Tool.check_eq_ok, ih]
      constructor
      · rintro ⟨_, ⟨s, hs, ht, hnew, rfl⟩, own, hown, heach, hnodup, hall, rfl⟩
        refine ⟨s :: own, by simp [hs, hown], List.forall_mem_cons.mpr ⟨ht, heach⟩, ?_, ?_, by simp⟩
        · exact List.nodup_cons.mpr ⟨fun hmem => hall s hmem (by simp), hnodup⟩
        · refine List.forall_mem_cons.mpr ⟨hnew, fun u hu hmem => hall u hu ?_⟩
          exact List.mem_append_left _ hmem
      · rintro ⟨own, hown, heach, hnodup, hall, rfl⟩
        obtain ⟨ht, heach⟩ := List.forall_mem_cons.mp heach
        cases own with
        | nil => exact absurd hown (by simp)
        | cons s own =>
            obtain ⟨hs, hown⟩ := List.cons.inj hown
            obtain ⟨hnotMem, hnodup⟩ := List.nodup_cons.mp hnodup
            obtain ⟨hnew, hall⟩ := List.forall_mem_cons.mp hall
            refine ⟨_, ⟨s, hs, ht, hnew, rfl⟩, own, hown, heach, hnodup, fun u hu hmem => ?_,
              by simp⟩
            rcases List.mem_append.mp hmem with hmem | hmem
            · exact hall u hu hmem
            · exact hnotMem (List.mem_singleton.mp hmem ▸ hu)

theorem checkToolChoice_eq_ok {choice : Json} : checkToolChoice choice names = .ok () ↔
    choice = .null ∨ choice = .text "none" ∨
      names ≠ [] ∧ (choice = .text "auto" ∨ choice = .text "required" ∨
        ∃ s ∈ names, choice = .text s) := by
  unfold checkToolChoice
  split
  · simp
  · simp
  · next hnull hnone =>
    rw [guard_eq_ok, wrongType_eq_ok, List.isEmpty_iff]
    cases choice with
    | text s =>
        have hs : s ≠ "none" := fun h => hnone (h ▸ rfl)
        have hknown : (Json.text s).text?.any (· ∈ choiceModes ++ names) = true ↔
            s = "auto" ∨ s = "required" ∨ s ∈ names := by
          rw [Json.text?, Option.any_some, decide_eq_true_eq, List.mem_append, choiceModes]
          simp only [List.mem_cons, List.not_mem_nil, hs, or_false, false_or, or_assoc]
        by_cases hmem : s = "auto" ∨ s = "required" ∨ s ∈ names
        · rw [if_pos (hknown.mpr hmem)]
          simp [Json.isKey, hs, hmem]
        · rw [if_neg (mt hknown.mp hmem)]
          simp [refuse, hs, hmem]
    | _ => simp_all [Json.text?, refuse]

/-- A request passes if it does so without its tools, and they may be declared, and the choice made
among them. -/
theorem validate_withoutTools_iff {r : Request} : r.validate = .ok () ↔
    r.withoutTools.validate = .ok () ∧
      ∃ names, checkEach Tool.check [] 0 r.tools = .ok names ∧
        checkToolChoice r.toolChoice names = .ok () := by
  unfold Request.validate
  -- a request without messages is refused before its tools are looked at
  by_cases hempty : r.messages.isEmpty
  · rw [if_pos hempty, if_pos (show r.withoutTools.messages.isEmpty from hempty)]
    exact ⟨fun h => absurd h (by simp [refuse, bind, Except.bind]),
      fun h => absurd h.1 (by simp [refuse, bind, Except.bind])⟩
  · rw [if_neg hempty, if_neg (show ¬ r.withoutTools.messages.isEmpty from hempty)]
    simp only [bind_eq_ok]
    constructor
    · rintro ⟨names, htools, ⟨⟩, hchoice, hrest⟩
      exact ⟨⟨[], rfl, (), rfl, hrest⟩, names, htools, hchoice⟩
    · rintro ⟨⟨_, -, ⟨⟩, -, hrest⟩, names, htools, hchoice⟩
      exact ⟨names, htools, (), hchoice, hrest⟩

theorem chooses_iff {choice : Json} (h : tools.map (·.name) = names.map .text) :
    Chooses choice tools ↔ choice = .null ∨ choice = .text "none" ∨
      names ≠ [] ∧ (choice = .text "auto" ∨ choice = .text "required" ∨
        ∃ s ∈ names, choice = .text s) := by
  have hempty : tools = [] ↔ names = [] := by
    rw [← List.map_eq_nil_iff (f := (·.name)), h, List.map_eq_nil_iff]
  have hmem : (∃ t ∈ tools, choice = t.name) ↔ ∃ s ∈ names, choice = .text s := by
    have hsame : choice ∈ tools.map (·.name) ↔ choice ∈ names.map .text := by rw [h]
    simpa only [List.mem_map, eq_comm] using hsame
  rw [Chooses, Ne, hempty, hmem]

/-- **Which requests pass.** -/
theorem validate_iff {r : Request} : r.validate = .ok () ↔
    r.withoutTools.validate = .ok () ∧ Declarable r.tools ∧ Chooses r.toolChoice r.tools := by
  rw [validate_withoutTools_iff]
  refine and_congr_right fun _ => ?_
  simp only [checkEach_tools_eq_ok, List.not_mem_nil, not_false_eq_true, implies_true, true_and,
    List.nil_append, checkToolChoice_eq_ok]
  constructor
  · rintro ⟨_, ⟨own, hown, heach, hnodup, rfl⟩, hchoice⟩
    refine ⟨⟨heach, ?_⟩, (chooses_iff hown).mpr hchoice⟩
    rw [hown]
    exact List.Nodup.map (fun _ _ => Json.text.inj) hnodup
  · rintro ⟨⟨heach, hapart⟩, hchooses⟩
    obtain ⟨own, hown⟩ := exists_texts (List.forall_mem_map.mpr fun t ht =>
      (heach t ht).name.imp fun _ h => h.1)
    rw [hown] at hapart
    exact ⟨own, ⟨own, hown, heach, List.Nodup.of_map _ hapart, rfl⟩, (chooses_iff hown).mp hchooses⟩

end Tools

/-! ## What a body says of tools -/

/-- What a model is told about calling tools. -/
inductive ToldChoice where
  | nothing
  | auto
  | never
  | any
  | only (name : String)
  deriving DecidableEq

/-- What a choice means: a mode where it is the word for one, and else the name of a tool. -/
def askedChoice? : Json → Option ToldChoice
  | .null => some .nothing
  | .text s =>
    if s = "auto" then some .auto
    else if s = "none" then some .never
    else if s = "required" then some .any
    else some (.only s)
  | _ => none

/-- The tool of a declaration. -/
def Tool.ofDeclaration? (declaration : Json) : Option Tool := do
  let name ← declaration.field? "name"
  let description ← declaration.field? "description"
  let parameters ← declaration.field? "parameters"
  return { name, description, parameters }

/-- The items of a list that is in a field; none if the field is not there. -/
def Json.itemsUnder? (v : Json) (name : String) : Option (List Json) :=
  match v.field? name with
  | none => some []
  | some (.list items) => some items
  | some _ => none

/-- The tools that a body declares, in order. -/
def Provider.declared? : Provider → Json → Option (List Tool)
  | .groq, body => do
    let tools ← body.itemsUnder? "tools"
    tools.mapM fun tool => (tool.field? "function").bind Tool.ofDeclaration?
  | .gemini, body => do
    let groups ← body.itemsUnder? "tools"
    let declarations ← groups.mapM (·.itemsUnder? "functionDeclarations")
    declarations.flatten.mapM Tool.ofDeclaration?

/-- What a body tells the model about calling its tools. -/
def Provider.told? : Provider → Json → Option ToldChoice
  | .groq, body =>
    match body.field? "tool_choice" with
    | none => some .nothing
    | some (.text "auto") => some .auto
    | some (.text "none") => some .never
    | some (.text "required") => some .any
    | some choice =>
      match (choice.field? "function").bind (·.field? "name") with
      | some (.text name) => some (.only name)
      | _ => none
  | .gemini, body =>
    match body.field? "toolConfig" with
    | none => some .nothing
    | some config => do
      let calling ← config.field? "functionCallingConfig"
      match calling.field? "mode", calling.field? "allowedFunctionNames" with
      | some (.text "AUTO"), none => some .auto
      | some (.text "NONE"), none => some .never
      | some (.text "ANY"), none => some .any
      | some (.text "ANY"), some (.list [.text name]) => some (.only name)
      | _, _ => none

/-! ## What is written is told -/

section Written

variable {r : Request} {tools : List Tool} {choice : Json}

theorem Json.itemsUnder?_listed {v : Json} {name : String} {items : List Json}
    (h : v.field? name = listed? items) : v.itemsUnder? name = some items := by
  rw [itemsUnder?, h]
  cases items <;> rfl

theorem Groq.declared?_of_bodyOf {body : Json} (h : BodyOf r body) :
    Provider.groq.declared? body = some r.tools := by
  rw [Provider.declared?, Json.itemsUnder?_listed h.tools]
  exact mapM_map_eq_some (fun _ => by rfl) r.tools

theorem Gemini.declared?_of_field {body : Json} (h : body.field? "tools" = declarations? tools) :
    Provider.gemini.declared? body = some tools := by
  rw [Provider.declared?]
  cases tools with
  | nil =>
      have hnone : body.itemsUnder? "tools" = some [] := by
        rw [Json.itemsUnder?, h]
        rfl
      rw [hnone]
      rfl
  | cons t tools =>
      have hone : body.itemsUnder? "tools" =
          some [.object [("functionDeclarations", .list ((t :: tools).map renderTool))]] := by
        rw [Json.itemsUnder?, h]
        rfl
      rw [hone]
      show (((t :: tools).map renderTool) ++ []).mapM Tool.ofDeclaration? = _
      rw [List.append_nil]
      exact mapM_map_eq_some (fun _ => by rfl) (t :: tools)

/-- A choice is told as it was meant, whatever names the tools have. -/
theorem Groq.told?_of_field {body : Json} (hchoice : choice = .null ∨ ∃ s, choice = .text s)
    (h : body.field? "tool_choice" = choice.present?.map renderChoice) :
    Provider.groq.told? body = askedChoice? choice := by
  rw [Provider.told?, h]
  rcases hchoice with rfl | ⟨s, rfl⟩
  · rfl
  · by_cases hmode : s ∈ choiceModes
    · simp only [choiceModes, List.mem_cons, List.not_mem_nil, or_false] at hmode
      rcases hmode with rfl | rfl | rfl <;> rfl
    · have hobject : renderChoice (.text s) =
          .object [("type", .text "function"), ("function", .object [("name", .text s)])] :=
        if_neg (by simpa [Json.text?] using hmode)
      simp only [choiceModes, List.mem_cons, List.not_mem_nil, or_false, not_or] at hmode
      obtain ⟨hauto, hnone, hrequired⟩ := hmode
      have hpresent : (Json.text s).present? = some (.text s) := rfl
      rw [askedChoice?, if_neg hauto, if_neg hnone, if_neg hrequired, hpresent, Option.map_some,
        hobject]
      rfl

theorem Gemini.told?_of_field {body : Json} (hchoice : choice = .null ∨ ∃ s, choice = .text s)
    (h : body.field? "toolConfig" = choice.present?.map renderChoice) :
    Provider.gemini.told? body = askedChoice? choice := by
  rw [Provider.told?, h]
  rcases hchoice with rfl | ⟨s, rfl⟩
  · rfl
  · by_cases hauto : s = "auto"
    · subst hauto
      rfl
    by_cases hnone : s = "none"
    · subst hnone
      rfl
    by_cases hrequired : s = "required"
    · subst hrequired
      rfl
    have hobject : renderChoice (.text s) = .object [("functionCallingConfig",
        .object [("mode", .text "ANY"), ("allowedFunctionNames", .list [.text s])])] := by
      unfold renderChoice
      split
      · next h => exact absurd (Json.text.inj h) hauto
      · next h => exact absurd (Json.text.inj h) hnone
      · next h => exact absurd (Json.text.inj h) hrequired
      · rfl
    have hpresent : (Json.text s).present? = some (.text s) := rfl
    rw [askedChoice?, if_neg hauto, if_neg hnone, if_neg hrequired, hpresent, Option.map_some,
      hobject]
    rfl

theorem bodyTools_of_render {a : Adapter} {model : String} {stream : Bool} {written : WireRequest}
    {log : List LogLine} (hchoice : r.toolChoice = .null ∨ ∃ s, r.toolChoice = .text s)
    (h : a.render r model stream = .ok (written, log)) : ∃ body, written.body = some body ∧
      a.provider.declared? body = some r.tools ∧
      a.provider.told? body = askedChoice? r.toolChoice := by
  cases ha : a.provider with
  | groq =>
      rw [Adapter.render, ha] at h
      obtain ⟨rfl, -⟩ := Prod.mk.inj (Except.ok.inj h)
      have hbody := Groq.bodyOf_renderBody r model stream
      exact ⟨_, rfl, Groq.declared?_of_bodyOf hbody, Groq.told?_of_field hchoice hbody.toolChoice⟩
  | gemini =>
      obtain ⟨ts, system, -, -, rfl, -⟩ := (Gemini.render_eq_ok ha).mp h
      refine ⟨_, rfl, Gemini.declared?_of_field ?_, Gemini.told?_of_field hchoice ?_⟩
      · simp [Gemini.renderBody_eq, Json.field?, Entries.get?_append, Entries.get?_cons,
          Entries.get?_optional]
      · simp [Gemini.renderBody_eq, Json.field?, Entries.get?_append, Entries.get?_cons,
          Entries.get?_optional]

end Written

/-- What forces one tool is its name, and no word for a mode. -/
theorem eq_of_askedChoice? {choice : Json} {name : String}
    (h : askedChoice? choice = some (.only name)) :
    choice = .text name ∧ name ≠ "auto" ∧ name ≠ "none" ∧ name ≠ "required" := by
  cases choice with
  | text s =>
      rw [askedChoice?] at h
      split_ifs at h with hauto hnone hrequired
      · simp at h
      · simp at h
      · simp at h
      · obtain rfl := ToldChoice.only.inj (Option.some.inj h)
        exact ⟨rfl, hauto, hnone, hrequired⟩
  | _ => exact absurd h (by simp [askedChoice?])

theorem exists_askedChoice {choice : Json} (h : choice = .null ∨ ∃ s, choice = .text s) :
    ∃ told, askedChoice? choice = some told := by
  rcases h with rfl | ⟨s, rfl⟩
  · exact ⟨_, rfl⟩
  · rw [askedChoice?]
    split_ifs
    · exact ⟨_, rfl⟩
    · exact ⟨_, rfl⟩
    · exact ⟨_, rfl⟩
    · exact ⟨_, rfl⟩

/-- A name among names that are told apart is there just once. -/
theorem countP_name {tools : List Tool} (h : Declarable tools) {t : Tool} (ht : t ∈ tools)
    {name : String} (hname : t.name = .text name) :
    tools.countP (fun u => u.name.text? = some name) = 1 := by
  obtain ⟨own, hown⟩ := exists_texts (List.forall_mem_map.mpr fun u hu =>
    (h.each u hu).name.imp fun _ h => h.1)
  have hapart := h.apart
  rw [hown] at hapart
  have hmem : name ∈ own := by
    have htext : Json.text name ∈ own.map .text := hown ▸ hname ▸ List.mem_map_of_mem ht
    simpa using htext
  have hcount : tools.countP (fun u => u.name.text? = some name) =
      (own.map Json.text).countP (fun v => v.text? = some name) := by
    rw [← hown, List.countP_map]
    rfl
  rw [hcount, List.countP_map]
  have hone := List.count_eq_one_of_mem (List.Nodup.of_map _ hapart) hmem
  rw [← hone, List.count]
  exact List.countP_congr fun s _ => by simp [Json.text?]

/-- What passes is written if it can be. -/
theorem exists_render {r : Request} (hr : r.Accepted) {a : Adapter}
    (ha : a.provider = .groq ∨ ∀ m ∈ r.messages, m.HasObjects ∧ m.Fits a.room) (model : String)
    (stream : Bool) :
    ∃ written log, a.render r model stream = .ok (written, log) := by
  cases hp : a.provider with
  | groq =>
      rw [Adapter.render, hp]
      exact ⟨_, _, rfl⟩
  | gemini =>
      have hwritable := ha.resolve_left (by simp [hp])
      have hobjects : ∀ m ∈ r.messages, m.HasObjects := fun m hm => (hwritable m hm).1
      rcases Gemini.render_of_hasObjects hp hr hobjects model stream with
        ⟨-, hwritten⟩ | ⟨⟨m, hm, hdeep⟩, -⟩
      · exact hwritten
      · exact absurd (hwritable m hm).2 hdeep

/-- **Which requests pass, and what is written of their tools.** A request passes just if it does so
without its tools, and its tools may be declared, and the choice made among them. It is then written
for Groq, and for Gemini if the arguments of all calls in it are objects and the texts that are read
leave the reader room. What is written declares its tools, in order. It tells the model the choice as
it was meant: a word for a mode is that mode even where a tool goes by it, and any other is the name
of exactly one of the tools. -/
theorem Request.validate_iff_declared (r : Request) :
    (r.validate = .ok () ↔
      r.withoutTools.validate = .ok () ∧ Declarable r.tools ∧ Chooses r.toolChoice r.tools) ∧
    (r.validate = .ok () → ∀ (a : Adapter) (model : String) (stream : Bool),
      (a.provider = .groq ∨ (∀ m ∈ r.messages, m.HasObjects ∧ m.Fits a.room) →
        ∃ written log, a.render r model stream = .ok (written, log)) ∧
      ∀ written log, a.render r model stream = .ok (written, log) →
        ∃ body told, written.body = some body ∧
          a.provider.declared? body = some r.tools ∧
          a.provider.told? body = some told ∧ askedChoice? r.toolChoice = some told ∧
          ∀ name, told = .only name →
            r.tools.countP (fun t => t.name.text? = some name) = 1) := by
  refine ⟨validate_iff, fun hvalid a model stream => ?_⟩
  have hr := accepted_of_validate hvalid
  obtain ⟨-, hdeclarable, hchooses⟩ := validate_iff.mp hvalid
  refine ⟨fun ha => exists_render hr ha model stream, fun written log hrender => ?_⟩
  obtain ⟨body, hbody, hdeclared, htold⟩ := bodyTools_of_render hr.toolChoice hrender
  obtain ⟨told, hasked⟩ := exists_askedChoice hr.toolChoice
  refine ⟨body, told, hbody, hdeclared, htold.trans hasked, hasked, ?_⟩
  rintro name rfl
  -- a choice that is no word for a mode passed as the name of a tool
  obtain ⟨hchoice, hauto, hnone, hrequired⟩ := eq_of_askedChoice? hasked
  rw [hchoice] at hchooses
  obtain ⟨t, ht, hname⟩ : ∃ t ∈ r.tools, Json.text name = t.name := by
    rcases hchooses with hnull | hword | ⟨-, hword | hword | hmem⟩
    · exact absurd hnull (by simp)
    · exact absurd (Json.text.inj hword) hnone
    · exact absurd (Json.text.inj hword) hauto
    · exact absurd (Json.text.inj hword) hrequired
    · exact hmem
  exact countP_name hdeclarable ht hname.symm

/-- A request with two tools, one of which goes by the word for a mode, and a call whose arguments
are a list. -/
def autoTool (choice arguments : String) : Request :=
  { messages := [
      { role := .text "user", content := .text "Hi" },
      { role := .text "assistant", toolCalls := [
        { id := .text "c1", name := .text "auto", arguments := .text arguments }] }]
    tools := [{ name := .text "auto" }, { name := .text "look_up-2" }]
    toolChoice := .text choice }

/-- The word is the mode, and the other name is a tool. -/
theorem Request.validate_iff_declared_autoTool :
    let a : Adapter := { provider := .groq, credential := ⟨"groq", "k"⟩, baseUrl := "https://x" }
    let b : Adapter :=
      { provider := .gemini, credential := ⟨"gemini", "k"⟩, baseUrl := "https://x" }
    (autoTool "auto" "").validate = .ok () ∧ (autoTool "look_up-2" "").validate = .ok () ∧
      (∃ written log body, a.render (autoTool "auto" "") "m" false = .ok (written, log) ∧
        written.body = some body ∧ Provider.groq.declared? body = some (autoTool "auto" "").tools ∧
        Provider.groq.told? body = some .auto) ∧
      ∃ written log body, b.render (autoTool "look_up-2" "") "m" false = .ok (written, log) ∧
        written.body = some body ∧ Provider.gemini.told? body = some (.only "look_up-2") := by
  intro a b
  have hauto : (autoTool "auto" "").validate = .ok () := rfl
  have hother : (autoTool "look_up-2" "").validate = .ok () := rfl
  have hwritable : ∀ m ∈ (autoTool "look_up-2" "").messages, m.HasObjects ∧ m.Fits b.room := by
    intro m hm
    simp only [autoTool, List.mem_cons, List.not_mem_nil, or_false] at hm
    rcases hm with rfl | rfl
    · exact Gemini.writable_of_silent rfl rfl b.room
    · refine ⟨by simp [RequestMessage.HasObjects, RequestCall.HasObject], ?_, ?_⟩
      · intro c hc s hs
        obtain rfl := List.mem_singleton.mp hc
        obtain rfl := Json.text.inj hs
        rfl
      · exact fun hby => absurd hby (by decide)
  obtain ⟨hwritten, htold⟩ := (validate_iff_declared _).2 hauto a "m" false
  obtain ⟨written, log, hrender⟩ := hwritten (.inl rfl)
  obtain ⟨body, told, hbody, hdeclared, htold, hasked, -⟩ := htold written log hrender
  obtain ⟨hwritten', htold'⟩ := (validate_iff_declared _).2 hother b "m" false
  obtain ⟨written', log', hrender'⟩ := hwritten' (.inr hwritable)
  obtain ⟨body', told', hbody', -, htold', hasked', -⟩ := htold' written' log' hrender'
  obtain rfl := Option.some.inj hasked
  obtain rfl := Option.some.inj hasked'
  exact ⟨hauto, hother, ⟨written, log, body, hrender, hbody, hdeclared, htold⟩,
    written', log', body', hrender', hbody', htold'⟩

/-- It passes with a list for arguments too, and is not written for Gemini then. -/
theorem Request.validate_not_rendered :
    let b : Adapter :=
      { provider := .gemini, credential := ⟨"gemini", "k"⟩, baseUrl := "https://x" }
    (autoTool "auto" "[]").validate = .ok () ∧
      ∀ written log, b.render (autoTool "auto" "[]") "m" false ≠ .ok (written, log) := by
  intro b
  refine ⟨rfl, fun written log hrender => ?_⟩
  obtain ⟨ts, -, hturns, -⟩ := (Gemini.render_eq_ok rfl).mp hrender
  have hrefused : Gemini.turns b.room (autoTool "auto" "[]").messages =
      refuse (.toolCalls 1) (.argumentsNotObject (.text "c1")) := rfl
  exact absurd (hrefused.symm.trans hturns) (by simp [refuse])

end ChatClient
