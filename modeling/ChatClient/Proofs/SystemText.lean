import ChatClient.Proofs.FiniteBodies

/-!
# The system's text in what Gemini is given

The messages of the system are no turns. Their texts, with an empty line between them, are the
system instruction; where there is no place for one they go in front of what the user says first,
and where the user says nothing they are a turn by themselves. Nothing else that is written depends
on them, so what they do is told by a comparison with the same request without them.

The place of the text is looked for among the turns, not among the messages: a turn is the user's if
it is not the model's and holds no result. For an accepted conversation these are just the turns
that tell a message of the user's.
-/

namespace ChatClient

/-- The messages that are not the system's. -/
def withoutSystem (ms : List RequestMessage) : List RequestMessage :=
  ms.filter fun m => !m.isBy .system

/-- A request without its system messages. -/
def Request.withoutSystem (r : Request) : Request :=
  { r with messages := ChatClient.withoutSystem r.messages }

end ChatClient

namespace ChatClient.Gemini

/-! ## The turns without the system's messages -/

section Places

variable {room i : Nat} {p p' : Progress}

/-- Where a call stands shows in the objection to it only. -/
theorem callArguments_anywhere {c : RequestCall} {args : Entries}
    (h : callArguments room i c = .ok args) (j : Nat) : callArguments room j c = .ok args := by
  rw [callArguments, callArguments_eq_ok h]

theorem callParts_anywhere {calls : List RequestCall} {parts : List Part}
    (h : callParts room i calls = .ok parts) (j : Nat) : callParts room j calls = .ok parts := by
  induction calls generalizing parts with
  | nil => exact h
  | cons c calls ih =>
      rw [callParts] at h ⊢
      split at h
      · exact absurd h (by simp [throw, throwThe, MonadExceptOf.throw, bind, Except.bind])
      · next hkey =>
        simp only [bind_eq_ok] at h
        obtain ⟨args, hargs, rest, hrest, hparts⟩ := h
        rw [if_neg hkey, callArguments_anywhere hargs j, ih hrest]
        exact hparts

theorem Progress.add_anywhere {m : RequestMessage} (h : p.add room i m = .ok p') (j : Nat) :
    p.add room j m = .ok p' := by
  rw [Progress.add] at h ⊢
  split at h
  · next hsystem => rwa [if_pos hsystem]
  · next hsystem =>
    rw [if_neg hsystem]
    split at h
    · next htool => rwa [if_pos htool]
    · next htool =>
      rw [if_neg htool]
      obtain ⟨parts, hparts, hp'⟩ := exceptMap_eq_ok.mp h
      exact exceptMap_eq_ok.mpr ⟨parts, callParts_anywhere hparts j, hp'⟩

/-- The loop passes the system's messages over: without them it comes to the same. -/
theorem Progress.addAll_withoutSystem {ms : List RequestMessage}
    (h : p.addAll room i ms = .ok p') (j : Nat) : p.addAll room j (withoutSystem ms) = .ok p' := by
  induction ms generalizing p i j with
  | nil => exact h
  | cons m ms ih =>
      rw [Progress.addAll] at h
      cases hadd : p.add room i m with
      | error e =>
          rw [hadd] at h
          exact absurd h (by simp)
      | ok q =>
          rw [hadd] at h
          cases hsystem : m.isBy .system with
          | true =>
              -- nothing is added for it
              rw [Progress.add, if_pos hsystem] at hadd
              obtain rfl := Except.ok.inj hadd
              rw [withoutSystem, List.filter_cons_of_neg (by simp [hsystem])]
              exact ih h j
          | false =>
              rw [withoutSystem, List.filter_cons_of_pos (by simp [hsystem]), Progress.addAll,
                Progress.add_anywhere hadd j]
              exact ih h (j + 1)

end Places

theorem turns_withoutSystem {room : Nat} {ms : List RequestMessage} {ts : List Turn}
    (h : turns room ms = .ok ts) : turns room (withoutSystem ms) = .ok ts := by
  obtain ⟨p, hadd, hts⟩ := exceptMap_eq_ok.mp h
  exact exceptMap_eq_ok.mpr ⟨p, Progress.addAll_withoutSystem hadd 0, hts⟩

/-! ## The system's text -/

theorem systemText?_withoutSystem (ms : List RequestMessage) :
    systemText? (withoutSystem ms) = .ok none := by
  have hnone : (withoutSystem ms).filter (·.isBy .system) = [] := by
    refine List.filter_eq_nil_iff.mpr fun m hm => ?_
    have hspoken := List.of_mem_filter hm
    simpa using hspoken
  rw [systemText?, hnone, List.map_nil]

theorem texts_of_mapM {vs : List Json} {texts : List String}
    (h : vs.mapM Json.text? = some texts) : vs = texts.map .text := by
  induction vs generalizing texts with
  | nil =>
      obtain rfl : [] = texts := by simpa using h
      rfl
  | cons v vs ih =>
      rw [List.mapM_cons] at h
      obtain ⟨s, hs, h⟩ := Option.bind_eq_some_iff.mp h
      obtain ⟨rest, hrest, htexts⟩ := Option.bind_eq_some_iff.mp h
      obtain rfl := Option.some.inj htexts
      cases v with
      | text t =>
          obtain rfl : t = s := Option.some.inj hs
          rw [ih hrest, List.map_cons]
      | _ => exact absurd hs (by simp [Json.text?])

/-- The text is made of what all the system's messages say, in their order. -/
theorem texts_of_systemText? {ms : List RequestMessage} {T : String}
    (h : systemText? ms = .ok (some T)) :
    ∃ texts, (ms.filter (·.isBy .system)).map (·.content) = texts.map .text ∧
      T = Text.joinWith "\n\n" texts := by
  unfold systemText? at h
  split at h
  · exact absurd h (by simp)
  · split at h
    · next texts htexts =>
      exact ⟨texts, texts_of_mapM htexts, (Option.some.inj (Except.ok.inj h)).symm⟩
    · exact absurd h (by simp)

/-! ## The turns in which the user speaks -/

section Spoken

variable {run : List Placed} {t : Turn}

/-- What the user says is a turn of its own, in which the user speaks. -/
theorem Tells.of_user (h : Tells run t) {p : Placed} (hp : p ∈ run)
    (huser : p.message.isBy .user = true) :
    run = [p] ∧ t.isSpoken = true ∧ t.holdsResult = false := by
  cases h with
  | results hparts =>
      have htool := isBy_tool_of_reports hparts p hp
      exact absurd htool (by simp [isBy_eq_false huser])
  | @speech before m content calls hby hcontent hcalls =>
      obtain rfl := List.mem_singleton.mp hp
      have hassistant : m.isBy .assistant = false := isBy_eq_false huser (by simp)
      refine ⟨rfl, ?_, not_isResult_of_speech hcalls⟩
      rw [Turn.isSpoken, not_isResult_of_speech hcalls, hassistant]
      rfl

/-- In the turns of the others, which are the tools' and the assistant's, the user does not
speak. -/
theorem Tells.user_of_isSpoken {ms : List RequestMessage} (hms : AcceptedMessages ms)
    (hrun : run ∈ turnsOf ms) (h : Tells run t) (ht : t.isSpoken = true) :
    ∃ p ∈ run, p.message.isBy .user = true := by
  cases h with
  | results hparts =>
      cases hparts with
      | nil => exact absurd rfl (List.ne_nil_of_mem_splitBy hrun)
      | cons hp _ =>
          obtain ⟨-, -, -⟩ := hp
          exact absurd ht (by simp [Turn.isSpoken, Part.isResult])
  | @speech before m content calls hby hcontent hcalls =>
      have hmem : (⟨before, m⟩ : Placed) ∈ [⟨before, m⟩] := List.mem_singleton.mpr rfl
      have hsystem : m.isBy .system = false := not_system_of_mem_turn hrun hmem
      obtain ⟨role, hrole⟩ := (accepted_of_mem_turn hms hrun hmem).formed.role
      have hrole := isBy_of_role hrole
      refine ⟨_, hmem, ?_⟩
      cases role with
      | system => exact absurd hsystem (by simp [hrole])
      | user => simp [hrole]
      | assistant => exact absurd ht (by simp [Turn.isSpoken, hrole])
      | tool => exact absurd hby (by simp [hrole])

end Spoken

/-! ## The text among the turns -/

/-- Where the system's text stands among the turns that tell a conversation: in front of what the
user says first, or, where the user says nothing, in a turn ahead of all. -/
inductive Prefaced (T : String) : List (List Placed) → List Turn → List Turn → Prop
  | user {runs runs' : List (List Placed)} {p : Placed} {ts ts' : List Turn} {t : Turn}
    (hbefore : List.Forall₂ Tells runs ts) (ht : Tells [p] t) (hafter : List.Forall₂ Tells runs' ts')
    (huser : p.message.isBy .user = true)
    (hfirst : ∀ run ∈ runs, ∀ q ∈ run, q.message.isBy .user = false)
    (hresult : t.holdsResult = false) :
    Prefaced T (runs ++ [p] :: runs') (ts ++ t :: ts')
      (ts ++ { t with parts := .text (.text (T ++ "\n\n")) :: t.parts } :: ts')
  | alone {runs : List (List Placed)} {ts : List Turn} (htells : List.Forall₂ Tells runs ts)
    (hnone : ∀ run ∈ runs, ∀ q ∈ run, q.message.isBy .user = false) :
    Prefaced T runs ts (⟨false, [.text (.text T)]⟩ :: ts)

/-- An item on the right has its counterpart on the left, and what is around it too. -/
theorem split_of_forall₂ {α β : Type} {S : α → β → Prop} {as : List α} {bs bs' : List β} {b : β}
    (h : List.Forall₂ S as (bs ++ b :: bs')) :
    ∃ as₁ a as₂, as = as₁ ++ a :: as₂ ∧ List.Forall₂ S as₁ bs ∧ S a b ∧ List.Forall₂ S as₂ bs' := by
  induction bs generalizing as with
  | nil =>
      obtain ⟨a, as₂, hab, hrest, rfl⟩ := List.forall₂_cons_right_iff.mp h
      exact ⟨[], a, as₂, rfl, .nil, hab, hrest⟩
  | cons b' bs ih =>
      obtain ⟨a', as, hab', hrest, rfl⟩ := List.forall₂_cons_right_iff.mp h
      obtain ⟨as₁, a, as₂, rfl, hbefore, hab, hafter⟩ := ih hrest
      exact ⟨a' :: as₁, a, as₂, rfl, .cons hab' hbefore, hab, hafter⟩

/-- Runs that are told in turns in which the user does not speak have nothing of the user's. -/
theorem not_user_of_not_isSpoken {runs : List (List Placed)} {ts : List Turn}
    (h : List.Forall₂ Tells runs ts) (hts : ∀ t ∈ ts, t.isSpoken = false) :
    ∀ run ∈ runs, ∀ q ∈ run, q.message.isBy .user = false := by
  intro run hrun q hq
  obtain ⟨t, ht, htells⟩ := exists_of_forall₂_left h hrun
  rw [← Bool.not_eq_true]
  intro huser
  obtain ⟨-, hspoken, -⟩ := htells.of_user hq huser
  exact absurd hspoken (by simp [hts t ht])

/-- The text goes where the user speaks first. -/
theorem prefaced_foldSystem {ms : List RequestMessage} (hms : AcceptedMessages ms) {ts : List Turn}
    (h : List.Forall₂ Tells (turnsOf ms) ts) (T : String) :
    Prefaced T (turnsOf ms) ts (foldSystem T ts) := by
  rw [foldSystem]
  rcases foldInto?_spec T ts with ⟨hnone, hts⟩ | ⟨earlier, t, later, rfl, hearlier, ht, hsome⟩
  · rw [hnone]
    exact .alone h (not_user_of_not_isSpoken h hts)
  · rw [hsome]
    obtain ⟨runs, run, runs', hruns, hbefore, htells, hafter⟩ := split_of_forall₂ h
    have hrun : run ∈ turnsOf ms := by
      rw [hruns]
      exact List.mem_append_cons_self
    obtain ⟨p, hp, huser⟩ := htells.user_of_isSpoken hms hrun ht
    obtain ⟨rfl, -, hresult⟩ := htells.of_user hp huser
    rw [hruns]
    exact .user hbefore htells hafter huser (not_user_of_not_isSpoken hbefore hearlier) hresult

/-! ## The body around it -/

/-- What stands in a body behind what is said: the tools and the settings. -/
def furtherFields (r : Request) : Entries :=
  Entries.optional "tools" (declarations? r.tools) ++
  Entries.optional "toolConfig" (r.toolChoice.present?.map renderChoice) ++
  Entries.optional "generationConfig" (configuration? r)

theorem get?_furtherFields (r : Request) {name : String}
    (hname : name ∉ ["tools", "toolConfig", "generationConfig"]) :
    (furtherFields r).get? name = none := by
  simp only [List.mem_cons, List.not_mem_nil, or_false, not_or] at hname
  obtain ⟨htools, htoolConfig, hconfig⟩ := hname
  simp only [furtherFields, Entries.get?_append, Entries.get?_optional, if_neg (Ne.symm htools),
    if_neg (Ne.symm htoolConfig), if_neg (Ne.symm hconfig), Option.none_or]

section Body

variable {a : Adapter} {r : Request} {model : String} {system : Option String} {ts : List Turn}

theorem renderBody_furtherFields : renderBody a r model system ts =
    ("contents", .list ((sentTurns a model system ts).map Turn.json)) ::
      (Entries.optional "systemInstruction" (instruction? a model system ts) ++
        furtherFields r) := by
  rw [renderBody_eq, furtherFields]
  simp only [List.append_assoc, List.cons_append, List.nil_append]

/-- A request on the wire around a body. -/
def envelope (a : Adapter) (model : String) (stream : Bool) (body : Entries) : WireRequest where
  method := "POST"
  url := methodUrl a model stream
  headers := [("x-goog-api-key", a.credential.secret), ("Content-Type", "application/json")]
  body := some (.object body)
  params := if stream then [("alt", .text "sse")] else []

theorem render_eq_ok (ha : a.provider = .gemini) {stream : Bool} {written : WireRequest}
    {log : List LogLine} : a.render r model stream = .ok (written, log) ↔
    ∃ ts system, turns a.room r.messages = .ok ts ∧ systemText? r.messages = .ok system ∧
      envelope a model stream (renderBody a r model system ts) = written ∧
      renderLogs a model system ts = log := by
  rw [Adapter.render, ha]
  simp only [Gemini.render, bind_eq_ok]
  constructor
  · rintro ⟨ts, hturns, system, hsystem, hwritten⟩
    obtain ⟨hwritten, hlog⟩ := Prod.mk.inj (Except.ok.inj hwritten)
    exact ⟨ts, system, hturns, hsystem, hwritten, hlog⟩
  · rintro ⟨ts, system, hturns, hsystem, rfl, rfl⟩
    exact ⟨ts, hturns, system, hsystem, rfl⟩

end Body

end ChatClient.Gemini

namespace ChatClient

open Gemini

/-- **The place of the system's text.** Whenever an accepted request with system messages is written
for Gemini, it can be written without them, and the two differ in nothing but the body. If something
is left to be said and the model takes a system instruction, the text is that, and the contents are
the same. Otherwise there is no instruction: the text, with an empty line after it, goes in front of
what the user says first, or into a turn ahead of all where the user says nothing. -/
theorem Gemini.render_system {a : Adapter} (ha : a.provider = .gemini) {r : Request}
    (hr : r.validate = .ok ()) (hsystem : r.messages.any (·.isBy .system) = true) {model : String}
    {stream : Bool} {written : WireRequest} {log : List LogLine}
    (h : a.render r model stream = .ok (written, log)) :
    ∃ (texts : List String) (T : String) (written₀ : WireRequest) (log₀ : List LogLine)
        (ts : List Turn) (further : Entries),
      (r.messages.filter (·.isBy .system)).map (·.content) = texts.map .text ∧
      T = Text.joinWith "\n\n" texts ∧
      a.render r.withoutSystem model stream = .ok (written₀, log₀) ∧
      { written with body := none } = { written₀ with body := none } ∧
      written₀.body = some (.object (("contents", .list (ts.map Turn.json)) :: further)) ∧
      further.get? "contents" = none ∧ further.get? "systemInstruction" = none ∧
      (ts ≠ [] → takesSystemInstruction a model = true →
        written.body = some (.object (("contents", .list (ts.map Turn.json)) ::
          ("systemInstruction", .object [("parts", .list [.object [("text", .text T)]])]) ::
          further))) ∧
      (ts = [] ∨ takesSystemInstruction a model = false →
        ∃ contents, Prefaced T (turnsOf r.messages) ts contents ∧
          written.body = some (.object (("contents", .list (contents.map Turn.json)) ::
            further))) := by
  have hr := accepted_of_validate hr
  obtain ⟨ts, system, hturns, htext, rfl, -⟩ := (render_eq_ok ha).mp h
  cases system with
  | none =>
      obtain ⟨m, hm, hby⟩ := List.any_eq_true.mp hsystem
      exact absurd hby (by simp [no_system_of_systemText? htext m hm])
  | some T =>
      obtain ⟨texts, htexts, hT⟩ := texts_of_systemText? htext
      have hbare : a.render r.withoutSystem model stream = .ok (_, _) := (render_eq_ok ha).mpr
        ⟨ts, none, turns_withoutSystem hturns, systemText?_withoutSystem r.messages, rfl, rfl⟩
      refine ⟨texts, T, _, _, ts, furtherFields r, htexts, hT, hbare, rfl, ?_,
        get?_furtherFields r (by simp), get?_furtherFields r (by simp), ?_, ?_⟩
      · exact congrArg (some ∘ Json.object) renderBody_furtherFields
      · intro hts htakes
        have hfolds : folds a model ts = false := by simp [folds, hts, htakes]
        rw [envelope, renderBody_furtherFields, sentTurns, instruction?, hfolds]
        rfl
      · intro hplace
        have hfolds : folds a model ts = true := by simpa [folds] using hplace
        refine ⟨_, prefaced_foldSystem hr.messages (tells_of_turns hr.messages hturns) T, ?_⟩
        rw [envelope, renderBody_furtherFields, sentTurns, instruction?, hfolds]
        rfl

/-- A conversation in which the assistant speaks first and the user last, with two messages of the
system's ahead. -/
def Gemini.briefed : Request :=
  { messages := [
      { role := .text "system", content := .text "Be brief." },
      { role := .text "system", content := .text "Be kind." },
      { role := .text "assistant", toolCalls := [{ id := .text "c1", name := .text "locate" }] },
      { role := .text "tool", content := .text "Oslo", toolCallId := .text "c1" },
      { role := .text "user", content := .text "And when?" }] }

/-- Both texts stand in one place: in the user's turn, behind the result, for a model that takes no
system instruction, and in the instruction for another one. -/
theorem Gemini.render_system_briefed :
    let a : Adapter :=
      { provider := .gemini, credential := ⟨"gemini", "k"⟩, baseUrl := "https://x" }
    let T := "Be brief.\n\nBe kind."
    briefed.validate = .ok () ∧ briefed.messages.any (·.isBy .system) = true ∧
      (∃ written log ts contents further, a.render briefed "gemma-3" false = .ok (written, log) ∧
        Prefaced T (turnsOf briefed.messages) ts contents ∧
        written.body = some (.object (("contents", .list (contents.map Turn.json)) :: further))) ∧
      ∃ written log ts further, a.render briefed "gemini-2" true = .ok (written, log) ∧ ts ≠ [] ∧
        written.body = some (.object (("contents", .list (ts.map Turn.json)) ::
          ("systemInstruction", .object [("parts", .list [.object [("text", .text T)]])]) ::
          further)) := by
  intro a T
  have hr : briefed.validate = .ok () := rfl
  have hsystem : briefed.messages.any (·.isBy .system) = true := rfl
  have hjoined : ∀ texts : List String,
      (briefed.messages.filter (·.isBy .system)).map (·.content) = texts.map .text →
      Text.joinWith "\n\n" texts = T := by
    intro texts htexts
    have hgiven : (["Be brief.", "Be kind."].map Json.text) = texts.map .text := htexts
    obtain rfl := List.map_injective_iff.mpr (fun _ _ => Json.text.inj) hgiven
    rfl
  refine ⟨hr, hsystem, ?_, ?_⟩
  · obtain ⟨written, log, h⟩ :
        ∃ written log, a.render briefed "gemma-3" false = .ok (written, log) := ⟨_, _, rfl⟩
    obtain ⟨texts, _, written₀, log₀, ts, further, htexts, rfl, -, -, -, -, -, -, hfolded⟩ :=
      render_system (a := a) rfl hr hsystem h
    obtain ⟨contents, hplace, hbody⟩ := hfolded (.inr rfl)
    rw [hjoined texts htexts] at hplace
    exact ⟨written, log, ts, contents, further, h, hplace, hbody⟩
  · obtain ⟨written, log, h⟩ :
        ∃ written log, a.render briefed "gemini-2" true = .ok (written, log) := ⟨_, _, rfl⟩
    obtain ⟨texts, _, written₀, log₀, ts, further, htexts, rfl, hbare, -, hbody₀, -, -, htakes, -⟩ :=
      render_system (a := a) rfl hr hsystem h
    have hts : ts ≠ [] := by
      rintro rfl
      -- three turns are written without the system's messages
      obtain ⟨rfl, -⟩ := Prod.mk.inj (Except.ok.inj hbare)
      have hfields := List.cons.inj (Json.object.inj (Option.some.inj hbody₀))
      exact List.cons_ne_nil _ _ (Json.list.inj (Prod.mk.inj hfields.1).2)
    have hbody := htakes hts rfl
    rw [hjoined texts htexts] at hbody
    exact ⟨written, log, ts, further, h, hts, hbody⟩

end ChatClient
