import ChatClient.Proofs.Arguments
import ChatClient.Proofs.Conversation
import ChatClient.Proofs.GroqStreamed
import ChatClient.Proofs.Received

/-!
# Giving a service its own turn back

A caller that runs tools goes on with the prompt, the message of the response, and an answer
to each call. Validation lets the conversation through just if the message says something and
each call can be answered, and then the service gets back what it said.

For Groq that is a message in which the calls stand as they were. For Gemini it is a turn of
parts: the arguments of a call are a text in the message, which is loaded again, and the name of
a result is looked up by the id of its call, which takes ids that are told apart. The result is sent
as an object, so its text is read too; where it or some arguments are nested too deep for the
reader, nothing is sent.
-/

namespace ChatClient

/-- The answers to some calls, as far as there are results. -/
def answers (calls : List ToolCall) (results : List String) : List Message :=
  List.zipWith (fun c t => .tool c.id t) calls results

/-- The conversation that goes on after a response: the prompt, the message of the response,
and an answer to each of its calls. -/
def Response.followUp (r : Response) (prompt : String) (results : List String) : List Message :=
  .user prompt :: r.message :: answers r.toolCalls results

/-- The message of a response is its text and its calls. -/
theorem message_eq {r : Response} {text : String} {calls : List ToolCall}
    (h : r.message = .assistant text calls) : r.message = .assistant r.text r.toolCalls := by
  rw [Response.text, Response.toolCalls, h]
  rfl

/-- A request that has nothing but messages. -/
def Request.ofMessages (ms : List Message) : Request := { messages := ms.map Message.toRequest }

/-! ## When the conversation may go on -/

/-- A request of messages is valid just if they are a conversation. -/
theorem validate_ofMessages {ms : List Message} (hne : ms ≠ []) :
    (Request.ofMessages ms).validate = .ok () ↔ Conversation ms := by
  have hspec := checkEach_spec conversation_nil stands_nil ms
  rw [List.length_nil] at hspec
  have hvalidate : (Request.ofMessages ms).validate = checkMessages (ms.map Message.toRequest) := by
    cases ms with
    | nil => exact absurd rfl hne
    | cons m ms => rfl
  rw [hvalidate, checkMessages]
  cases hrun : checkEach Turn.check {} 0 (ms.map Message.toRequest) with
  | ok t =>
      rw [hrun] at hspec
      exact ⟨fun _ => hspec, fun _ => rfl⟩
  | error o =>
      rw [hrun] at hspec
      obtain ⟨i, f, -, hnot, -, -⟩ := hspec
      exact ⟨fun h => absurd h (by simp [Except.map]), fun h => absurd (h.take _) hnot⟩

theorem fits_user {prompt : String} :
    Fits [] (.user prompt) ↔ ∃ c ∈ prompt.toList, Text.isBlank c = false := by
  rw [fits_iff (r := .user) rfl]
  simp [Message.user]

theorem fits_assistant {before : List Message} {text : String} {calls : List ToolCall}
    (hnamed : ∀ c ∈ calls, c.id ≠ "" ∧ c.name ≠ "") :
    Fits before (.assistant text calls) ↔
      (text ≠ "" ∨ calls ≠ []) ∧ (calls.map (·.id)).Nodup := by
  rw [fits_iff (r := .assistant) rfl]
  simpa [Message.assistant] using fun _ _ => hnamed

theorem fits_tool {before : List Message} {id text : String} (hid : id ≠ "")
    (hawaits : Awaits before id) : Fits before (.tool id text) := by
  rw [fits_iff (r := .tool) rfl]
  simpa [Message.tool] using ⟨hid, hawaits⟩

/-- Calls that are awaited may be answered one after the other. -/
theorem conversation_answers {calls : List ToolCall} {results : List String} {before : List Message}
    (hbefore : Conversation before) (hawaits : ∀ c ∈ calls, Awaits before c.id)
    (hids : ∀ c ∈ calls, c.id ≠ "") (hnodup : (calls.map (·.id)).Nodup) :
    Conversation (before ++ answers calls results) := by
  unfold answers
  induction calls generalizing results before with
  | nil => simpa using hbefore
  | cons c calls ih =>
      cases results with
      | nil => simpa using hbefore
      | cons t results =>
          rw [List.zipWith_cons_cons, List.append_cons]
          rw [List.map_cons, List.nodup_cons] at hnodup
          have hfits : Fits before (.tool c.id t) :=
            fits_tool (hids c List.mem_cons_self) (hawaits c List.mem_cons_self)
          refine ih (conversation_snoc.mpr ⟨hbefore, hfits⟩) ?_
            (fun d hd => hids d (List.mem_cons_of_mem _ hd)) hnodup.2
          -- the other calls have other ids and wait on
          intro d hd
          have hawaits := hawaits d (List.mem_cons_of_mem _ hd)
          refine awaits_snoc.mpr (.inr ⟨rfl, fun he => hnodup.1 ?_, hawaits⟩)
          rw [Option.some.inj he]
          exact List.mem_map_of_mem hd

/-- The conversation may go on just if the response says something and its calls can be told
apart. -/
theorem conversation_followUp {r : Response} (hr : r.message = .assistant r.text r.toolCalls)
    (hnamed : ∀ c ∈ r.toolCalls, c.id ≠ "" ∧ c.name ≠ "") {prompt : String}
    (hprompt : ∃ c ∈ prompt.toList, Text.isBlank c = false) {results : List String} :
    Conversation (r.followUp prompt results) ↔
      (r.text ≠ "" ∨ r.toolCalls ≠ []) ∧ (r.toolCalls.map (·.id)).Nodup := by
  have htwo : Conversation ([.user prompt] ++ [r.message]) ↔
      (r.text ≠ "" ∨ r.toolCalls ≠ []) ∧ (r.toolCalls.map (·.id)).Nodup := by
    have huser : Conversation [.user prompt] :=
      conversation_snoc.mpr ⟨conversation_nil, fits_user.mpr hprompt⟩
    rw [conversation_snoc, and_iff_right huser, hr, fits_assistant hnamed]
  constructor
  · intro h
    exact htwo.mp (h.take 2)
  · intro h
    refine conversation_answers (htwo.mpr h) (fun c hc => ?_) (fun c hc => (hnamed c hc).1) h.2
    -- nothing comes between the calls and the answers
    refine ⟨[.user prompt], r.message, [], rfl, ?_, ⟨c, hc, rfl⟩, fun b hb => absurd hb List.not_mem_nil⟩
    rw [hr]
    rfl

theorem validate_followUp {r : Response} (hr : r.message = .assistant r.text r.toolCalls)
    (hnamed : ∀ c ∈ r.toolCalls, c.id ≠ "" ∧ c.name ≠ "") {prompt : String}
    (hprompt : ∃ c ∈ prompt.toList, Text.isBlank c = false) (results : List String) :
    (Request.ofMessages (r.followUp prompt results)).validate = .ok () ↔
      (r.text ≠ "" ∨ 1 ≤ r.toolCalls.length) ∧ (r.toolCalls.map (·.id)).Nodup := by
  have hne : r.followUp prompt results ≠ [] := List.cons_ne_nil _ _
  rw [validate_ofMessages hne, conversation_followUp hr hnamed hprompt, Nat.one_le_iff_ne_zero, Ne, Ne,
    Ne, List.length_eq_zero_iff]

/-! ## The turns on the wire -/

/-- Who speaks in a message. -/
theorem isBy_toRequest {m : Message} {r : Role} (hm : m.role = r.name) (s : Role) :
    m.toRequest.isBy s = decide (r = s) := by
  show (some m.role == some s.name) = _
  rw [hm]
  by_cases h : r = s <;> simp [h, roleName_inj]

theorem isBy_user (prompt : String) (s : Role) :
    (Message.user prompt).toRequest.isBy s = decide (Role.user = s) := isBy_toRequest rfl s

theorem isBy_assistant (text : String) (calls : List ToolCall) (s : Role) :
    (Message.assistant text calls).toRequest.isBy s = decide (Role.assistant = s) := isBy_toRequest rfl s

theorem isBy_tool (id result : String) (s : Role) :
    (Message.tool id result).toRequest.isBy s = decide (Role.tool = s) := isBy_toRequest rfl s

theorem mem_answers {calls : List ToolCall} {results : List String} {m : Message}
    (h : m ∈ answers calls results) : ∃ id, ∃ t ∈ results, m = .tool id t := by
  obtain ⟨i, hi, rfl⟩ := List.mem_iff_getElem.mp h
  have hlength : i < results.length := by
    rw [answers, List.length_zipWith] at hi
    omega
  exact ⟨_, results[i], List.getElem_mem hlength, List.getElem_zipWith⟩

namespace Groq

/-- A prompt of the user's. -/
def userBack (prompt : String) : Json := .object [("role", .text "user"), ("content", .text prompt)]

/-- A call that was received, as it is given back under an id. -/
def Call.givenBack (c : Call) (id : String) : Json :=
  .object [("id", .text id), ("type", .text "function"),
    ("function", .object [("name", .text c.function.name), ("arguments", .text c.arguments)])]

/-- The turn of the assistant: a text and calls. Where there are calls there need not be a
text. -/
def turnBack (text : String) (calls : List Json) : Json :=
  .object (
    [("role", .text "assistant"), ("content", if text = "" ∧ calls ≠ [] then .null else .text text)] ++
    if calls = [] then [] else [("tool_calls", .list calls)])

/-- The result of a call. -/
def resultBack (id result : String) : Json :=
  .object [("role", .text "tool"), ("content", .text result), ("tool_call_id", .text id)]

theorem renderMessage_user (prompt : String) :
    renderMessage (Message.user prompt).toRequest = userBack prompt := by
  simp only [renderMessage, isBy_user]
  rfl

theorem renderMessage_tool (id result : String) :
    renderMessage (Message.tool id result).toRequest = resultBack id result := by
  simp only [renderMessage, isBy_tool]
  rfl

theorem renderMessage_assistant (text : String) (calls : List ToolCall) :
    renderMessage (Message.assistant text calls).toRequest =
      turnBack text (calls.map fun t => renderCall t.toRequest) := by
  have hcontent : (Message.assistant text calls).toRequest.content = .text text := rfl
  have hcalls : (Message.assistant text calls).toRequest.toolCalls = calls.map ToolCall.toRequest := rfl
  have hrole : (Message.assistant text calls).toRequest.role = .text "assistant" := rfl
  rw [renderMessage, turnBack, isBy_assistant, isBy_assistant, hcontent, hcalls, hrole]
  cases calls with
  | nil => simp
  | cons c calls => by_cases h : text = "" <;> simp [Json.isGiven, h]

/-- A call of a response is rendered as the call that it was made of. -/
theorem renderCall_made {c : Call} {t : ToolCall} (h : c.Made t) :
    renderCall t.toRequest = c.givenBack t.id := by
  show Json.object [("id", .text t.id), ("type", .text "function"),
    ("function", .object [("name", .text t.name), ("arguments", .text t.arguments)])] = _
  rw [h.name, h.arguments]
  rfl

theorem map_renderCall {cs : List Call} {ts : List ToolCall} (h : List.Forall₂ Call.Made cs ts) :
    ts.map (fun t => renderCall t.toRequest) = List.zipWith (fun c t => c.givenBack t.id) cs ts := by
  induction h with
  | nil => rfl
  | cons hc _ ih => rw [List.map_cons, List.zipWith_cons_cons, ih, renderCall_made hc]

/-- The messages of a conversation that goes on: the prompt, the turn of the assistant with its
text and each call as it was received, and the results under the ids of the calls. -/
def Completion.messagesBack (c : Completion) (r : Response) (prompt : String)
    (results : List String) : List Json :=
  userBack prompt ::
  turnBack r.text (List.zipWith (fun c t => c.givenBack t.id) c.calls r.toolCalls) ::
  List.zipWith (fun t result => resultBack t.id result) r.toolCalls results

/-- The body that was read is given back. -/
def GivesBack (body : List UInt8) (r : Response) (prompt : String) (results : List String)
    (sent : Entries) : Prop :=
  ∃ v c, Json.readBytes? body = some v ∧ IsCompletion v c ∧ c.Made r ∧
    sent.get? "messages" = some (.list (c.messagesBack r prompt results))

theorem messages_renderBody (ms : List Message) (model : String) (stream : Bool) :
    (renderBody (Request.ofMessages ms) model stream).get? "messages" =
      some (.list (ms.map fun m => renderMessage m.toRequest)) := by
  simp [renderBody, Request.ofMessages, Entries.get?_cons, renderSetting]

theorem givesBack {body : List UInt8} {v : Json} {c : Completion} {r : Response}
    (hbody : Json.readBytes? body = some v) (hv : IsCompletion v c) (hr : c.Made r)
    (prompt : String) (results : List String) (model : String) (stream : Bool) :
    GivesBack body r prompt results
      (renderBody (Request.ofMessages (r.followUp prompt results)) model stream) := by
  refine ⟨v, c, hbody, hv, hr, ?_⟩
  have hmessage : renderMessage r.message.toRequest =
      turnBack r.text (List.zipWith (fun c t => c.givenBack t.id) c.calls r.toolCalls) := by
    rw [← map_renderCall hr.calls, ← renderMessage_assistant, ← message_eq hr.message]
  have hanswers : (answers r.toolCalls results).map (fun m => renderMessage m.toRequest) =
      List.zipWith (fun t result => resultBack t.id result) r.toolCalls results := by
    rw [answers, List.map_zipWith]
    simp only [renderMessage_tool]
  rw [messages_renderBody, Response.followUp, List.map_cons, List.map_cons, renderMessage_user,
    hmessage, hanswers]
  rfl

end Groq

namespace Gemini

/-- A turn. -/
def turnOf (role : String) (parts : List Json) : Json :=
  .object [("role", .text role), ("parts", .list parts)]

/-- A text in a turn. -/
def textBack (text : String) : Json := .object [("text", .text text)]

/-- A call that was received, as it is given back under an id. -/
def FunctionCall.givenBack (f : FunctionCall) (id : String) : Json :=
  .object [("functionCall", .object [
    ("id", .text id), ("name", .text f.name), ("args", .object f.arguments)])]

/-- The result of a call, which is sent as an object. -/
def resultBack (id name : String) (response : Entries) : Json :=
  .object [("functionResponse", .object [
    ("id", .text id), ("name", .text name), ("response", .object response)])]

/-- The arguments of a call that was received are an object. -/
theorem hasObject_of_made {f : FunctionCall} {t : ToolCall} (h : f.Made t)
    (hf : (Json.object f.arguments).Readable) : t.toRequest.HasObject :=
  hasObject_iff.mpr ⟨t.arguments, rfl, f.arguments, h.loadArguments? hf⟩

/-- The arguments of a call that was received are loaded as they were. -/
theorem callParts_made {room : Nat} (i : Nat) {fs : List FunctionCall} {ts : List ToolCall}
    (h : List.Forall₂ FunctionCall.Made fs ts) (hfs : ∀ f ∈ fs, (Json.object f.arguments).Readable)
    (hfits : ∀ t ∈ ts, t.toRequest.Fits room) :
    callParts room i (ts.map ToolCall.toRequest) =
      .ok (List.zipWith (fun f t => .call (.text t.id) (.text f.name) f.arguments) fs ts) := by
  induction h with
  | nil => rfl
  | @cons f t fs ts ht _ ih =>
      obtain ⟨hf, hfs⟩ := List.forall_mem_cons.mp hfs
      obtain ⟨htfits, hfits⟩ := List.forall_mem_cons.mp hfits
      have hload : t.toRequest.load room = .value (.object f.arguments) := by
        simp only [RequestCall.load, ToolCall.toRequest,
          Json.bounded_eq_ok.mpr ⟨htfits _ rfl, ht.loadArguments? hf⟩]
      have hargs : callArguments room i t.toRequest = .ok f.arguments := by
        rw [callArguments, hload]
      rw [List.map_cons, callParts, hargs, ih hfs hfits, List.zipWith_cons_cons, ← ht.name]
      rfl

namespace Progress

variable {room : Nat}

theorem add_user (p : Progress) (i : Nat) {prompt : String} (h : prompt ≠ "") :
    p.add room i (Message.user prompt).toRequest = .ok
      { turns := ⟨false, [.text (.text prompt)]⟩ :: p.turns
        callNames := p.callNames
        afterResult := false } := by
  have hgiven : (Message.user prompt).toRequest.content.isGiven = true := by
    simpa [Message.toRequest, Message.user, Json.isGiven] using h
  simp only [add, isBy_user, hgiven]
  rfl

theorem add_assistant (p : Progress) (i : Nat) (text : String) {calls : List ToolCall}
    {parts : List Part} (h : callParts room i (calls.map ToolCall.toRequest) = .ok parts) :
    p.add room i (Message.assistant text calls).toRequest = .ok
      { turns := ⟨true, (if text = "" then [] else [.text (.text text)]) ++ parts⟩ :: p.turns
        callNames := (calls.map fun c => (.text c.id, .text c.name)).reverse ++ p.callNames
        afterResult := false } := by
  have hcalls : (Message.assistant text calls).toRequest.toolCalls = calls.map ToolCall.toRequest := rfl
  have hcontent : (Message.assistant text calls).toRequest.content = .text text := rfl
  have hspoken : (if (Json.text text).isGiven = true then [Part.text (.text text)] else []) =
      if text = "" then [] else [.text (.text text)] := by
    by_cases htext : text = "" <;> simp [Json.isGiven, htext]
  simp only [add, isBy_assistant, hcalls, hcontent, h, hspoken, List.map_map]
  rfl

/-- The result of a call, under the name that the call had. -/
def reported (p : Progress) (id : String) (response : Entries) : Part :=
  .result (.text id) (p.callName (.text id)) response

theorem add_tool (p : Progress) (i : Nat) {id result : String} {response : Entries}
    (hfits : (Message.tool id result).toRequest.Fits room) (hpacks : Packs result response) :
    p.add room i (Message.tool id result).toRequest =
      .ok (p.addResult (p.reported id response)) := by
  have hroom : Json.overruns room result = false :=
    hfits.report (by rw [isBy_tool]; rfl) result rfl
  have hid : answerId (Message.tool id result).toRequest = .text id := by
    show (if (Json.text id).isGiven = true then Json.text id else .text "") = .text id
    by_cases h : id = "" <;> simp [Json.isGiven, h]
  have hcontent : (Message.tool id result).toRequest.content = .text result := rfl
  simp only [add, isBy_tool, resultPart, hid, hcontent, resultObject_fits hroom hpacks]
  rfl

/-- The results of some calls are added one after the other. -/
theorem addAll_answers (p : Progress) (i : Nat) (calls : List ToolCall) {results : List String}
    {responses : List Entries} (hpacks : List.Forall₂ Packs results responses)
    (hfits : ∀ m ∈ answers calls results, m.toRequest.Fits room) :
    p.addAll room i ((answers calls results).map Message.toRequest) =
      .ok ((List.zipWith (fun c es => p.reported c.id es) calls responses).foldl addResult p) := by
  unfold answers at hfits ⊢
  induction calls generalizing p i results responses with
  | nil => rfl
  | cons c calls ih =>
      cases hpacks with
      | nil => rfl
      | @cons t response results responses ht hpacks =>
          rw [List.zipWith_cons_cons] at hfits
          obtain ⟨htfits, hfits⟩ := List.forall_mem_cons.mp hfits
          -- results leave the names of the calls as they are
          have hreported : (p.addResult (p.reported c.id response)).reported = p.reported := by
            funext id es
            rw [reported, callName, callNames_addResult]
            rfl
          rw [List.zipWith_cons_cons, List.map_cons, addAll, add_tool p i htfits ht]
          simp only [ih _ _ hpacks hfits, hreported]
          rfl

/-- Results that follow a result share its turn. -/
theorem foldl_addResult {p : Progress} {t : Turn} {ts : List Turn} (hafter : p.afterResult = true)
    (hturns : p.turns = t :: ts) (parts : List Part) :
    (parts.foldl addResult p).turns = { t with parts := t.parts ++ parts } :: ts := by
  induction parts generalizing p t with
  | nil => rw [List.append_nil]; exact hturns
  | cons part parts ih =>
      have hadd : p.addResult part = { p with turns := { t with parts := t.parts ++ [part] } :: ts } := by
        rw [addResult, hafter, hturns]
      rw [List.foldl_cons, hadd, List.append_cons t.parts part parts]
      refine ih (t := { t with parts := t.parts ++ [part] }) ?_ ?_
      · exact hafter
      · rfl

/-- The turns that hold some results: one, if there are any. -/
theorem turns_foldl_addResult {p : Progress} (hafter : p.afterResult = false) (parts : List Part) :
    (parts.foldl addResult p).turns = (if parts = [] then [] else [⟨false, parts⟩]) ++ p.turns := by
  cases parts with
  | nil => rfl
  | cons part parts =>
      have hadd : p.addResult part = { p with turns := ⟨false, [part]⟩ :: p.turns, afterResult := true } := by
        rw [addResult, hafter]
      rw [List.foldl_cons, hadd]
      exact foldl_addResult (t := ⟨false, [part]⟩) rfl rfl parts

/-- Where a conversation stands after a prompt and a turn of the model. -/
def begun (prompt : String) (said : List Part) (calls : List ToolCall) : Progress :=
  { turns := [⟨true, said⟩, ⟨false, [.text (.text prompt)]⟩]
    callNames := (calls.map fun c => (.text c.id, .text c.name)).reverse }

/-- Where the ids are told apart, each call is known by its name. -/
theorem callName_begun (prompt : String) (said : List Part) {calls : List ToolCall}
    (hapart : (calls.map (·.id)).Nodup) {c : ToolCall} (hc : c ∈ calls) :
    (begun prompt said calls).callName (.text c.id) = .text c.name := by
  rw [callName, begun]
  generalize hfind : List.find? _ _ = found
  cases found with
  | none =>
      have hnone := List.find?_eq_none.mp hfind (.text c.id, .text c.name)
        (List.mem_reverse.mpr (List.mem_map_of_mem hc))
      exact absurd (by simp) hnone
  | some found =>
      -- whichever entry is found has the id, and only one call has it
      obtain ⟨d, hd, rfl⟩ := List.mem_map.mp (List.mem_reverse.mp (List.mem_of_find?_eq_some hfind))
      have hsame : c.id = d.id := by simpa using List.find?_some hfind
      rw [List.inj_on_of_nodup_map hapart hc hd hsame]
      rfl

end Progress

/-- Results in a turn of their own, if there are any. -/
def resultTurns (parts : List Json) : List Json := if parts = [] then [] else [turnOf "user" parts]

/-- The turns of a conversation that goes on: the prompt, the turn of the model with its text and
each call as it was received, and the results under the ids and names of the calls. -/
def Generated.contentsBack (g : Generated) (r : Response) (prompt : String)
    (responses : List Entries) : List Json :=
  turnOf "user" [textBack prompt] ::
  turnOf "model" ((if r.text = "" then [] else [textBack r.text]) ++
    List.zipWith (fun f t => f.givenBack t.id) g.calls r.toolCalls) ::
  resultTurns (List.zipWith (fun t es => resultBack t.id t.name es) r.toolCalls responses)

/-- What a response was read from. -/
theorem made_of_readResponse {a : Adapter} (ha : a.provider = .gemini) {body : List UInt8}
    {l l' : Ledger} {r : Response} (h : (a.readResponse body).run l = (.ok r, l')) :
    ∃ v g, Json.readBytes? body = some v ∧ IsGenerated v g ∧ g.Made r := by
  have hread := congrArg Prod.fst h
  rw [Adapter.readResponse, ha] at hread
  have hmade := gives_made body l
  rwa [show ((readResponse body).run l).1 = .ok r from hread] at hmade

/-- The body that was read is given back, with the results each packed into an object. -/
def GivesBack (body : List UInt8) (r : Response) (prompt : String) (results : List String)
    (sent : Entries) : Prop :=
  ∃ v g responses, Json.readBytes? body = some v ∧ IsGenerated v g ∧ g.Made r ∧
    List.Forall₂ Packs results responses ∧
    sent.get? "contents" = some (.list (g.contentsBack r prompt responses))

/-- Each result can be packed. -/
theorem exists_responses (results : List String) :
    ∃ responses, List.Forall₂ Packs results responses := by
  induction results with
  | nil => exact ⟨[], .nil⟩
  | cons t results ih =>
      obtain ⟨es, hes⟩ := exists_packs t
      obtain ⟨responses, hresponses⟩ := ih
      exact ⟨es :: responses, .cons hes hresponses⟩

theorem map_json_begun (prompt : String) (said : List Part) (calls : List ToolCall)
    (parts : List Part) :
    (parts.foldl Progress.addResult (Progress.begun prompt said calls)).turns.reverse.map Turn.json =
      turnOf "user" [textBack prompt] :: turnOf "model" (said.map Part.json) ::
        resultTurns (parts.map Part.json) := by
  rw [Progress.turns_foldl_addResult rfl]
  cases parts <;> rfl

/-- The turns of the conversation that goes on. -/
theorem turns_followUp {room : Nat} {g : Generated} {r : Response} (hr : g.Made r)
    (hreadable : ∀ f ∈ g.calls, (Json.object f.arguments).Readable)
    (hapart : (r.toolCalls.map (·.id)).Nodup) {prompt : String} (hprompt : prompt ≠ "")
    {results : List String} {responses : List Entries}
    (hpacks : List.Forall₂ Packs results responses)
    (hfits : ∀ m ∈ r.followUp prompt results, m.toRequest.Fits room) :
    ∃ ts, turns room ((r.followUp prompt results).map Message.toRequest) = .ok ts ∧
      ts.map Turn.json = g.contentsBack r prompt responses := by
  obtain ⟨-, hfits⟩ := List.forall_mem_cons.mp hfits
  obtain ⟨hcalls, hfits⟩ := List.forall_mem_cons.mp hfits
  have hcalls : ∀ t ∈ r.toolCalls, t.toRequest.Fits room :=
    fun t ht => hcalls.arguments _ (List.mem_map_of_mem ht)
  obtain ⟨said, hsaid⟩ : ∃ said, said = (if r.text = "" then [] else [.text (.text r.text)]) ++
    List.zipWith (fun f t => Part.call (.text t.id) (.text f.name) f.arguments) g.calls r.toolCalls :=
    ⟨_, rfl⟩
  -- the prompt and the turn of the model come first, and the results after them
  have hbegun : Progress.addAll room {} 0 ((r.followUp prompt results).map Message.toRequest) =
      (Progress.begun prompt said r.toolCalls).addAll room 2
        ((answers r.toolCalls results).map Message.toRequest) := by
    have hassistant := Progress.add_assistant ⟨[⟨false, [.text (.text prompt)]⟩], [], false⟩ 1 r.text
      (callParts_made 1 hr.calls hreadable hcalls)
    rw [← message_eq hr.message, List.append_nil] at hassistant
    rw [Response.followUp, List.map_cons, List.map_cons, Progress.addAll, Progress.add_user {} 0 hprompt]
    simp only [Progress.addAll, hassistant, hsaid]
    rfl
  have hresults :
      List.zipWith (fun c es => (Progress.begun prompt said r.toolCalls).reported c.id es)
        r.toolCalls responses =
      List.zipWith (fun c es => Part.result (.text c.id) (.text c.name) es)
        r.toolCalls responses := by
    refine List.ext_getElem (by simp) fun i hi _ => ?_
    rw [List.getElem_zipWith, List.getElem_zipWith, Progress.reported,
      Progress.callName_begun prompt said hapart (List.getElem_mem _)]
  rw [turns, hbegun, Progress.addAll_answers _ 2 _ hpacks hfits, hresults]
  refine ⟨_, rfl, ?_⟩
  have hspoken : (if r.text = "" then [] else [Part.text (.text r.text)]).map Part.json =
      if r.text = "" then [] else [textBack r.text] := by
    by_cases htext : r.text = ""
    · rw [if_pos htext, if_pos htext]; rfl
    · rw [if_neg htext, if_neg htext]; rfl
  refine (map_json_begun prompt said r.toolCalls _).trans ?_
  rw [hsaid, List.map_append, hspoken, List.map_zipWith, List.map_zipWith]
  rfl

theorem systemText?_followUp {r : Response} {text : String} {calls : List ToolCall}
    (hr : r.message = .assistant text calls) (prompt : String) (results : List String) :
    systemText? ((r.followUp prompt results).map Message.toRequest) = .ok none := by
  have hnone : ((r.followUp prompt results).map Message.toRequest).filter (·.isBy .system) = [] := by
    rw [List.filter_eq_nil_iff]
    intro q hq
    obtain ⟨m, hm, rfl⟩ := List.mem_map.mp hq
    obtain ⟨s, hs, hrole⟩ : ∃ s : Role, s ≠ .system ∧ m.role = s.name := by
      rcases List.mem_cons.mp hm with rfl | hm
      · exact ⟨.user, by decide, rfl⟩
      rcases List.mem_cons.mp hm with rfl | hm
      · exact ⟨.assistant, by decide, by rw [hr]; rfl⟩
      · obtain ⟨id, t, -, rfl⟩ := mem_answers hm
        exact ⟨.tool, by decide, rfl⟩
    rw [isBy_toRequest hrole]
    simpa using hs
  rw [systemText?, hnone]
  rfl

/-- Without system messages a request is rendered to its turns. -/
theorem render_turns (a : Adapter) {q : Request} (model : String) (stream : Bool) {ts : List Turn}
    (hts : turns a.room q.messages = .ok ts) (hsystem : systemText? q.messages = .ok none) :
    ∃ w logs, render a q model stream = .ok (w, logs) ∧
      w.body = some (.object (renderBody a q model none ts)) := by
  rw [render, hts, hsystem]
  exact ⟨_, _, rfl, rfl⟩

theorem givesBack {body : List UInt8} {v : Json} {g : Generated} {r : Response}
    (hbody : Json.readBytes? body = some v) (hv : IsGenerated v g) (hr : g.Made r)
    (hapart : (r.toolCalls.map (·.id)).Nodup) {prompt : String} (hprompt : prompt ≠ "")
    {results : List String} {a : Adapter}
    (hfits : ∀ m ∈ r.followUp prompt results, m.toRequest.Fits a.room) (model : String)
    (stream : Bool) :
    ∃ w logs sent, render a (Request.ofMessages (r.followUp prompt results)) model stream = .ok (w, logs) ∧
      w.body = some (.object sent) ∧ GivesBack body r prompt results sent := by
  have hreadable := hv.readable_arguments (Json.readable_of_readBytes? hbody)
  obtain ⟨responses, hpacks⟩ := exists_responses results
  obtain ⟨ts, hts, hjson⟩ := turns_followUp hr hreadable hapart hprompt hpacks hfits
  have hsystem := systemText?_followUp hr.message prompt results
  obtain ⟨w, logs, hrender, hsent⟩ :=
    render_turns a (q := .ofMessages (r.followUp prompt results)) model stream hts hsystem
  refine ⟨w, logs, _, hrender, hsent, v, g, responses, hbody, hv, hr, hpacks, ?_⟩
  rw [← hjson]
  rfl

/-- A conversation that may go on has objects for arguments. -/
theorem hasObjects_followUp {g : Generated} {r : Response} (hr : g.Made r)
    (hreadable : ∀ f ∈ g.calls, (Json.object f.arguments).Readable) (prompt : String)
    (results : List String) :
    ∀ m ∈ (Request.ofMessages (r.followUp prompt results)).messages, m.HasObjects := by
  intro q hq
  obtain ⟨m, hm, rfl⟩ := List.mem_map.mp hq
  have hsilent {m : Message} (hm : m.toolCalls = []) : m.toRequest.HasObjects :=
    fun c hc => absurd hc (by simp [Message.toRequest, hm])
  rcases List.mem_cons.mp hm with rfl | hm
  · exact hsilent rfl
  rcases List.mem_cons.mp hm with rfl | hm
  · intro c hc
    obtain ⟨t, ht, rfl⟩ := List.mem_map.mp hc
    obtain ⟨f, hf, hmade⟩ := exists_of_forall₂ hr.calls ht
    exact hasObject_of_made hmade (hreadable f hf)
  · obtain ⟨id, t, -, rfl⟩ := mem_answers hm
    exact hsilent rfl

/-- Where the arguments of the calls and the results leave the reader room, all messages do. -/
theorem fits_followUp {room : Nat} {r : Response} (hr : r.message = .assistant r.text r.toolCalls)
    (prompt : String) {results : List String}
    (hcalls : ∀ c ∈ r.toolCalls, Json.overruns room c.arguments = false)
    (hresults : ∀ t ∈ results, Json.overruns room t = false) :
    ∀ m ∈ r.followUp prompt results, m.toRequest.Fits room := by
  intro m hm
  rcases List.mem_cons.mp hm with rfl | hm
  · exact (writable_of_silent rfl (isBy_user prompt .tool) room).2
  rcases List.mem_cons.mp hm with rfl | hm
  · rw [hr]
    refine ⟨fun c hc s hs => ?_, fun hby => absurd hby (by rw [isBy_assistant]; decide)⟩
    obtain ⟨t, ht, rfl⟩ := List.mem_map.mp hc
    obtain rfl := Json.text.inj hs
    exact hcalls t ht
  · obtain ⟨id, t, ht, rfl⟩ := mem_answers hm
    refine ⟨fun c hc => absurd hc List.not_mem_nil, fun _ s hs => ?_⟩
    obtain rfl := Json.text.inj hs
    exact hresults t ht

/-- Where a text is nested too deep nothing is given back. -/
theorem render_followUp_overrun {body : List UInt8} {v : Json} {g : Generated} {r : Response}
    (hbody : Json.readBytes? body = some v) (hv : IsGenerated v g) (hr : g.Made r) {prompt : String}
    {results : List String} {a : Adapter} (ha : a.provider = .gemini)
    (hvalid : (Request.ofMessages (r.followUp prompt results)).validate = .ok ())
    (hdeep : ∃ m ∈ r.followUp prompt results, ¬ m.toRequest.Fits a.room) (model : String)
    (stream : Bool) :
    a.render (Request.ofMessages (r.followUp prompt results)) model stream = .error .tooDeep := by
  have hreadable := hv.readable_arguments (Json.readable_of_readBytes? hbody)
  have hobjects := hasObjects_followUp hr hreadable prompt results
  rcases render_of_hasObjects ha (accepted_of_validate hvalid) hobjects model stream with
    ⟨hfits, -⟩ | ⟨-, hrender⟩
  · obtain ⟨m, hm, hdeep⟩ := hdeep
    exact absurd (hfits _ (List.mem_map_of_mem hm)) hdeep
  · exact hrender

end Gemini

/--
**A response can be given back to the service that it came from.**

The conversation that goes on with the answers to its calls is accepted just if the response
says something and its calls have ids of their own. It can then be rendered for Groq, and for Gemini
just if the arguments of its calls and the results leave the reader room, and the service gets what
it said: its text, and its calls with their ids, names and arguments. Where a text is nested too
deep, rendering for Gemini fails with the reader's failure.
-/
theorem replay_exact (a : Adapter) {body : List UInt8} {l l' : Ledger} {r : Response}
    (hread : (a.readResponse body).run l = (.ok r, l')) (prompt : String)
    (hprompt : ∃ c ∈ prompt.toList, Text.isBlank c = false) (results : List String) :
    let request := Request.ofMessages (r.followUp prompt results)
    (request.validate = .ok () ↔
      (r.text ≠ "" ∨ 1 ≤ r.toolCalls.length) ∧ (r.toolCalls.map (·.id)).Nodup) ∧
    (request.validate = .ok () → ∀ (model : String) (stream : Bool),
      match a.provider with
      | .groq => ∃ w logs sent, a.render request model stream = .ok (w, logs) ∧
          w.body = some (.object sent) ∧ Groq.GivesBack body r prompt results sent
      | .gemini =>
        ((∀ m ∈ r.followUp prompt results, m.toRequest.Fits a.room) →
          ∃ w logs sent, a.render request model stream = .ok (w, logs) ∧
            w.body = some (.object sent) ∧ Gemini.GivesBack body r prompt results sent) ∧
        ((∃ m ∈ r.followUp prompt results, ¬ m.toRequest.Fits a.room) →
          a.render request model stream = .error .tooDeep)) := by
  intro request
  have hsaid : prompt ≠ "" := by
    rintro rfl
    obtain ⟨c, hc, -⟩ := hprompt
    exact absurd hc (by simp)
  -- a response that was read is consistent, so its calls have ids and names
  have hnamed := readResponse_readsWell a body l
  rw [hread] at hnamed
  cases ha : a.provider with
  | groq =>
      have hmade := Groq.gives_made body l
      rw [Adapter.readResponse, ha] at hread
      rw [show ((Groq.readResponse body).run l).1 = .ok r from congrArg Prod.fst hread] at hmade
      obtain ⟨v, c, hbody, hv, hr⟩ := hmade
      refine ⟨validate_followUp (message_eq hr.message) hnamed.1.named hprompt results, ?_⟩
      intro _ model stream
      rw [Adapter.render, ha]
      exact ⟨_, _, _, rfl, rfl, Groq.givesBack hbody hv hr prompt results model stream⟩
  | gemini =>
      obtain ⟨v, g, hbody, hv, hr⟩ := Gemini.made_of_readResponse ha hread
      have hvalid := validate_followUp (message_eq hr.message) hnamed.1.named hprompt results
      refine ⟨hvalid, fun h model stream => ⟨fun hfits => ?_, fun hdeep => ?_⟩⟩
      · rw [Adapter.render, ha]
        exact Gemini.givesBack hbody hv hr (hvalid.mp h).2 hsaid hfits model stream
      · exact Gemini.render_followUp_overrun hbody hv hr ha h hdeep model stream

/-- The payload of a look-up is read. -/
theorem Gemini.readResponse_lookup {a : Adapter} (ha : a.provider = .gemini) :
    ∃ l, (a.readResponse (Text.Utf8.encode lookupText)).run {} = (.ok (lookup.response 0), l) := by
  obtain ⟨g, hg, hsays⟩ : ∃ g, generated lookupValue = .ok g ∧ g.Says lookup := by
    refine ⟨_, rfl, ?_⟩
    constructor <;> first | rfl | simp
  have hproper : lookup.Proper 0 := by
    refine ⟨by decide, by decide, ?_, ?_⟩
    · simp [lookup]
    · simp [lookup, callsFrom]
  have hleads := hsays.leads hproper
  obtain ⟨l, hrun, -⟩ := leads_readResponse readBytes_lookupText
    ((accepts_generated _ _).mp hg) hleads {} rfl
  rw [Adapter.readResponse, ha]
  exact ⟨l, hrun⟩

theorem Gemini.fits_lookup :
    ∀ c ∈ (lookup.response 0).toolCalls, Json.overruns 960 c.arguments = false := by
  decide

/-- A greeting and a look-up, each with a call that is answered. -/
theorem replay_exact_answered :
    let groq : Adapter :=
      { provider := .groq, credential := { provider := "groq", secret := "k" }, baseUrl := "" }
    let gemini : Adapter :=
      { provider := .gemini, credential := { provider := "gemini", secret := "k" }, baseUrl := "" }
    let greeted := Request.ofMessages (Groq.greeting.response.followUp "Hello" ["[2]"])
    let looked := Request.ofMessages ((Gemini.lookup.response 0).followUp "Where?" ["Here"])
    (greeted.validate = .ok () ∧ ∃ w logs sent, groq.render greeted "m" false = .ok (w, logs) ∧
      w.body = some (.object sent) ∧ Groq.GivesBack (Text.Utf8.encode Groq.greetingText)
        Groq.greeting.response "Hello" ["[2]"] sent) ∧
    looked.validate = .ok () ∧ ∃ w logs sent, gemini.render looked "m" false = .ok (w, logs) ∧
      w.body = some (.object sent) ∧ Gemini.GivesBack (Text.Utf8.encode Gemini.lookupText)
        (Gemini.lookup.response 0) "Where?" ["Here"] sent := by
  intro groq gemini greeted looked
  constructor
  · obtain ⟨c, hc, hsays⟩ : ∃ c, Groq.completion Groq.greetingValue = .ok c ∧ c.Says Groq.greeting := by
      refine ⟨_, rfl, ?_⟩
      constructor <;> rfl
    have hproper : Groq.greeting.Proper := by
      constructor <;> decide
    have hleads := hsays.leads hproper 0
    rw [if_neg (by decide)] at hleads
    obtain ⟨l, hrun, -⟩ := Groq.leads_readResponse Groq.readBytes_greetingText
      ((Groq.accepts_completion _ _).mp hc) hleads {} rfl
    obtain ⟨hvalid, hsent⟩ := replay_exact groq hrun "Hello" ⟨'H', by simp, by decide⟩ ["[2]"]
    have haccepted : greeted.validate = .ok () := hvalid.mpr ⟨.inl (by decide), by decide⟩
    exact ⟨haccepted, hsent haccepted "m" false⟩
  · obtain ⟨l, hrun⟩ := Gemini.readResponse_lookup (a := gemini) rfl
    obtain ⟨hvalid, hsent⟩ := replay_exact gemini hrun "Where?" ⟨'W', by simp, by decide⟩ ["Here"]
    have haccepted : looked.validate = .ok () := hvalid.mpr ⟨.inl (by decide), by decide⟩
    have hfits := Gemini.fits_followUp (r := Gemini.lookup.response 0) rfl "Where?"
      Gemini.fits_lookup (show ∀ t ∈ ["Here"], Json.overruns gemini.room t = false by decide)
    exact ⟨haccepted, (hsent haccepted "m" false).1 hfits⟩

/-- The same look-up answered by so many opening brackets: the answer is accepted, and the response
is not given back. -/
theorem replay_deepResult :
    let gemini : Adapter :=
      { provider := .gemini, credential := { provider := "gemini", secret := "k" }, baseUrl := "" }
    let looked := Request.ofMessages ((Gemini.lookup.response 0).followUp "Where?"
      [String.ofList (List.replicate 20000 '[')])
    (∃ l, (gemini.readResponse (Text.Utf8.encode Gemini.lookupText)).run {} =
      (.ok (Gemini.lookup.response 0), l)) ∧
    looked.validate = .ok () ∧ gemini.render looked "m" false = .error .tooDeep := by
  intro gemini looked
  obtain ⟨l, hrun⟩ := Gemini.readResponse_lookup (a := gemini) rfl
  obtain ⟨v, g, hbody, hv, hr⟩ := Gemini.made_of_readResponse rfl hrun
  have hnamed : ∀ c ∈ (Gemini.lookup.response 0).toolCalls, c.id ≠ "" ∧ c.name ≠ "" := by decide
  have hvalid : looked.validate = .ok () := (validate_followUp (message_eq hr.message) hnamed
    ⟨'W', by simp, by decide⟩ _).mpr ⟨.inl (by decide), by decide⟩
  have hdeep : Json.overruns gemini.room (String.ofList (List.replicate 20000 '[')) = true :=
    Json.overruns_brackets (by decide)
  refine ⟨⟨l, hrun⟩, hvalid, Gemini.render_followUp_overrun hbody hv hr rfl hvalid ?_ "m" false⟩
  refine ⟨_, List.mem_of_getLast? rfl, fun hfits => ?_⟩
  exact absurd (hdeep.symm.trans (hfits.report rfl _ rfl)) (by simp)

end ChatClient
