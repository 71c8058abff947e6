import ChatClient.Proofs.Consistency
import ChatClient.Proofs.GeminiStreamed
import ChatClient.Proofs.JsonText

/-!
# What a response was made of

A body that is read becomes a response with nothing but the text and the calls to remember the
body by. Here the way is gone back: to each response that is read there is the payload that it
was made of, and each of its calls stands for one of the payload, in order. What a call has of
its own is an id where none came with it, and `{}` where there were no arguments.

The arguments of a call may come as a value, of which the response has the compact text. The
value can be had back from it, since a value that was read names each entry once.
-/

namespace ChatClient

open Reading

/-- A call of a response was made of one that was received: it has its name, its arguments,
and its id if it came with one. -/
structure ToolCall.MadeOf (t : ToolCall) (id : Option String) (name arguments : String) : Prop where
  id_ne : t.id ≠ ""
  id : ∀ s, given? id = some s → t.id = s
  name : t.name = name
  arguments : t.arguments = arguments

/-- A response has the text and the calls of the answer. -/
theorem Answered.gives_message (p : Provider) (a : Answered) :
    Gives Anyhow (fun r => r.message = .assistant a.text a.toolCalls) (liftExcept (a.response p)) := by
  by_cases hnames : ∀ c ∈ a.toolCalls, c.name ≠ ""
  · rw [a.response_of_named p hnames]
    by_cases hlacks : a.finishReason = .toolCalls ∧ a.toolCalls = []
    · rw [if_pos hlacks]
      exact gives_throw trivial
    · rw [if_neg hlacks]
      exact gives_pure rfl
  · have hnameless : a.toolCalls.any (·.name.isEmpty) = true := by
      obtain ⟨c, hc, hname⟩ : ∃ c ∈ a.toolCalls, c.name = "" := by simpa using hnames
      exact List.any_eq_true.mpr ⟨c, hc, String.isEmpty_iff.mpr hname⟩
    unfold Answered.response
    rw [if_pos hnameless]
    exact gives_throw trivial

/-! ## Groq -/

namespace Groq

/-- The calls of a completion. -/
def Completion.calls (c : Completion) : List Call := c.choice.message.toolCalls.getD []

/-- The arguments of a call; where there are none, those of no arguments. -/
def Call.arguments (c : Call) : String := (given? c.function.arguments).getD "\x7b\x7d"

/-- A call of a response stands for one of a completion. -/
abbrev Call.Made (c : Call) (t : ToolCall) : Prop := t.MadeOf c.id c.function.name c.arguments

/-- A response was made of a completion. -/
structure Completion.Made (c : Completion) (r : Response) : Prop where
  message : r.message = .assistant (c.choice.message.content.getD "") r.toolCalls
  calls : List.Forall₂ Call.Made c.calls r.toolCalls

theorem Call.gives_made {E : Failure → Prop} (c : Call) : c.read.Gives E c.Made :=
  (gives_idOr_kept c.id).bind fun _ hid => gives_pure ⟨hid.1, hid.2, rfl, rfl⟩

theorem Completion.gives_made (c : Completion) : c.response.Gives Anyhow c.Made := by
  refine (gives_forall₂ Call.gives_made c.calls).bind fun calls hcalls => ?_
  refine (gives_finishReason .groq _).bind fun reason _ => ?_
  refine (Answered.gives_message .groq _).imp fun r hmessage => ?_
  obtain rfl : r.toolCalls = calls := congrArg Message.toolCalls hmessage
  exact ⟨hmessage, hcalls⟩

/-- Each response that is read was made of the completion in the body. -/
theorem gives_made (body : List UInt8) : (readResponse body).Gives Anyhow fun r =>
    ∃ v c, Json.readBytes? body = some v ∧ IsCompletion v c ∧ c.Made r := by
  refine (gives_readBytes _ body).bind fun v hv => ?_
  refine (gives_decoded .groq completion v).bind fun c hc => ?_
  exact c.gives_made.imp fun r hr => ⟨v, c, hv, (accepts_completion v c).mp hc, hr⟩

end Groq

/-! ## Gemini -/

namespace Gemini

/-- The text that a payload says aloud. -/
def Generated.aloud (g : Generated) : String := String.join (g.parts.map PartPayload.aloud)

/-- The function calls of a payload. -/
def Generated.calls (g : Generated) : List FunctionCall := g.parts.filterMap (·.functionCall)

/-- The arguments of a call; where there are none, no arguments. -/
def FunctionCall.arguments (f : FunctionCall) : Entries := f.args.getD []

/-- A call of a response stands for one of a payload. -/
abbrev FunctionCall.Made (f : FunctionCall) (t : ToolCall) : Prop :=
  t.MadeOf f.id f.name (Json.object f.arguments).compact

/-- A response was made of a payload. -/
structure Generated.Made (g : Generated) (r : Response) : Prop where
  message : r.message = .assistant g.aloud r.toolCalls
  calls : List.Forall₂ FunctionCall.Made g.calls r.toolCalls

theorem PartPayload.gives_made (p : PartPayload) : p.read.Gives Anyhow fun r =>
    r.1 = p.aloud ∧ List.Forall₂ FunctionCall.Made p.functionCall.toList r.2 := by
  unfold PartPayload.read PartPayload.aloud
  cases p.functionCall with
  | none => exact gives_pure ⟨rfl, .nil⟩
  | some f =>
      refine (gives_idOr_kept f.id).bind fun id hid => gives_pure ⟨rfl, ?_⟩
      exact .cons ⟨hid.1, hid.2, rfl, rfl⟩ .nil

theorem gives_readParts (ps : List PartPayload) : (readParts ps).Gives Anyhow fun r =>
    r.1 = String.join (ps.map PartPayload.aloud) ∧
      List.Forall₂ FunctionCall.Made (ps.filterMap (·.functionCall)) r.2 := by
  refine (gives_forall₂ PartPayload.gives_made ps).bind fun read hread => gives_pure ?_
  -- a part has at most one call, so the calls of all parts are the joined lists of each
  rw [List.filterMap_eq_flatMap_toList]
  have hboth : read.map (·.1) = ps.map PartPayload.aloud ∧
      List.Forall₂ FunctionCall.Made (ps.flatMap (·.functionCall.toList)) (read.map (·.2)).flatten := by
    induction hread with
    | nil => exact ⟨rfl, .nil⟩
    | cons hp _ ih =>
        simp only [List.map_cons, List.flatMap_cons, List.flatten_cons]
        exact ⟨by rw [hp.1, ih.1], List.rel_append hp.2 ih.2⟩
  exact ⟨congrArg String.join hboth.1, hboth.2⟩

theorem Generated.gives_made (g : Generated) : g.response.Gives Anyhow g.Made := by
  -- a blocked prompt is answered without parts, so both answers are made in one way
  have hmade {a : Answered} (htext : a.text = g.aloud)
      (hcalls : List.Forall₂ FunctionCall.Made g.calls a.toolCalls) :
      Gives Anyhow g.Made (liftExcept (a.response .gemini)) := by
    refine (Answered.gives_message .gemini a).imp fun r hmessage => ?_
    have htoolCalls : r.toolCalls = a.toolCalls := congrArg Message.toolCalls hmessage
    rw [← htoolCalls] at hcalls
    exact ⟨by rw [hmessage, htext, htoolCalls], hcalls⟩
  unfold Generated.response
  cases hcandidates : g.candidates with
  | nil =>
      have hparts : g.parts = [] := by rw [Generated.parts, hcandidates]; rfl
      cases g.blockReason? with
      | none => exact gives_throw trivial
      | some reason =>
          refine hmade ?_ ?_
          · rw [Generated.aloud, hparts]; rfl
          · rw [Generated.calls, hparts]; exact .nil
  | cons c others =>
      have hparts : g.parts = c.parts := by rw [Generated.parts, hcandidates]; rfl
      cases hcode : c.finishReason with
      | none =>
          simp only [hcode]
          exact gives_throw trivial
      | some code =>
          simp only [hcode]
          refine (gives_readParts c.parts).bind fun read hread => ?_
          refine (gives_finishReason .gemini code).bind fun reason _ => ?_
          refine hmade ?_ ?_
          · rw [Generated.aloud, hparts]; exact hread.1
          · rw [Generated.calls, hparts]; exact hread.2

/-- Each response that is read was made of the payload in the body. -/
theorem gives_made (body : List UInt8) : (readResponse body).Gives Anyhow fun r =>
    ∃ v g, Json.readBytes? body = some v ∧ IsGenerated v g ∧ g.Made r := by
  refine (gives_readBytes _ body).bind fun v hv => ?_
  refine (gives_decoded .gemini generated v).bind fun g hg => ?_
  exact g.gives_made.imp fun r hr => ⟨v, g, hv, (accepts_generated v g).mp hg, hr⟩

/-! ### Arguments -/

variable {v w : Json} {names : List String}

theorem readable_slot (hv : v.Readable) (h : Payload.slot? v names = some w) : w.Readable := by
  obtain ⟨name, -, hname⟩ := List.exists_of_findSome?_eq_some h
  exact hv.field? hname

theorem readable_part (hv : v.Readable) (h : Payload.part? v names = some w) : w.Readable :=
  readable_slot hv (Payload.part?_eq_some.mp h).1

/-- What is in a list was read from a value in it. -/
theorem exists_of_isList {α : Type} {P : Json → α → Prop} {as : List α} (hw : w.Readable)
    (h : Payload.IsList P w as) {a : α} (ha : a ∈ as) : ∃ u, u.Readable ∧ P u a := by
  obtain ⟨vs, rfl, hvs⟩ := h
  induction hvs with
  | nil => exact absurd ha List.not_mem_nil
  | cons hP _ ih =>
      rcases List.mem_cons.mp ha with rfl | ha
      · exact ⟨_, hw.1, hP⟩
      · exact ih ha hw.2

/-- What is in a field was read from the value in it. -/
theorem exists_of_rel {α : Type} {P : Json → α → Prop} {o : Option α} (hv : v.Readable)
    (h : Option.Rel P (Payload.part? v names) o) {a : α} (ha : o = some a) :
    ∃ u, u.Readable ∧ P u a := by
  subst ha
  cases hp : Payload.part? v names with
  | none => rw [hp] at h; cases h
  | some u =>
      rw [hp] at h
      cases h with
      | some hP => exact ⟨u, readable_part hv hp, hP⟩

/-- The arguments of a part of a candidate. -/
theorem IsPart.readable_arguments {p : PartPayload} (h : IsPart v p) (hv : v.Readable)
    {f : FunctionCall} (hf : p.functionCall = some f) : (Json.object f.arguments).Readable := by
  obtain ⟨vf, hvf, hfun⟩ := exists_of_rel hv h.functionCall hf
  have hargs := hfun.args
  rw [FunctionCall.arguments]
  cases hfargs : f.args with
  | none => exact ⟨List.nodup_nil, trivial⟩
  | some es => exact readable_part hvf (by rw [hargs, hfargs]; rfl)

/-- In the arguments of a call that was received each name stands once. -/
theorem IsGenerated.readable_arguments {g : Generated} (h : IsGenerated v g) (hv : v.Readable) :
    ∀ f ∈ g.calls, (Json.object f.arguments).Readable := by
  intro f hf
  obtain ⟨p, hp, hpf⟩ := List.mem_filterMap.mp hf
  -- down from the body: the first candidate, its content, the part, and the call in it
  cases hcandidates : g.candidates with
  | nil =>
      rw [Generated.parts, hcandidates] at hp
      exact absurd hp List.not_mem_nil
  | cons c others =>
      have hp : p ∈ c.parts := by rwa [Generated.parts, hcandidates] at hp
      rcases h.candidates with ⟨-, hnone⟩ | ⟨w, hw, hlist⟩
      · exact absurd (hcandidates.symm.trans hnone) (by simp)
      obtain ⟨vc, hvc, hc⟩ := exists_of_isList (readable_slot hv hw) hlist
        (hcandidates ▸ List.mem_cons_self)
      cases hcontent : c.content with
      | none =>
          rw [Candidate.parts, hcontent] at hp
          exact absurd hp List.not_mem_nil
      | some content =>
          obtain ⟨vt, hvt, ht⟩ := exists_of_rel hvc hc.content hcontent
          have hp : p ∈ content.parts := by rwa [Candidate.parts, hcontent] at hp
          rcases ht.parts with ⟨-, hnone⟩ | ⟨w', hw', hlist'⟩
          · rw [hnone] at hp
            exact absurd hp List.not_mem_nil
          obtain ⟨vp, hvp, hpart⟩ := exists_of_isList (readable_slot hvt hw') hlist' hp
          exact hpart.readable_arguments hvp hpf

/-- The text of the arguments of a call reads as the arguments. -/
theorem FunctionCall.Made.loadArguments? {f : FunctionCall} {t : ToolCall} (h : f.Made t)
    (hf : (Json.object f.arguments).Readable) :
    ChatClient.loadArguments? t.arguments = some (.object f.arguments) := by
  rw [h.arguments]
  exact loadArguments?_of_read? (Json.read?_compact hf)

end Gemini

end ChatClient
