import ChatClient.Dialect
import ChatClient.Proofs.StreamRun

/-!
# Gemini says the same in a stream

A streamed response has the form of a whole one, and its parts are cut into events. A call may
come without an id and is then given one, the next of a sequence; so what the parts of an event
come to depends on how many ids the events before it have used up. `callsFrom` numbers the
calls of some parts from a given point on, and goes over the cuts: the calls of all parts are
those of the first event, and then those of the others from where the first one stopped.

A prompt that was blocked is answered without parts, and the answer is the same both ways too.
-/

namespace ChatClient

open Reading

namespace Reading

theorem idAt_ne_empty (n : Nat) (id : Option String) : (idAt n id).1 ≠ "" := by
  unfold idAt
  cases h : given? id with
  | some s => exact (given?_eq_some.mp h).2
  | none => exact callId_ne_empty (n + 1)

end Reading

namespace Gemini

/-! ## Numbering -/

/-- The text of a part that is said aloud: thoughts are not, and calls have none. -/
def PartPayload.aloud (p : PartPayload) : String :=
  match p.functionCall with
  | some _ => ""
  | none => if p.thought.getD false then "" else p.text.getD ""

/-- A call with its id. -/
def FunctionCall.withId (f : FunctionCall) (id : String) : ToolCall :=
  { id, name := f.name, arguments := (Json.object (f.args.getD [])).compact }

/-- The calls of some parts, when `n` ids have been made before. -/
def callsFrom : Nat → List PartPayload → List ToolCall
  | _, [] => []
  | n, p :: ps =>
    match p.functionCall with
    | none => callsFrom n ps
    | some f => f.withId (idAt n f.id).1 :: callsFrom (idAt n f.id).2 ps

/-- How many ids have been made after some parts. -/
def idsAfter : Nat → List PartPayload → Nat
  | n, [] => n
  | n, p :: ps =>
    match p.functionCall with
    | none => idsAfter n ps
    | some f => idsAfter (idAt n f.id).2 ps

theorem idsAfter_cons (n : Nat) (p : PartPayload) (ps : List PartPayload) :
    idsAfter n (p :: ps) = idsAfter (idsAfter n [p]) ps := by
  rw [idsAfter, idsAfter]
  cases p.functionCall <;> rfl

theorem callsFrom_append (n : Nat) (ps qs : List PartPayload) :
    callsFrom n (ps ++ qs) = callsFrom n ps ++ callsFrom (idsAfter n ps) qs := by
  induction ps generalizing n with
  | nil => rfl
  | cons p ps ih =>
      rw [List.cons_append, callsFrom, callsFrom, idsAfter]
      cases p.functionCall with
      | none => exact ih n
      | some f => exact congrArg _ (ih _)

theorem mem_callsFrom {n : Nat} {ps : List PartPayload} {c : ToolCall}
    (h : c ∈ callsFrom n ps) :
    c.id ≠ "" ∧ ∃ p ∈ ps, ∃ f, p.functionCall = some f ∧ f.name = c.name := by
  induction ps generalizing n with
  | nil => exact absurd h List.not_mem_nil
  | cons p ps ih =>
      rw [callsFrom] at h
      cases hf : p.functionCall with
      | none =>
          rw [hf] at h
          obtain ⟨hid, q, hq, hcall⟩ := ih h
          exact ⟨hid, q, List.mem_cons_of_mem p hq, hcall⟩
      | some f =>
          rw [hf] at h
          rcases List.mem_cons.mp h with rfl | h
          · exact ⟨idAt_ne_empty n f.id, p, List.mem_cons_self, f, hf, rfl⟩
          · obtain ⟨hid, q, hq, hcall⟩ := ih h
            exact ⟨hid, q, List.mem_cons_of_mem p hq, hcall⟩

/-- What a part of a content comes to. -/
theorem leads_part (p : PartPayload) (n : Nat) :
    Leads p.read n (.ok (p.aloud, callsFrom n [p])) (idsAfter n [p]) := by
  unfold PartPayload.read PartPayload.aloud callsFrom idsAfter
  cases p.functionCall with
  | none => exact leads_pure _ n
  | some f => exact (leads_idOr f.id n).bind (leads_pure _ _)

/-- What the parts of a content come to: the texts joined, and the calls numbered. -/
theorem leads_readParts (ps : List PartPayload) (n : Nat) :
    Leads (readParts ps) n (.ok (String.join (ps.map PartPayload.aloud), callsFrom n ps))
      (idsAfter n ps) := by
  have hmap : ∀ n, ∃ read, Leads (ps.mapM PartPayload.read) n (.ok read) (idsAfter n ps) ∧
      read.map (·.1) = ps.map PartPayload.aloud ∧ (read.map (·.2)).flatten = callsFrom n ps := by
    induction ps with
    | nil => exact fun n => ⟨[], leads_pure [] n, rfl, rfl⟩
    | cons p ps ih =>
        intro n
        obtain ⟨read, hread, htexts, hcalls⟩ := ih (idsAfter n [p])
        refine ⟨_, idsAfter_cons n p ps ▸ leads_mapM_cons (leads_part p n) hread, ?_, ?_⟩
        · rw [List.map_cons, List.map_cons, htexts]
        · rw [List.map_cons, List.flatten_cons, hcalls, ← callsFrom_append]
          rfl
  obtain ⟨read, hread, htexts, hcalls⟩ := hmap n
  rw [← htexts, ← hcalls]
  exact hread.bind (leads_pure _ _)

/-! ## What is said -/

/-- What one answer says. -/
structure Said where
  modelVersion : String
  responseId : String
  parts : List PartPayload
  finishCode : String
  usage : Option Usage

namespace Said

/-- An answer under a name, from a model with a name, with calls that have names and, when `n`
ids have been made before, can be told apart. -/
structure Proper (s : Said) (n : Nat) : Prop where
  modelVersion : s.modelVersion ≠ ""
  responseId : s.responseId ≠ ""
  names : ∀ p ∈ s.parts, ∀ f, p.functionCall = some f → f.name ≠ ""
  apart : ((callsFrom n s.parts).map (·.id)).Nodup

/-- The finish reason that the service reports. -/
def reported (s : Said) : FinishReason := (Provider.gemini.finishReason? s.finishCode).getD .error

/-- The response that an answer is, when `n` ids have been made before. -/
def response (s : Said) (n : Nat) : Response :=
  { message := .assistant (String.join (s.parts.map PartPayload.aloud)) (callsFrom n s.parts)
    finishReason := settledReason (some s.reported) (callsFrom n s.parts)
    usage := s.usage
    model := some s.modelVersion
    provider := some Provider.gemini.name
    responseId := some s.responseId
    rawFinishReason := some s.finishCode }

/-- No code of the service asks for tool calls. -/
theorem reported_ne (s : Said) : s.reported ≠ .toolCalls := by
  have hcodes : ∀ e ∈ Provider.gemini.finishCodes, e.2 ≠ .toolCalls := by decide
  unfold reported
  cases h : Provider.gemini.finishReason? s.finishCode with
  | none => decide
  | some reason =>
      obtain ⟨e, he, rfl⟩ := Option.map_eq_some_iff.mp h
      exact hcodes e (List.mem_of_find?_eq_some he)

theorem Proper.named {s : Said} {n : Nat} (h : s.Proper n) :
    ∀ c ∈ callsFrom n s.parts, c.id ≠ "" ∧ c.name ≠ "" := by
  intro c hc
  obtain ⟨hid, p, hp, f, hf, hname⟩ := mem_callsFrom hc
  exact ⟨hid, hname ▸ h.names p hp f hf⟩

end Said

namespace Generated

/-- The parts of the candidate that counts. -/
def parts (g : Generated) : List PartPayload := (g.candidates.head?.map Candidate.parts).getD []

/-- The finish code of the candidate that counts. -/
def finishCode? (g : Generated) : Option String := g.candidates.head?.bind (·.finishReason)

/-- A payload says `s`. -/
structure Says (g : Generated) (s : Said) : Prop where
  modelVersion : g.modelVersion = some s.modelVersion
  responseId : g.responseId = some s.responseId
  candidates : g.candidates ≠ []
  parts : g.parts = s.parts
  finishCode : g.finishCode? = some s.finishCode
  usage : g.usage = s.usage

end Generated

/-- Some events say `s`: the parts are cut into the events, the last one has the finish code,
and the last one with token counts has those of the answer. -/
structure Streams (gs : List Generated) (s : Said) : Prop where
  modelVersion : ∀ g ∈ gs, g.modelVersion = some s.modelVersion
  responseId : ∀ g ∈ gs, g.responseId = some s.responseId
  candidates : ∀ g ∈ gs, g.candidates ≠ []
  parts : gs.flatMap Generated.parts = s.parts
  finishCode : ∃ before last, gs = before ++ [last] ∧
    (∀ g ∈ before, g.finishCode? = none) ∧ last.finishCode? = some s.finishCode
  usage : (gs.filterMap (·.usage)).getLast? = s.usage

/-! ## Whole -/

/-- What is made of a payload. -/
theorem Generated.Says.leads {g : Generated} {s : Said} (h : g.Says s) {n : Nat}
    (hs : s.Proper n) : Leads g.response n (.ok (s.response n)) (idsAfter n s.parts) := by
  have hparts := h.parts
  have hcode := h.finishCode
  unfold Generated.response
  cases hcandidates : g.candidates with
  | nil => exact absurd hcandidates h.candidates
  | cons c others =>
      rw [Generated.parts, hcandidates] at hparts
      rw [Generated.finishCode?, hcandidates] at hcode
      simp only [show c.finishReason = some s.finishCode from hcode]
      rw [show c.parts = s.parts from hparts, h.usage, h.modelVersion, h.responseId]
      refine (leads_readParts s.parts n).bind ?_
      refine (leads_finishReason .gemini s.finishCode _).bind ?_
      rw [Answered.response_of_named .gemini fun c hc => (hs.named c hc).2]
      rw [if_neg fun hasks => s.reported_ne hasks.1]
      exact leads_liftExcept _ _

theorem leads_readResponse {body : List UInt8} {v : Json} {g : Generated}
    (hbody : Json.readBytes? body = some v) (hv : IsGenerated v g) {n n' : Nat}
    {r : Except Failure Response} (h : Leads g.response n r n') :
    Leads (readResponse body) n r n' :=
  (leads_body hbody n).bind ((leads_decode ((accepts_generated v g).mpr hv) n).bind h)

/-! ## In a stream -/

/-- The chunk of an event with a candidate, when `n` ids have been made before. -/
def Generated.chunkFrom (g : Generated) (n : Nat) : Chunk :=
  { text := String.join (g.parts.map PartPayload.aloud)
    fragments := (callsFrom n g.parts).map wholeFragment
    finishReason := g.finishCode?.map fun code => (Provider.gemini.finishReason? code).getD .error
    rawFinishReason := g.finishCode?
    usage := g.usage
    responseId := g.responseId
    model := g.modelVersion }

theorem Generated.leads_chunk? {g : Generated} (h : g.candidates ≠ []) (n : Nat) :
    Leads g.chunk? n (.ok (some (g.chunkFrom n))) (idsAfter n g.parts) := by
  unfold chunk? chunkFrom parts finishCode?
  cases hcandidates : g.candidates with
  | nil => exact absurd hcandidates h
  | cons c others =>
      refine (leads_readParts c.parts n).bind ?_
      exact (leads_finishReasons .gemini c.finishReason _).bind (leads_pure _ _)

/-- The chunks of some events, when `n` ids have been made before. -/
def chunksFrom : Nat → List Generated → List Chunk
  | _, [] => []
  | n, g :: gs => g.chunkFrom n :: chunksFrom (idsAfter n g.parts) gs

theorem gives_events {a : Adapter} (ha : a.provider = .gemini) {events : List String}
    {gs : List Generated} (h : List.Forall₂ (Carries IsGenerated) events gs)
    (hcandidates : ∀ g ∈ gs, g.candidates ≠ []) (n : Nat) :
    ∃ n', a.Gives n events (chunksFrom n gs) n' := by
  have hread : a.readEvent = readEvent a := by
    funext data
    rw [Adapter.readEvent, ha]
  induction h generalizing n with
  | nil => exact ⟨n, .nil n⟩
  | @cons data g events gs hg _ ih =>
      obtain ⟨hfirst, hrest⟩ := List.forall_mem_cons.mp hcandidates
      obtain ⟨n', hgives⟩ := ih hrest (idsAfter n g.parts)
      have hleads : Leads (a.readEvent data) n (.ok (some (g.chunkFrom n))) (idsAfter n g.parts) := by
        rw [hread]
        exact hg.leads accepts_generated (Generated.leads_chunk? hfirst n)
      exact ⟨n', .cons hleads hgives⟩

section Chunks

variable {α : Type} (n : Nat) (gs : List Generated)

/-- What a chunk says whatever its number is. -/
theorem map_chunksFrom {give : Chunk → α} {of : Generated → α}
    (h : ∀ g n, give (g.chunkFrom n) = of g) : (chunksFrom n gs).map give = gs.map of := by
  induction gs generalizing n with
  | nil => rfl
  | cons g gs ih => rw [chunksFrom, List.map_cons, List.map_cons, h, ih]

theorem lastGiven_chunksFrom {give : Chunk → Option α} {of : Generated → Option α}
    (h : ∀ g n, give (g.chunkFrom n) = of g) :
    lastGiven give (chunksFrom n gs) = (gs.filterMap of).getLast? := by
  have hsame : (chunksFrom n gs).filterMap give = gs.filterMap of := by
    induction gs generalizing n with
    | nil => rfl
    | cons g gs ih => rw [chunksFrom, List.filterMap_cons, List.filterMap_cons, h, ih]
  rw [lastGiven, hsame]

theorem fragmentsOf_chunksFrom : fragmentsOf (chunksFrom n gs) =
    (callsFrom n (gs.flatMap Generated.parts)).map wholeFragment := by
  induction gs generalizing n with
  | nil => rfl
  | cons g gs ih =>
      rw [chunksFrom, List.flatMap_cons, callsFrom_append, List.map_append, ← ih]
      rfl

theorem text_chunksFrom : String.join ((chunksFrom n gs).map (·.text)) =
    String.join ((gs.flatMap Generated.parts).map PartPayload.aloud) := by
  have hparts : (chunksFrom n gs).map (·.text) =
      gs.map fun g => String.join (g.parts.map PartPayload.aloud) :=
    map_chunksFrom n gs fun _ _ => rfl
  rw [hparts]
  clear hparts
  induction gs with
  | nil => rfl
  | cons g gs ih => simp [ih]

end Chunks

theorem mem_chunksFrom {n : Nat} {gs : List Generated} {c : Chunk} (h : c ∈ chunksFrom n gs) :
    ∃ g ∈ gs, ∃ n', c = g.chunkFrom n' := by
  induction gs generalizing n with
  | nil => exact absurd h List.not_mem_nil
  | cons g gs ih =>
      rcases List.mem_cons.mp h with rfl | h
      · exact ⟨g, List.mem_cons_self, n, rfl⟩
      · obtain ⟨g', hg', hc⟩ := ih h
        exact ⟨g', List.mem_cons_of_mem g hg', hc⟩

/-! ## The agreement -/

/-- A call that arrives whole is spelled in one fragment. -/
def wholeSpelling (c : ToolCall) : Spelling :=
  { index := none, id := c.id, name := c.name, first := c.arguments }

/-- The fragments of the events spell out the calls. -/
theorem Streams.spells {gs : List Generated} {s : Said} (h : Streams gs s) {n : Nat}
    (hs : s.Proper n) : Spells (fragmentsOf (chunksFrom n gs)) ((callsFrom n s.parts).map wholeSpelling) := by
  have hfragments : fragmentsOf (chunksFrom n gs) =
      ((callsFrom n s.parts).map wholeSpelling).flatMap Spelling.fragments := by
    rw [fragmentsOf_chunksFrom, h.parts, List.flatMap_map, List.map_eq_flatMap]
    rfl
  rw [hfragments]
  refine spells_flatMap (fun t ht => ?_) (List.pairwise_map.mpr ?_)
  · obtain ⟨c, hc, rfl⟩ := List.mem_map.mp ht
    exact ⟨(hs.named c hc).1, (hs.named c hc).2, Or.inl rfl⟩
  · exact (List.pairwise_map.mp hs.apart).imp fun hne => ⟨hne, Or.inl rfl⟩

/-- What is made of the chunks of the events. -/
theorem Streams.assemble {gs : List Generated} {s : Said} (h : Streams gs s) {n : Nat}
    (hs : s.Proper n) :
    Assembler.assemble (some Provider.gemini.name) (chunksFrom n gs) = .ok (s.response n) := by
  obtain ⟨before, last, hgs, hbefore, hlast⟩ := h.finishCode
  have hfinish : lastGiven Chunk.finish? (chunksFrom n gs) =
      some (s.reported, some s.finishCode) := by
    have heach : ∀ g n, (Generated.chunkFrom g n).finish? = g.finishCode?.map fun code =>
        ((Provider.gemini.finishReason? code).getD .error, some code) := by
      intro g n
      show Chunk.finish? (g.chunkFrom n) = _
      unfold Chunk.finish? Generated.chunkFrom
      cases g.finishCode? <;> rfl
    have hnone : before.filterMap (fun g => g.finishCode?.map fun code =>
        ((Provider.gemini.finishReason? code).getD FinishReason.error, some code)) = [] := by
      refine List.filterMap_eq_nil_iff.mpr fun g hg => ?_
      rw [hbefore g hg]
      rfl
    rw [lastGiven_chunksFrom n gs heach, hgs, List.filterMap_append, hnone]
    simp only [List.filterMap_cons, hlast]
    rfl
  have husage : lastGiven (·.usage) (chunksFrom n gs) = s.usage :=
    (lastGiven_chunksFrom n gs fun _ _ => rfl).trans h.usage
  have hsome : chunksFrom n gs ≠ [] := by
    intro hnil
    rw [hnil] at hfinish
    exact absurd hfinish (by simp [lastGiven])
  have hnames : ∀ c ∈ chunksFrom n gs,
      given? c.responseId = some s.responseId ∧ given? c.model = some s.modelVersion := by
    intro c hc
    obtain ⟨g, hg, n', rfl⟩ := mem_chunksFrom hc
    show given? g.responseId = _ ∧ given? g.modelVersion = _
    rw [h.responseId g hg, h.modelVersion g hg]
    exact ⟨given?_eq_some.mpr ⟨rfl, hs.responseId⟩, given?_eq_some.mpr ⟨rfl, hs.modelVersion⟩⟩
  have hid := lastGiven_of_forall hsome fun c hc => (hnames c hc).1
  have hmodel := lastGiven_of_forall hsome fun c hc => (hnames c hc).2
  have hend : (chunksFrom n gs).any (·.isTerminal) = true := by
    obtain ⟨c, hc, hfin⟩ := List.mem_filterMap.mp (List.mem_of_getLast? hfinish)
    refine List.any_eq_true.mpr ⟨c, hc, ?_⟩
    obtain ⟨reason, hreason, -⟩ := Option.map_eq_some_iff.mp hfin
    rw [Chunk.isTerminal, hreason]
    exact Bool.or_true _
  have hcalls : ((callsFrom n s.parts).map wholeSpelling).map Spelling.call = callsFrom n s.parts := by
    rw [List.map_map]
    refine (List.map_congr_left fun c _ => ?_).trans (List.map_id _)
    exact congrArg (ToolCall.mk c.id c.name) String.append_empty
  rw [Assembler.assemble_spelled (h.spells hs) hend, hcalls, hfinish, husage, hid, hmodel,
    text_chunksFrom, h.parts]
  exact if_neg fun hasks => s.reported_ne (Option.some.inj hasks.1)

/-! ### Blocked prompts -/

/-- The response that a blocked prompt gets. -/
def Generated.refusal (g : Generated) (reason : String) : Response :=
  { message := .assistant "" []
    finishReason := .contentFilter
    usage := g.usage
    model := g.modelVersion
    provider := some Provider.gemini.name
    responseId := g.responseId
    rawFinishReason := some reason }

/-- The chunk that a blocked prompt gets. -/
def Generated.refusalChunk (g : Generated) (reason : String) : Chunk :=
  { finishReason := some .contentFilter
    rawFinishReason := some reason
    usage := g.usage
    model := g.modelVersion
    responseId := g.responseId }

section Blocked

variable {g : Generated} {reason : String}

theorem leads_refusal (hnone : g.candidates = []) (hreason : g.blockReason? = some reason)
    (n : Nat) : Leads g.response n (.ok (g.refusal reason)) n := by
  unfold Generated.response
  rw [hnone, hreason]
  exact leads_liftExcept _ n

theorem leads_refusalChunk (hnone : g.candidates = []) (hreason : g.blockReason? = some reason)
    (n : Nat) : Leads g.chunk? n (.ok (some (g.refusalChunk reason))) n := by
  unfold Generated.chunk?
  rw [hnone, hreason]
  exact leads_pure _ n

theorem given?_eq_self {s : Option String} (h : s ≠ some "") : given? s = s := by
  cases s with
  | none => rfl
  | some s => exact given?_eq_some.mpr ⟨rfl, fun he => h (congrArg some he)⟩

theorem assemble_refusalChunk (hmodel : g.modelVersion ≠ some "") (hid : g.responseId ≠ some "") :
    Assembler.assemble (some Provider.gemini.name) [g.refusalChunk reason] =
      .ok (g.refusal reason) := by
  have hone : ∀ {α : Type} (give : Chunk → Option α),
      lastGiven give [g.refusalChunk reason] = give (g.refusalChunk reason) := by
    intro α give
    rw [lastGiven, List.filterMap_cons]
    cases give (g.refusalChunk reason) <;> rfl
  have hspells : Spells (fragmentsOf [g.refusalChunk reason]) [] := Spells.nil
  rw [Assembler.assemble_spelled hspells rfl]
  simp only [hone]
  simp only [Generated.refusalChunk, given?_eq_self hmodel, given?_eq_self hid]
  rfl

end Blocked

/--
**A streamed response is the same as a whole one**, wherever its parts are cut and from
whichever id on its calls are numbered. So is the response to a prompt that was blocked.
-/
theorem streamed_payload_agrees (a : Adapter) (ha : a.provider = .gemini) {body : List UInt8}
    {v : Json} {g : Generated} (hbody : Json.readBytes? body = some v) (hv : IsGenerated v g)
    (l l' : Ledger) (hids : l.callIds = l'.callIds) :
    let whole := ((a.readResponse body).run l).1
    let streamed (events : List String) :=
      ((a.chunksOf (.ok ()) events l').assemble (some a.name)).result
    (∀ (s : Said) (events : List String) (gs : List Generated), s.Proper l.callIds → g.Says s →
      List.Forall₂ (Carries IsGenerated) events gs → Streams gs s →
        whole = .ok (s.response l.callIds) ∧ streamed events = .ok (s.response l.callIds)) ∧
      ∀ reason event, g.candidates = [] → g.promptFeedback = some (some reason) → reason ≠ "" →
        g.modelVersion ≠ some "" → g.responseId ≠ some "" → Carries IsGenerated event g →
          whole = .ok (g.refusal reason) ∧ streamed [event] = .ok (g.refusal reason) := by
  intro whole streamed
  have hwhole : ∀ {r n'}, Leads g.response l.callIds r n' → whole = r := by
    intro r n' h
    have hread : a.readResponse body = readResponse body := by rw [Adapter.readResponse, ha]
    obtain ⟨l₁, hrun, -⟩ := leads_readResponse hbody hv h l rfl
    rw [← hread] at hrun
    exact congrArg Prod.fst hrun
  have hname : a.name = Provider.gemini.name := congrArg Provider.name ha
  constructor
  · intro s events gs hs hg hevents hgs
    obtain ⟨n', hgives⟩ := gives_events ha hevents hgs.candidates l.callIds
    have hdone : ∀ c ∈ chunksFrom l.callIds gs, c.done = false := by
      intro c hc
      obtain ⟨g, -, n, rfl⟩ := mem_chunksFrom hc
      rfl
    refine ⟨hwhole (hg.leads hs), ?_⟩
    rw [← hgs.assemble hs, ← hname]
    exact hgives.assembled hdone hids.symm (some a.name)
  · intro reason event hnone hfeedback hreason hmodel hid hevent
    have hblocked : g.blockReason? = some reason := by
      rw [Generated.blockReason?, hfeedback]
      exact given?_eq_some.mpr ⟨rfl, hreason⟩
    refine ⟨hwhole (leads_refusal hnone hblocked _), ?_⟩
    have hread : a.readEvent event = readEvent a event := by rw [Adapter.readEvent, ha]
    have hleads : Leads (a.readEvent event) l'.callIds (.ok (some (g.refusalChunk reason)))
        l'.callIds := by
      rw [hread]
      exact hevent.leads accepts_generated (leads_refusalChunk hnone hblocked _)
    have hgives : a.Gives l'.callIds [event] [g.refusalChunk reason] l'.callIds :=
      .cons hleads (.nil _)
    rw [← assemble_refusalChunk hmodel hid, ← hname]
    exact hgives.assembled (by simp [Generated.refusalChunk]) rfl (some a.name)

/-- A text, and a call that comes without an id. -/
def lookup : Said where
  modelVersion := "m"
  responseId := "r"
  parts := [{ text := some "Hm", thought := none, functionCall := none },
    { text := none, thought := none, functionCall := some { id := none, name := "f", args := none } }]
  finishCode := "STOP"
  usage := none

/-- Both parts in one payload. -/
def lookupText : String :=
  "\x7b\"modelVersion\":\"m\",\"responseId\":\"r\",\"candidates\":[\x7b\"content\":\x7b\"parts\":[\x7b\"text\":\"Hm\"\x7d," ++
    "\x7b\"functionCall\":\x7b\"name\":\"f\"\x7d\x7d]\x7d,\"finishReason\":\"STOP\"\x7d]\x7d"

/-- The value that the payload is. -/
def lookupValue : Json := .object [("modelVersion", .text "m"), ("responseId", .text "r"),
  ("candidates", .list [.object [("content", .object [("parts", .list [.object [("text", .text "Hm")],
    .object [("functionCall", .object [("name", .text "f")])]])]), ("finishReason", .text "STOP")]])]

/-- The parts one by one. -/
def lookupEvents : List String := [
  "\x7b\"modelVersion\":\"m\",\"responseId\":\"r\",\"candidates\":[\x7b\"content\":\x7b\"parts\":[" ++
    "\x7b\"text\":\"Hm\"\x7d]\x7d\x7d]\x7d",
  "\x7b\"modelVersion\":\"m\",\"responseId\":\"r\",\"candidates\":[\x7b\"content\":\x7b\"parts\":[" ++
    "\x7b\"functionCall\":\x7b\"name\":\"f\"\x7d\x7d]\x7d,\"finishReason\":\"STOP\"\x7d]\x7d"]

/-- The values that the events are. -/
def lookupValues : List Json := [
  .object [("modelVersion", .text "m"), ("responseId", .text "r"), ("candidates", .list [
    .object [("content", .object [("parts", .list [.object [("text", .text "Hm")]])])]])],
  .object [("modelVersion", .text "m"), ("responseId", .text "r"), ("candidates", .list [
    .object [("content", .object [("parts", .list [
      .object [("functionCall", .object [("name", .text "f")])]])]), ("finishReason", .text "STOP")]])]]

/-- A payload that says why its prompt was blocked. -/
def blockedText : String := "\x7b\"promptFeedback\":\x7b\"blockReason\":\"SAFETY\"\x7d\x7d"

/-- The value that the payload is. -/
def blockedValue : Json := .object [("promptFeedback", .object [("blockReason", .text "SAFETY")])]

theorem readBytes_lookupText :
    Json.readBytes? (Text.Utf8.encode lookupText) = some lookupValue :=
  readBytes?_encode
    (toList_joined String.toList_ofList String.toList_ofList)
    (by cbv) (by decide +kernel)

theorem read_lookupEvents :
    List.Forall₂ (fun data v => Json.read? data = some v) lookupEvents lookupValues := by
  refine .cons (read?_of_chars (toList_joined String.toList_ofList String.toList_ofList) ?_) (.cons
    (read?_of_chars (toList_joined String.toList_ofList String.toList_ofList) ?_) .nil)
  all_goals cbv

/-- The events say what the payload says. -/
theorem streams_lookupEvents :
    ∃ gs, List.Forall₂ (Carries IsGenerated) lookupEvents gs ∧ Streams gs lookup := by
  obtain _ | ⟨hfirst, _ | ⟨hsecond, -⟩⟩ := read_lookupEvents
  refine ⟨_, .cons ⟨_, hfirst, rfl, (accepts_generated _ _).mp rfl⟩
    (.cons ⟨_, hsecond, rfl, (accepts_generated _ _).mp rfl⟩ .nil), ?_⟩
  refine {
    modelVersion := by simp [lookup]
    responseId := by simp [lookup]
    candidates := by simp
    parts := rfl
    finishCode := ⟨[_], _, rfl, by simp [Generated.finishCode?], rfl⟩
    usage := rfl }

/-- Two parts that are the same both ways, and a blocked prompt that is too. -/
theorem streamed_payload_agrees_lookup :
    let a : Adapter :=
      { provider := .gemini, credential := { provider := "gemini", secret := "k" }, baseUrl := "" }
    (((a.readResponse (Text.Utf8.encode lookupText)).run {}).1 = .ok (lookup.response 0) ∧
        ((a.chunksOf (.ok ()) lookupEvents {}).assemble (some a.name)).result =
          .ok (lookup.response 0)) ∧
      ∃ r, r.finishReason = .contentFilter ∧
        ((a.readResponse (Text.Utf8.encode blockedText)).run {}).1 = .ok r ∧
          ((a.chunksOf (.ok ()) [blockedText] {}).assemble (some a.name)).result = .ok r := by
  intro a
  constructor
  · obtain ⟨g, hg, hsays⟩ : ∃ g, generated lookupValue = .ok g ∧ g.Says lookup := by
      refine ⟨_, rfl, ?_⟩
      constructor <;> first | rfl | simp
    have hproper : lookup.Proper 0 := by
      refine ⟨by decide, by decide, ?_, ?_⟩
      · simp [lookup]
      · simp [lookup, callsFrom]
    obtain ⟨gs, hevents, hstreams⟩ := streams_lookupEvents
    exact (streamed_payload_agrees a rfl readBytes_lookupText ((accepts_generated _ _).mp hg) {} {}
      rfl).1 lookup lookupEvents gs hproper hsays hevents hstreams
  · obtain ⟨g, hg, hreason, hnone, hmodel, hid⟩ : ∃ g, generated blockedValue = .ok g ∧
        g.promptFeedback = some (some "SAFETY") ∧ g.candidates = [] ∧ g.modelVersion ≠ some "" ∧
          g.responseId ≠ some "" := by
      refine ⟨_, rfl, rfl, rfl, ?_, ?_⟩ <;> simp
    have hbody : Json.readBytes? (Text.Utf8.encode blockedText) = some blockedValue :=
      readBytes?_encode String.toList_ofList (by cbv) (by decide +kernel)
    have hread : Json.read? blockedText = some blockedValue :=
      read?_of_chars String.toList_ofList (by cbv)
    have hv := (accepts_generated blockedValue g).mp hg
    exact ⟨g.refusal "SAFETY", rfl, (streamed_payload_agrees a rfl hbody hv {} {} rfl).2 "SAFETY"
      blockedText hnone hreason (by decide) hmodel hid ⟨_, hread, rfl, hv⟩⟩

end Gemini

end ChatClient
