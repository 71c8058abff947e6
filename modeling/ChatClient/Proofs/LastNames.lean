import ChatClient.Proofs.LostConnections
import ChatClient.Proofs.SilentEvents

/-!
# The names in a streamed answer

An answer has a name, and so has the model that gave it. In a stream every event may have them, and
those of the last event that does count. An event hands them on through its chunk, which is made in
a different place for each kind of event; so what becomes of a name is told here event by event,
from the JSON value to the chunk, and then from the chunks to the response.

The two names do not fare alike. An event of Gemini's that has token counts and nothing else keeps
the name of the answer to itself, and where that event is the last one with a name, the response has
an earlier one or none.
-/

namespace ChatClient

open Payload Reading

/-! ## Names in events -/

namespace Provider

/-- Where the name of an answer stands. -/
def idNames : Provider → List String
  | .groq => ["id"]
  | .gemini => ["responseId", "response_id"]

/-- Where the name of a model stands. -/
def modelNames : Provider → List String
  | .groq => ["model"]
  | .gemini => ["modelVersion", "model_version"]

end Provider

/-- An event without candidates and without a reason for blocking. What it may still have is token
counts. -/
def Gemini.countsOnly (v : Json) : Bool :=
  (match slot? v ["candidates"] with
    | none | some (.list []) => true
    | _ => false) &&
  ((part? v ["promptFeedback", "prompt_feedback"]).bind fun w =>
    named? w ["blockReason", "block_reason"]).isNone

/-- Whether the name of the answer goes from an event into its chunk. -/
def Provider.passesId : Provider → Json → Bool
  | .groq, _ => true
  | .gemini, v => !Gemini.countsOnly v

/-- The name that the text of an event has in some place. -/
def carried? (names : List String) (data : String) : Option String :=
  (Json.read? data).bind fun v => named? v names

/-- The last name that some events have in some place. -/
def lastCarried (names : List String) (events : List String) : Option String :=
  (events.filterMap (carried? names)).getLast?

namespace Adapter

/-- Whether an event gives a chunk. It does or does not whatever came before it. -/
def givesChunk (a : Adapter) (data : String) : Bool :=
  match ((a.readEvent data).run {}).1 with
  | .ok (some _) => true
  | _ => false

/-- Whether the name of the answer goes from the text of an event into its chunk. -/
def passesId (a : Adapter) (data : String) : Bool := (Json.read? data).all a.provider.passesId

end Adapter

theorem Gemini.countsOnly_iff {v : Json} {g : Generated} (h : IsGenerated v g) :
    countsOnly v = true ↔ g.candidates = [] ∧ g.blockReason? = none := by
  rw [← isBare_iff h.candidates, ← isUnblocked_iff h, countsOnly, Bool.and_eq_true, IsBare]
  refine and_congr ?_ ?_
  · split <;> simp_all
  · rw [Option.isNone_iff_eq_none, Option.bind_eq_none_iff]
    rfl

/-! ## From an event to its chunk -/

section Event

variable {p : Provider} {v : Json}

/-- A chunk has the names that its event has, but for the events that keep one. -/
theorem Provider.gives_names (p : Provider) (v : Json) :
    Gives (IsMalformed p) (fun o => ∀ c, o = some c →
      given? c.model = named? v p.modelNames ∧
        given? c.responseId = if p.passesId v then named? v p.idNames else none)
      (p.readPayload v) := by
  cases p with
  | groq =>
      refine (gives_decode .groq Groq.streamEvent v).bind fun e he => ?_
      have he := (Groq.accepts_streamEvent v e).mp he
      refine gives_of_leads fun n => ⟨e.said?, n, e.leads_chunk? n, fun c hc => ?_⟩
      obtain ⟨hid, hmodel, -⟩ := Groq.said?_names e hc
      rw [hid, hmodel]
      exact ⟨(named?_of_part? he.model).symm, (named?_of_part? he.id).symm⟩
  | gemini =>
      refine (gives_decode .gemini Gemini.generated v).bind fun g hg => ?_
      have hg := (Gemini.accepts_generated v g).mp hg
      refine gives_of_leads fun n => ?_
      obtain ⟨n', hleads⟩ := g.leads_said? n
      refine ⟨g.said? n, n', hleads, fun c hc => ?_⟩
      have hmodel : named? v Provider.gemini.modelNames = given? g.modelVersion :=
        named?_of_part? hg.modelVersion
      have hid : named? v Provider.gemini.idNames = given? g.responseId :=
        named?_of_part? hg.responseId
      have hcounts := Gemini.countsOnly_iff hg
      rw [hmodel, hid, Provider.passesId]
      unfold Gemini.Generated.said? at hc
      split at hc
      · next hnone =>
        split at hc
        · next reason hreason =>
          -- a blocked prompt hands both names on
          obtain rfl := Option.some.inj hc
          have hmore : Gemini.countsOnly v = false := by
            rw [← Bool.not_eq_true, hcounts]
            exact fun h => absurd (hreason.symm.trans h.2) (by simp)
          rw [hmore]
          exact ⟨rfl, rfl⟩
        · next hreason =>
          -- the chunk of token counts is made without the name of the answer
          obtain ⟨u, -, rfl⟩ := Option.map_eq_some_iff.mp hc
          rw [hcounts.mpr ⟨hnone, hreason⟩]
          exact ⟨rfl, rfl⟩
      · next hsome =>
        obtain rfl := Option.some.inj hc
        have hmore : Gemini.countsOnly v = false := by
          rw [← Bool.not_eq_true, hcounts]
          exact fun h => absurd (hsome.symm.trans h.1) (by simp)
        rw [hmore]
        exact ⟨rfl, rfl⟩

variable {a : Adapter} {data : String} {l l' : Ledger} {o : Option Chunk}

/-- An event that is read without a failure is read for what is in it. -/
theorem Adapter.payload_of_readEvent (hlast : ¬ a.IsLast data)
    (h : (a.readEvent data).run l = (.ok o, l')) :
    ∃ v, Json.read? data = some v ∧ a.readEvent data = a.provider.readPayload v := by
  rw [readEvent_eq (not_and.mp hlast)] at h ⊢
  cases hread : Json.read? data with
  | none =>
      rw [Reading.event, hread] at h
      have hfailed : Except.error _ = Except.ok o := congrArg Prod.fst h
      exact absurd hfailed (by simp)
  | some v =>
      have hevent : Reading.event a.provider data = pure v := by rw [Reading.event, hread]
      rw [hevent, pure_bind] at h ⊢
      cases hfailure : a.streamFailure? v with
      | none => exact ⟨v, rfl, rfl⟩
      | some f =>
          rw [hfailure] at h
          have hfailed : Except.error f = Except.ok o := congrArg Prod.fst h
          exact absurd hfailed (by simp)

/-- **One event.** Whether it gives a chunk does not depend on the ledger, and the chunk has its
names, but for the name of the answer where that is not handed on. -/
theorem Adapter.chunk_of_readEvent (hlast : ¬ a.IsLast data)
    (h : (a.readEvent data).run l = (.ok o, l')) :
    a.givesChunk data = o.isSome ∧ ∀ c, o = some c →
      given? c.model = carried? a.provider.modelNames data ∧
        given? c.responseId =
          if a.passesId data then carried? a.provider.idNames data else none := by
  obtain ⟨v, hread, hevent⟩ := payload_of_readEvent hlast h
  have hunderstood := a.provider.gives_readPayload v l
  have hnames := a.provider.gives_names v l
  rw [hevent] at h
  rw [h] at hunderstood hnames
  constructor
  · -- silence is in the value alone, so it shows with an empty ledger too
    have hsilent : ∀ l₁ : Ledger, ∃ o₁ l₂, (a.provider.readPayload v).run l₁ = (.ok o₁, l₂) ∧
        (o₁ = none ↔ a.provider.IsSilent v) := by
      intro l₁
      obtain ⟨o₁, n', hleads, ho₁⟩ := Provider.leads_readPayload hunderstood l₁.callIds
      obtain ⟨l₂, hrun, -⟩ := hleads l₁ rfl
      exact ⟨o₁, l₂, hrun, ho₁⟩
    obtain ⟨o₁, l₁, hrun₁, ho₁⟩ := hsilent l
    obtain ⟨o₂, l₂, hrun₂, ho₂⟩ := hsilent {}
    obtain rfl : o = o₁ := Except.ok.inj (congrArg Prod.fst (h.symm.trans hrun₁))
    rw [givesChunk, hevent, hrun₂]
    cases o <;> cases o₂ <;> simp_all
  · intro c hc
    rw [carried?, carried?, passesId, hread]
    exact hnames c hc

end Event

/-! ## From the events to the response -/

section Stream

variable {a : Adapter} {events : List String} {l : Ledger} {cs : List Chunk}

/-- **A run.** The chunks have the names of the events that give them. -/
theorem ReadsOn.names (h : ReadsOn a events l cs) :
    cs.filterMap (given? ·.model) =
        (events.filter a.givesChunk).filterMap (carried? a.provider.modelNames) ∧
      cs.filterMap (given? ·.responseId) =
        (events.filter fun data => a.givesChunk data && a.passesId data).filterMap
          (carried? a.provider.idNames) := by
  induction h with
  | nil => exact ⟨rfl, rfl⟩
  | @event data events l l' o cs hlast hread hrest ih =>
      obtain ⟨hmodels, hids⟩ := ih
      obtain ⟨hgives, hnames⟩ := Adapter.chunk_of_readEvent hlast hread
      cases o with
      | none =>
          rw [List.filter_cons_of_neg (by simp [hgives]),
            List.filter_cons_of_neg (by simp [hgives])]
          exact ⟨hmodels, hids⟩
      | some c =>
          obtain ⟨hmodel, hid⟩ := hnames c rfl
          constructor
          · rw [List.filter_cons_of_pos (by simp [hgives]), List.filterMap_cons, ← hmodel,
              ← hmodels]
            rfl
          · show (c :: cs).filterMap _ = _
            rw [List.filterMap_cons, hid, hids]
            by_cases hpasses : a.passesId data = true
            · rw [List.filter_cons_of_pos (by simp [hgives, hpasses]), List.filterMap_cons,
                if_pos hpasses]
            · rw [List.filter_cons_of_neg (by simp [hpasses]), if_neg hpasses]

/-- Events that are read to the end of the stream, none of them being the mark of it. -/
theorem readsOn_of_result (hlast : ∀ data ∈ events, ¬ a.IsLast data)
    (h : (a.chunksOf (.ok ()) events l).result = .ok ()) : ∃ cs, ReadsOn a events l cs := by
  induction events generalizing l with
  | nil => exact ⟨[], .nil⟩
  | cons data events ih =>
      obtain ⟨hdata, hlast⟩ := List.forall_mem_cons.mp hlast
      rw [Adapter.chunksOf] at h
      cases hread : (a.readEvent data).run l with
      | mk read l' =>
          rw [hread] at h
          cases read with
          | error f => exact absurd h (by simp)
          | ok o =>
              have hdone := mt (done_of_readEvent hread).mp hdata
              obtain ⟨cs, hcs⟩ : ∃ cs, ReadsOn a events l' cs := by
                cases o with
                | none => exact ih hlast h
                | some c =>
                    -- only the mark of the end is done, so the reading goes on
                    rw [Option.any_some] at hdone
                    simp only [if_neg hdone] at h
                    exact ih hlast h
              exact ⟨_, .event hdata hread hcs⟩

/-- A response comes of a stream that has ended well. -/
theorem Assembler.follow_of_error {f : Failure} {last : Ledger} {as : Assembler}
    {items : List (Chunk × Ledger)} {r : Response} :
    (follow (.error f) last as items).result ≠ .ok r := by
  induction items generalizing as with
  | nil => exact fun h => absurd h (by simp [follow, Except.bind])
  | cons item items ih =>
      rw [follow]
      cases as.accept item.1 with
      | mk result as' =>
          cases result with
          | error e => exact fun h => absurd h (by simp)
          | ok u => exact ih

theorem Yields.result_of_assemble {y : Yields Chunk} {provider : Option String} {r : Response}
    (h : (y.assemble provider).result = .ok r) :
    y.result = .ok () ∧ Assembler.assemble provider (y.items.map (·.1)) = .ok r := by
  cases hy : y.result with
  | error f =>
      rw [Yields.assemble, hy] at h
      exact absurd h Assembler.follow_of_error
  | ok u =>
      rw [Yields.assemble_result hy] at h
      exact ⟨rfl, h⟩

/-- The names in a response are the last ones that its chunks have. -/
theorem Assembler.names_of_assemble {provider : Option String} {r : Response}
    (h : assemble provider cs = .ok r) :
    r.model = lastGiven (given? ·.model) cs ∧
      r.responseId = lastGiven (given? ·.responseId) cs := by
  obtain ⟨-, hsums⟩ := (Sums.fresh provider).acceptAll cs
  unfold assemble at h
  cases hrun : ({ provider } : Assembler).acceptAll cs with
  | mk result as =>
      rw [hrun] at h hsums
      cases result with
      | error e => exact absurd h (by simp)
      | ok u =>
          have hfinish := Keeps.finish (hsums rfl)
          dsimp only at h
          rw [hfinish] at h
          split at h
          · exact absurd h (by simp [Except.mapError])
          · split at h
            · exact absurd h (by simp [Except.mapError])
            · obtain rfl := Except.ok.inj h
              exact ⟨rfl, rfl⟩

/-- **Which names a streamed answer has.** Whenever events, none of them the mark of the end, come
to a response, its model is the last one named by an event that gives a chunk. So is its name with
Groq. With Gemini it is the last one in an event that gives a chunk and has more in it than token
counts. -/
theorem Adapter.names_of_stream (hlast : ∀ data ∈ events, ¬ a.IsLast data)
    {provider : Option String} {r : Response}
    (h : ((a.chunksOf (.ok ()) events l).assemble provider).result = .ok r) :
    r.model = lastCarried a.provider.modelNames (events.filter a.givesChunk) ∧
      r.responseId = lastCarried a.provider.idNames
        (events.filter fun data => a.givesChunk data && a.passesId data) ∧
      (a.provider = .groq →
        r.responseId = lastCarried a.provider.idNames (events.filter a.givesChunk)) := by
  obtain ⟨hresult, hassembled⟩ := Yields.result_of_assemble h
  obtain ⟨cs, hreads⟩ := readsOn_of_result hlast hresult
  rw [(hreads.chunksOf (.ok ())).1] at hassembled
  obtain ⟨hmodel, hid⟩ := Assembler.names_of_assemble hassembled
  obtain ⟨hmodels, hids⟩ := hreads.names
  rw [lastGiven, hmodels] at hmodel
  rw [lastGiven, hids] at hid
  refine ⟨hmodel, hid, fun ha => ?_⟩
  have hpasses : ∀ data, a.passesId data = true := by
    intro data
    rw [Adapter.passesId, ha]
    cases Json.read? data <;> rfl
  simp only [hpasses, Bool.and_true] at hid
  exact hid

end Stream

/-! ## A stream of two events -/

section Two

variable {a : Adapter} {first second : String} {es es' : Entries} {c d : Chunk}

/-- Two events that both give a chunk. -/
theorem Adapter.two_events (hfirst : Json.read? first = some (.object es))
    (hsecond : Json.read? second = some (.object es'))
    (hc : (a.readEvent first).run {} = (.ok (some c), {}))
    (hd : (a.readEvent second).run {} = (.ok (some d), {})) :
    (∀ data ∈ [first, second], ¬ a.IsLast data) ∧
      (∀ names, lastCarried names ([first, second].filter a.givesChunk) =
        (named? (.object es') names).or (named? (.object es) names)) ∧
      ∀ provider, ((a.chunksOf (.ok ()) [first, second] {}).assemble provider).result =
        Assembler.assemble provider [c, d] := by
  have hlastFirst : ¬ a.IsLast first := fun h => Groq.strip_ne_lastEvent_of_read? hfirst h.2
  have hlastSecond : ¬ a.IsLast second := fun h => Groq.strip_ne_lastEvent_of_read? hsecond h.2
  have hreads : ReadsOn a [first, second] {} [c, d] :=
    .event hlastFirst hc (.event hlastSecond hd .nil)
  refine ⟨by simp [hlastFirst, hlastSecond], fun names => ?_, fun provider => ?_⟩
  · have hgives : [first, second].filter a.givesChunk = [first, second] := by
      simp [Adapter.givesChunk, hc, hd]
    rw [hgives, lastCarried, List.filterMap_cons, List.filterMap_cons, carried?, carried?, hfirst,
      hsecond, Option.bind_some, Option.bind_some]
    cases named? (.object es) names <;> cases named? (.object es') names <;> rfl
  · obtain ⟨hitems, hresult⟩ := hreads.chunksOf (.ok ())
    rw [Yields.assemble_result hresult, hitems]

end Two

/-- With Groq the name of an answer may come with the token counts, after its end. -/
theorem Adapter.names_of_stream_counts :
    let a : Adapter := { provider := .groq, credential := ⟨"groq", "k"⟩, baseUrl := "https://x" }
    let events := [
      "\x7b\"model\":\"m\",\"choices\":[\x7b\"finish_reason\":\"stop\"\x7d]\x7d",
      "\x7b\"id\":\"r\",\"usage\":\x7b\x7d\x7d"]
    ∃ r, ((a.chunksOf (.ok ()) events {}).assemble (some a.name)).result = .ok r ∧
      r.model = some "m" ∧ r.responseId = some "r" := by
  intro a events
  have hfinish : Json.read? events[0] = some (.object [("model", .text "m"),
      ("choices", .list [.object [("finish_reason", .text "stop")]])]) :=
    read?_of_chars String.toList_ofList (by cbv)
  have hcounts : Json.read? events[1] = some (.object [("id", .text "r"), ("usage", .object [])]) :=
    read?_of_chars String.toList_ofList (by cbv)
  have hc := congrArg (fun m => m.run {}) (Adapter.readEvent_unreported (a := a) hfinish rfl)
  have hd := congrArg (fun m => m.run {}) (Adapter.readEvent_unreported (a := a) hcounts rfl)
  obtain ⟨hlast, hcarried, hassembled⟩ := Adapter.two_events hfinish hcounts hc hd
  have hstream := hassembled (some a.name)
  obtain ⟨hmodel, -, hid⟩ := Adapter.names_of_stream hlast hstream
  exact ⟨_, hstream, hmodel.trans (hcarried _), (hid rfl).trans (hcarried _)⟩

/-- With Gemini it is lost there: the event gives a chunk, but without the name. -/
theorem Adapter.counts_keep_name :
    let a : Adapter :=
      { provider := .gemini, credential := ⟨"gemini", "k"⟩, baseUrl := "https://x" }
    let events := [
      "\x7b\"modelVersion\":\"m\",\"candidates\":[\x7b\"finishReason\":\"STOP\"\x7d]\x7d",
      "\x7b\"responseId\":\"r\",\"usageMetadata\":\x7b\x7d\x7d"]
    (∀ data ∈ events, ¬ a.IsLast data) ∧
      lastCarried a.provider.idNames (events.filter a.givesChunk) = some "r" ∧
      ∃ r, ((a.chunksOf (.ok ()) events {}).assemble (some a.name)).result = .ok r ∧
        r.model = some "m" ∧ r.responseId = none := by
  intro a events
  have hfinish : Json.read? events[0] = some (.object [("modelVersion", .text "m"),
      ("candidates", .list [.object [("finishReason", .text "STOP")]])]) :=
    read?_of_chars String.toList_ofList (by cbv)
  have hcounts : Json.read? events[1] =
      some (.object [("responseId", .text "r"), ("usageMetadata", .object [])]) :=
    read?_of_chars String.toList_ofList (by cbv)
  have hc := congrArg (fun m => m.run {}) (Adapter.readEvent_unreported (a := a) hfinish rfl)
  have hd := congrArg (fun m => m.run {}) (Adapter.readEvent_unreported (a := a) hcounts rfl)
  obtain ⟨hlast, hcarried, hassembled⟩ := Adapter.two_events hfinish hcounts hc hd
  exact ⟨hlast, hcarried _, _, hassembled (some a.name), rfl, rfl⟩

end ChatClient
