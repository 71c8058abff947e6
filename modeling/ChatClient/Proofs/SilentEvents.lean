import ChatClient.Proofs.Concealment
import ChatClient.Proofs.GeminiStreamed

/-!
# Events that give nothing

An event of a stream gives a chunk, or a failure, or nothing at all, and what gives nothing is gone
without a trace. So it matters which events these are. They are told apart here by what is in them,
a JSON object, and not by what a decoder makes of it.

What is asked first is whether the event reports a failure. It does if it has an object with
something in it under `error`. Whatever else stands there is not looked at, and neither is anything
but the fields of the service's own, so that an event with no more than a text under `error` is one
of those that give nothing.
-/

namespace ChatClient

open Payload Reading

/-- The text under the first of some names that is there, if it is not empty. -/
def Payload.named? (v : Json) (names : List String) : Option String :=
  given? ((part? v names).bind Json.text?)

theorem Payload.named?_of_part? {v : Json} {names : List String} {o : Option String}
    (h : part? v names = o.map .text) : named? v names = given? o := by
  rw [named?, h]
  cases o <;> rfl

/-- A list that is not there, or has nothing in it. -/
def Payload.IsBare (v : Json) (names : List String) : Prop :=
  slot? v names = none ∨ slot? v names = some (.list [])

/-! ## What is left out of silent events -/

/-- An event without choices and without token counts, in either of their places. -/
structure Groq.IsSilent (v : Json) : Prop where
  choices : IsBare v ["choices"]
  usage : part? v ["usage"] = none
  ownUsage : ∀ w, part? v ["x_groq"] = some w → part? w ["usage"] = none

/-- A prompt is not said to have been blocked. -/
def Gemini.IsUnblocked (v : Json) : Prop :=
  ∀ w, part? v ["promptFeedback", "prompt_feedback"] = some w →
    named? w ["blockReason", "block_reason"] = none

/-- An event without candidates, without token counts and without a reason for blocking. -/
structure Gemini.IsSilent (v : Json) : Prop where
  candidates : IsBare v ["candidates"]
  usage : part? v ["usageMetadata", "usage_metadata"] = none
  unblocked : IsUnblocked v

namespace Provider

/-- An event in which there is nothing for a chunk. -/
def IsSilent : Provider → Json → Prop
  | .groq => Groq.IsSilent
  | .gemini => Gemini.IsSilent

/-- An event whose fields are as they should be. -/
def Understands : Provider → Json → Prop
  | .groq, v => ∃ e, Groq.IsStreamEvent v e
  | .gemini, v => ∃ g, Gemini.IsGenerated v g

/-- What an event comes to that reports no failure. -/
def readPayload (p : Provider) (v : Json) : Reading (Option Chunk) :=
  match p with
  | .groq => do
    let e ← Reading.decode .groq Groq.streamEvent v
    e.chunk?
  | .gemini => do
    let g ← Reading.decode .gemini Gemini.generated v
    g.chunk?

end Provider

/-! ## What records lack -/

section Lacks

variable {α : Type} {R : Json → α → Prop} {o : Option Json} {o' : Option α} {v : Json}
  {names : List String} {as : List α}

theorem rel_eq_none (h : Option.Rel R o o') : o' = none ↔ o = none := by
  cases h <;> simp

/-- A list that has a default is empty if it is absent or has nothing in it. -/
theorem isBare_iff (h : (slot? v names = none ∧ as = []) ∨
    ∃ w, slot? v names = some w ∧ IsList R w as) : IsBare v names ↔ as = [] := by
  rw [IsBare]
  rcases h with ⟨hnone, rfl⟩ | ⟨w, hw, vs, rfl, hvs⟩
  · exact iff_of_true (.inl hnone) rfl
  · rw [hw]
    cases hvs <;> simp

theorem Groq.isSilent_iff {e : StreamEvent} (h : IsStreamEvent v e) :
    IsSilent v ↔ e.choices = [] ∧ e.usage = none := by
  have hown : e.ownUsage.join = none ↔
      ∀ w, part? v ["x_groq"] = some w → part? w ["usage"] = none := by
    have hrel := h.ownUsage
    generalize part? v ["x_groq"] = own, e.ownUsage = own' at hrel
    cases hrel with
    | none => simp
    | some hw => simpa using rel_eq_none hw.usage
  rw [StreamEvent.usage, Option.or_eq_none_iff, hown, rel_eq_none h.plainUsage,
    ← isBare_iff h.choices]
  exact ⟨fun hs => ⟨hs.choices, hs.ownUsage, hs.usage⟩, fun hs => ⟨hs.1, hs.2.2, hs.2.1⟩⟩

theorem Gemini.isUnblocked_iff {g : Generated} (h : IsGenerated v g) :
    IsUnblocked v ↔ g.blockReason? = none := by
  have hrel := h.promptFeedback
  rw [IsUnblocked, Generated.blockReason?]
  generalize part? v ["promptFeedback", "prompt_feedback"] = w, g.promptFeedback = reason at hrel
  cases hrel with
  | none => simp
  | @some w reason hw => simp [named?_of_part? hw.blockReason, given?]

theorem Gemini.isSilent_iff {g : Generated} (h : IsGenerated v g) :
    IsSilent v ↔ g.candidates = [] ∧ g.usage = none ∧ g.blockReason? = none := by
  rw [← isBare_iff h.candidates, rel_eq_none h.usage, ← isUnblocked_iff h]
  exact ⟨fun hs => ⟨hs.candidates, hs.usage, hs.unblocked⟩, fun hs => ⟨hs.1, hs.2.1, hs.2.2⟩⟩

end Lacks

/-! ## What records give -/

theorem Groq.said?_eq_none {e : Groq.StreamEvent} :
    e.said? = none ↔ e.choices = [] ∧ e.usage = none := by
  unfold StreamEvent.said?
  cases e.choices <;> simp

namespace Gemini.Generated

/-- The chunk of an event, when `n` ids have been made before. -/
def said? (g : Generated) (n : Nat) : Option Chunk :=
  match g.candidates with
  | [] =>
    match g.blockReason? with
    | some reason => some (g.refusalChunk reason)
    | none => g.usage.map fun usage => { usage := some usage, model := g.modelVersion }
  | _ :: _ => some (g.chunkFrom n)

theorem leads_said? (g : Generated) (n : Nat) : ∃ n', Leads g.chunk? n (.ok (g.said? n)) n' := by
  unfold said?
  cases hcandidates : g.candidates with
  | nil =>
      refine ⟨n, ?_⟩
      unfold chunk?
      rw [hcandidates]
      cases g.blockReason? <;> exact leads_pure _ n
  | cons c others => exact ⟨_, leads_chunk? (by simp [hcandidates]) n⟩

theorem said?_eq_none {g : Generated} {n : Nat} :
    g.said? n = none ↔ g.candidates = [] ∧ g.usage = none ∧ g.blockReason? = none := by
  unfold said?
  cases g.candidates with
  | cons c others => simp
  | nil => cases g.blockReason? <;> simp

end Gemini.Generated

namespace Provider

variable {p : Provider} {v : Json}

/-- What an event that is understood leads to: nothing if it is silent, and else a chunk. -/
theorem leads_readPayload (h : p.Understands v) (n : Nat) :
    ∃ o n', Leads (p.readPayload v) n (.ok o) n' ∧ (o = none ↔ p.IsSilent v) := by
  cases p with
  | groq =>
      obtain ⟨e, he⟩ := h
      refine ⟨e.said?, n, ?_, ?_⟩
      · exact (leads_decode ((Groq.accepts_streamEvent v e).mpr he) n).bind (e.leads_chunk? n)
      · rw [Groq.said?_eq_none]
        exact (Groq.isSilent_iff he).symm
  | gemini =>
      obtain ⟨g, hg⟩ := h
      obtain ⟨n', hleads⟩ := g.leads_said? n
      refine ⟨g.said? n, n', ?_, ?_⟩
      · exact (leads_decode ((Gemini.accepts_generated v g).mpr hg) n).bind hleads
      · rw [Gemini.Generated.said?_eq_none]
        exact (Gemini.isSilent_iff hg).symm

/-- An event that is not understood is malformed. -/
theorem gives_readPayload (p : Provider) (v : Json) :
    Gives (IsMalformed p) (fun _ => p.Understands v) (p.readPayload v) := by
  cases p with
  | groq =>
      refine (gives_decode .groq Groq.streamEvent v).bind fun e he => ?_
      have hunderstood : Provider.groq.Understands v := ⟨e, (Groq.accepts_streamEvent v e).mp he⟩
      exact gives_of_leads fun n => ⟨_, n, e.leads_chunk? n, hunderstood⟩
  | gemini =>
      refine (gives_decode .gemini Gemini.generated v).bind fun g hg => ?_
      have hunderstood : Provider.gemini.Understands v := ⟨g, (Gemini.accepts_generated v g).mp hg⟩
      exact gives_of_leads fun n =>
        let ⟨n', hleads⟩ := g.leads_said? n
        ⟨_, n', hleads, hunderstood⟩

/-- Nothing comes of an event just if it is understood and silent. -/
theorem readPayload_eq_none (p : Provider) (v : Json) (l : Ledger) :
    ((p.readPayload v).run l).1 = .ok none ↔ p.Understands v ∧ p.IsSilent v := by
  constructor
  · intro hnone
    have hunderstood := gives_readPayload p v l
    rw [hnone] at hunderstood
    obtain ⟨o, n', hleads, hsilent⟩ := leads_readPayload hunderstood l.callIds
    obtain ⟨l', hrun, -⟩ := hleads l rfl
    rw [hrun] at hnone
    exact ⟨hunderstood, hsilent.mp (Except.ok.inj hnone)⟩
  · intro h
    obtain ⟨hunderstood, hsilent⟩ := h
    obtain ⟨o, n', hleads, ho⟩ := leads_readPayload hunderstood l.callIds
    obtain ⟨l', hrun, -⟩ := hleads l rfl
    rw [hrun, ho.mpr hsilent]

end Provider

/-! ## Events -/

theorem errorObject_eq_nil {v : Json} :
    errorObject v = [] ↔ ∀ details, v.field? "error" = some (.object details) → details = [] := by
  unfold errorObject
  split
  · next es hes => simp [hes]
  · next hne => exact iff_of_true rfl fun details hdetails => absurd hdetails (hne details)

namespace Adapter

variable {a : Adapter} {data : String} {es : Entries}

/-- An event is looked at for a failure first, and then for what is in it, unless it is the mark of
the end. -/
theorem readEvent_eq (hlast : a.provider = .groq → Text.strip data ≠ Groq.lastEvent) :
    a.readEvent data = (do
      let v ← Reading.event a.provider data
      match a.streamFailure? v with
      | some failure => throw failure
      | none => a.provider.readPayload v) := by
  unfold readEvent Provider.readPayload
  cases hp : a.provider with
  | groq => exact if_neg (hlast hp)
  | gemini => rfl

/-- An event that reports no failure is read for what is in it. -/
theorem readEvent_unreported (hread : Json.read? data = some (.object es))
    (herror : errorObject (.object es) = []) :
    a.readEvent data = a.provider.readPayload (.object es) := by
  have hevent : Reading.event a.provider data = pure (.object es) := by rw [Reading.event, hread]
  rw [readEvent_eq fun _ => Groq.strip_ne_lastEvent_of_read? hread, hevent, pure_bind,
    streamFailure?_eq_none herror]

/-- The failure that a stream with details of an error comes to. -/
def reported (a : Adapter) (details : Entries) : Failure :=
  .interrupted (a.redact (a.name ++ " stream failed: " ++
    ((details.get? "message").map Json.shown).getD "unknown error")) none

/-- **Which events give nothing.** An event that is an object gives nothing just if it has no object
with something in it under `error`, its fields are as they should be, and there are no choices or
candidates, no token counts and no reason for blocking in it. It interrupts the stream just if it
does have such an object, and then with what this says. -/
theorem readEvent_object (hread : Json.read? data = some (.object es)) (l : Ledger) :
    let v := Json.object es
    let came := ((a.readEvent data).run l).1
    (came = .ok none ↔
      (∀ details, v.field? "error" = some (.object details) → details = []) ∧
        a.provider.Understands v ∧ a.provider.IsSilent v) ∧
    (∀ details, v.field? "error" = some (.object details) → details ≠ [] →
      (a.readEvent data).run l = (.error (a.reported details), l)) ∧
    ((∃ message hint, came = .error (.interrupted message hint)) →
      ∃ details, v.field? "error" = some (.object details) ∧ details ≠ []) := by
  intro v came
  have hreports : ∀ details, v.field? "error" = some (.object details) → details ≠ [] →
      (a.readEvent data).run l = (.error (a.reported details), l) := by
    intro details hdetails hsome
    have herror : errorObject v = details := by rw [errorObject, hdetails]
    have hf : a.streamFailure? v = some (a.reported details) := by
      rw [streamFailure?, herror]
      exact if_neg (by simpa using hsome)
    exact readEvent_reported hread (herror ▸ hsome) hf l
  refine ⟨?_, hreports, ?_⟩
  · rw [← errorObject_eq_nil]
    by_cases herror : errorObject v = []
    · rw [iff_true_intro herror, true_and, ← a.provider.readPayload_eq_none v l,
        ← readEvent_unreported hread herror]
    · -- what reports a failure is not nothing
      refine iff_of_false (fun hnone => ?_) fun h => herror h.1
      obtain ⟨s, hs⟩ := streamFailure?_reported (a := a) herror
      have hrun := readEvent_reported hread herror hs l
      rw [show came = .error _ from congrArg Prod.fst hrun] at hnone
      exact absurd hnone (by simp)
  · rintro ⟨message, hint, hcame⟩
    by_contra hnone
    have herror : errorObject v = [] := by
      refine errorObject_eq_nil.mpr fun details hdetails => ?_
      by_contra hsome
      exact hnone ⟨details, hdetails, hsome⟩
    -- all that is left to go wrong is the form of the fields
    have hmalformed := a.provider.gives_readPayload v l
    rw [← readEvent_unreported hread herror,
      show ((a.readEvent data).run l).1 = .error _ from hcame] at hmalformed
    obtain ⟨text, htext⟩ := hmalformed
    exact absurd htext (by simp)

/-- An event with token counts in the service's own place gives a chunk, one with just a name gives
nothing, and one with an error that says nothing interrupts the stream all the same. -/
theorem readEvent_object_counts :
    let a : Adapter :=
      { provider := .groq, credential := ⟨"groq", "sk-1"⟩, baseUrl := "https://x" }
    ((a.readEvent "\x7b\"x_groq\": \x7b\"usage\": \x7b\x7d\x7d\x7d").run {}).1 ≠ .ok none ∧
      ((a.readEvent "\x7b\"id\": \"r\"\x7d").run {}).1 = .ok none ∧
      ((a.readEvent "\x7b\"error\": \x7b\"code\": \"c\"\x7d\x7d").run {}).1 =
        .error (.interrupted "groq stream failed: unknown error" none) := by
  intro a
  have hcounts : Json.read? "\x7b\"x_groq\": \x7b\"usage\": \x7b\x7d\x7d\x7d" =
      some (.object [("x_groq", .object [("usage", .object [])])]) :=
    read?_of_chars String.toList_ofList (by cbv)
  have hname : Json.read? "\x7b\"id\": \"r\"\x7d" = some (.object [("id", .text "r")]) :=
    read?_of_chars String.toList_ofList (by cbv)
  have herror : Json.read? "\x7b\"error\": \x7b\"code\": \"c\"\x7d\x7d" =
      some (.object [("error", .object [("code", .text "c")])]) :=
    read?_of_chars String.toList_ofList (by cbv)
  refine ⟨fun hnone => ?_, ?_, ?_⟩
  · obtain ⟨-, -, hsilent⟩ := (readEvent_object hcounts {}).1.mp hnone
    exact absurd (hsilent.ownUsage _ rfl) (by simp [part?, slot?, Json.field?, Entries.get?])
  · refine (readEvent_object hname {}).1.mpr ⟨?_, ⟨_, (Groq.accepts_streamEvent _ _).mp rfl⟩, ?_⟩
    · intro details hdetails
      exact absurd hdetails (by simp [Json.field?, Entries.get?])
    · refine ⟨.inl rfl, rfl, fun w hw => ?_⟩
      exact absurd hw (by simp [part?, slot?, Json.field?, Entries.get?])
  · have hrun := (readEvent_object (a := a) herror {}).2.1 _ rfl (by simp)
    rw [hrun]
    exact congrArg (fun s => Except.error (Failure.interrupted s none)) (by decide)

/-- An event in which a text stands under `error` is one of those that give nothing. -/
theorem readEvent_overloaded :
    let a : Adapter := { provider := .groq, credential := ⟨"groq", "k"⟩, baseUrl := "https://x" }
    let b : Adapter :=
      { provider := .gemini, credential := ⟨"gemini", "k"⟩, baseUrl := "https://x" }
    let data := "\x7b\"error\": \"overloaded\"\x7d"
    Json.read? data = some (.object [("error", .text "overloaded")]) ∧
      (a.readEvent data).run {} = (.ok none, {}) ∧ (b.readEvent data).run {} = (.ok none, {}) := by
  intro a b data
  have hread : Json.read? data = some (.object [("error", .text "overloaded")]) :=
    read?_of_chars String.toList_ofList (by cbv)
  refine ⟨hread, ?_, ?_⟩
  · rw [readEvent_unreported hread rfl]
    rfl
  · rw [readEvent_unreported hread rfl]
    rfl

end Adapter

end ChatClient
