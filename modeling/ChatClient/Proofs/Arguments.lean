import ChatClient.Proofs.Nesting
import ChatClient.Proofs.SystemText

/-!
# Texts that cannot be written

For Gemini the arguments of a call are written as an object, so they have to be one: nothing at
all, or the text of an object. Validation does not look at them. It is while the turns are made that
they are read, in the middle of a loop that passes the system's messages over and puts results
together; the objection still names the place that the message has in the request.

The results of tools are read in the same loop. Any text will do for one, but the reader has only so
much room: a text that is nested deeper, be it a result or arguments, stops the writing with a
failure that is none of validation's.

Nothing else stops the writing of an accepted request. `Progress.add_cases` is what one message can
come to, `Progress.addAll_cases` what a whole conversation can.
-/

namespace ChatClient

/-- Arguments that are an object: an empty text, or one that reads as an object. -/
def RequestCall.HasObject (c : RequestCall) : Prop :=
  ∃ s, c.arguments = .text s ∧ (s = "" ∨ ∃ es, Json.read? s = some (.object es))

/-- What is wrong with arguments that are texts. -/
inductive RequestCall.Offends (c : RequestCall) : Refusal → Prop
  | unreadable {s : String} (hs : c.arguments = .text s) (hgiven : s ≠ "")
    (hread : Json.read? s = none) : c.Offends (.unreadableArguments c.id)
  | notObject {s : String} {v : Json} (hs : c.arguments = .text s) (hgiven : s ≠ "")
    (hread : Json.read? s = some v) (hv : v.isObject = false) : c.Offends (.argumentsNotObject c.id)

/-- The arguments of all calls of a message are objects. -/
def RequestMessage.HasObjects (m : RequestMessage) : Prop := ∀ c ∈ m.toolCalls, c.HasObject

/-- The arguments of all calls of a message are texts, whatever is in them. -/
def RequestMessage.HasTexts (m : RequestMessage) : Prop :=
  ∀ c ∈ m.toolCalls, ∃ s, c.arguments = .text s

/-- A reader with so much room can read the arguments. -/
def RequestCall.Fits (room : Nat) (c : RequestCall) : Prop :=
  ∀ s, c.arguments = .text s → Json.overruns room s = false

/-- A reader with so much room can read all texts of a message that are read. -/
structure RequestMessage.Fits (room : Nat) (m : RequestMessage) : Prop where
  arguments : ∀ c ∈ m.toolCalls, c.Fits room
  report : m.isBy .tool = true → ∀ s, m.content = .text s → Json.overruns room s = false

/-- What stops the writing at a call of message `i`: its arguments are nested too deep, or what is
read of them is no object. -/
inductive RequestCall.Stops (room i : Nat) (c : RequestCall) : Objection → Prop
  | tooDeep {s : String} (hs : c.arguments = .text s) (hdeep : Json.overruns room s = true) :
    c.Stops room i .tooDeep
  | offends {cause : Refusal} (hfits : c.Fits room) (hoffends : c.Offends cause) :
    c.Stops room i (.fault ⟨.toolCalls i, cause⟩)

/-- What stops the writing at message `i`: the first call that does, or a result that is nested too
deep. -/
inductive RequestMessage.Stops (room i : Nat) (m : RequestMessage) : Objection → Prop
  | call {earlier later : List RequestCall} {c : RequestCall} {o : Objection}
    (hby : m.isBy .assistant = true) (hcalls : m.toolCalls = earlier ++ c :: later)
    (hearlier : ∀ d ∈ earlier, d.HasObject ∧ d.Fits room) (hc : c.Stops room i o) :
    m.Stops room i o
  | report {s : String} (hby : m.isBy .tool = true) (hs : m.content = .text s)
    (hdeep : Json.overruns room s = true) : m.Stops room i .tooDeep

/-! ## Values of one kind -/

/-- What was written item by item is read item by item. -/
theorem mapM_map_eq_some {α β : Type} {write : α → β} {read : β → Option α}
    (h : ∀ a, read (write a) = some a) (as : List α) : (as.map write).mapM read = some as := by
  induction as with
  | nil => rfl
  | cons a as ih =>
      rw [List.map_cons, List.mapM_cons, h, ih]
      rfl

/-- Where every value is a text there is a list of texts. -/
theorem exists_texts {vs : List Json} (h : ∀ v ∈ vs, ∃ s, v = .text s) :
    ∃ texts : List String, vs = texts.map .text := by
  induction vs with
  | nil => exact ⟨[], rfl⟩
  | cons v vs ih =>
      obtain ⟨⟨s, rfl⟩, hvs⟩ := List.forall_mem_cons.mp h
      obtain ⟨texts, rfl⟩ := ih hvs
      exact ⟨s :: texts, rfl⟩

end ChatClient

namespace ChatClient.Gemini

/-! ## The arguments of one call -/

section Calls

variable {c : RequestCall} {cause : Refusal}

theorem hasObject_iff : c.HasObject ↔
    ∃ s, c.arguments = .text s ∧ ∃ args, loadArguments? s = some (.object args) := by
  refine exists_congr fun s => and_congr_right fun _ => ?_
  by_cases hs : s = ""
  · subst hs
    exact ⟨fun _ => ⟨[], rfl⟩, fun _ => .inl rfl⟩
  · rw [loadArguments?_of_ne hs, or_iff_right hs]

/-- What offends is no object. -/
theorem not_hasObject_of_offends (h : c.Offends cause) : ¬ c.HasObject := by
  rintro ⟨s, hs, hobject⟩
  cases h with
  | unreadable hs' hgiven hread =>
      obtain rfl := Json.text.inj (hs.symm.trans hs')
      obtain ⟨es, hes⟩ := hobject.resolve_left hgiven
      exact absurd (hread.symm.trans hes) (by simp)
  | notObject hs' hgiven hread hv =>
      obtain rfl := Json.text.inj (hs.symm.trans hs')
      obtain ⟨es, hes⟩ := hobject.resolve_left hgiven
      obtain rfl := Option.some.inj (hread.symm.trans hes)
      exact absurd hv (by simp [Json.isObject])

theorem offends_of_load_none {s : String} (hs : c.arguments = .text s)
    (h : loadArguments? s = none) : c.Offends (.unreadableArguments c.id) := by
  have hgiven : s ≠ "" := by
    rintro rfl
    exact absurd h (by simp [loadArguments?])
  exact .unreadable hs hgiven (loadArguments?_of_ne hgiven ▸ h)

theorem offends_of_load_some {s : String} {v : Json} (hs : c.arguments = .text s)
    (h : loadArguments? s = some v) (hv : v.isObject = false) :
    c.Offends (.argumentsNotObject c.id) := by
  have hgiven : s ≠ "" := by
    rintro rfl
    obtain rfl : Json.object [] = v := Option.some.inj h
    exact absurd hv (by simp [Json.isObject])
  exact .notObject hs hgiven (loadArguments?_of_ne hgiven ▸ h) hv

/-- Arguments that are the text of a value can be read where there is room for the value. -/
theorem fits_compact_iff {room : Nat} {id name : Json} {v : Json} (hv : v.Readable) :
    RequestCall.Fits room { id, name, arguments := .text v.compact } ↔ v.depth ≤ room := by
  rw [RequestCall.Fits, ← not_lt, ← Json.overruns_compact_iff hv, Bool.not_eq_true]
  constructor
  · intro h
    exact h _ rfl
  · rintro h s ⟨⟩
    exact h

/-- Arguments that are a text are an object, or they stop the writing. -/
theorem callArguments_cases (htext : ∃ s, c.arguments = .text s) (room i : Nat) :
    ((c.HasObject ∧ c.Fits room) ∧ ∃ args, callArguments room i c = .ok args) ∨
      ∃ o, c.Stops room i o ∧ callArguments room i c = .error o := by
  obtain ⟨s, hs⟩ := htext
  -- whether the text is an object is asked only where it leaves the reader room
  by_cases hdeep : Json.overruns room s = true
  · have hload : c.load room = .tooDeep := by
      simp only [RequestCall.load, hs, Json.bounded_eq_tooDeep.mpr hdeep]
    refine .inr ⟨_, .tooDeep hs hdeep, ?_⟩
    rw [callArguments, hload]
  have hroom : Json.overruns room s = false := Bool.eq_false_iff.mpr hdeep
  have hfits : c.Fits room := by
    intro t ht
    obtain rfl := Json.text.inj (hs.symm.trans ht)
    exact hroom
  cases hread : loadArguments? s with
  | none =>
      have hload : c.load room = .unreadable := by
        simp only [RequestCall.load, hs, Json.bounded_eq_malformed.mpr ⟨hroom, hread⟩]
      refine .inr ⟨_, .offends hfits (offends_of_load_none hs hread), ?_⟩
      rw [callArguments, hload]
      rfl
  | some v =>
      have hload : c.load room = .value v := by
        simp only [RequestCall.load, hs, Json.bounded_eq_ok.mpr ⟨hroom, hread⟩]
      rw [callArguments, hload]
      cases v with
      | object args =>
          exact .inl ⟨⟨hasObject_iff.mpr ⟨s, hs, args, hread⟩, hfits⟩, args, rfl⟩
      | _ => exact .inr ⟨_, .offends hfits (offends_of_load_some hs hread rfl), rfl⟩

end Calls

/-! ## The calls of one message -/

/-- The calls of a message are all told, or the first that cannot be stops the writing. -/
theorem callParts_cases {calls : List RequestCall} (hkey : ∀ c ∈ calls, c.id.isKey = true)
    (htexts : ∀ c ∈ calls, ∃ s, c.arguments = .text s) (room i : Nat) :
    ((∀ c ∈ calls, c.HasObject ∧ c.Fits room) ∧ ∃ parts, callParts room i calls = .ok parts) ∨
      ∃ earlier c later o, calls = earlier ++ c :: later ∧
        (∀ d ∈ earlier, d.HasObject ∧ d.Fits room) ∧ c.Stops room i o ∧
        callParts room i calls = .error o := by
  induction calls with
  | nil => exact .inl ⟨by simp, [], rfl⟩
  | cons c calls ih =>
      obtain ⟨hckey, hkey⟩ := List.forall_mem_cons.mp hkey
      obtain ⟨hctext, htexts⟩ := List.forall_mem_cons.mp htexts
      have hparts : callParts room i (c :: calls) = callArguments room i c >>= fun args =>
          callParts room i calls >>= fun rest => .ok (.call c.id c.name args :: rest) := by
        rw [callParts, hckey]
        rfl
      rcases callArguments_cases hctext room i with ⟨hc, args, hargs⟩ | ⟨o, ho, hargs⟩
      · rcases ih hkey htexts with ⟨hall, parts, hrest⟩ | ⟨earlier, d, later, o, rfl, h⟩
        · refine .inl ⟨List.forall_mem_cons.mpr ⟨hc, hall⟩, .call c.id c.name args :: parts, ?_⟩
          rw [hparts, hargs, hrest]
          rfl
        · obtain ⟨hearlier, hd, hrest⟩ := h
          refine .inr ⟨c :: earlier, d, later, o, rfl, ?_, hd, ?_⟩
          · exact List.forall_mem_cons.mpr ⟨hc, hearlier⟩
          · rw [hparts, hargs, hrest]
            rfl
      · -- the calls behind it are not looked at
        refine .inr ⟨[], c, calls, o, rfl, by simp, ho, ?_⟩
        rw [hparts, hargs]
        rfl

/-! ## What stops the writing -/

section Stops

variable {room i : Nat} {m : RequestMessage}

/-- A reader that gives up has met a text that does not fit. -/
theorem not_fits_of_stops (h : m.Stops room i .tooDeep) : ¬ m.Fits room := by
  intro hfits
  cases h with
  | @call earlier later c _ hby hcalls hearlier hc =>
      cases hc with
      | tooDeep hs hdeep =>
          have hmem : c ∈ m.toolCalls := hcalls ▸ List.mem_append_cons_self
          exact absurd (hdeep.symm.trans (hfits.arguments c hmem _ hs)) (by simp)
  | report hby hs hdeep => exact absurd (hdeep.symm.trans (hfits.report hby _ hs)) (by simp)

/-- A fault is that of a call of the assistant's without an object. -/
theorem not_hasObjects_of_stops {f : RequestFault} (h : m.Stops room i (.fault f)) :
    m.isBy .assistant = true ∧ ¬ m.HasObjects := by
  cases h with
  | @call earlier later c _ hby hcalls hearlier hc =>
      cases hc with
      | offends hfits hoffends =>
          have hmem : c ∈ m.toolCalls := hcalls ▸ List.mem_append_cons_self
          exact ⟨hby, fun hobjects => not_hasObject_of_offends hoffends (hobjects c hmem)⟩

/-- The failure of what stops the writing: that a text is nested too deep, or one of validation's
under the path of the message's calls, without advice. -/
theorem failure_of_stops {o : Objection} (h : m.Stops room i o) :
    o = .tooDeep ∨ ∃ cause, o = .fault ⟨.toolCalls i, cause⟩ ∧ Failure.ofObjection o =
      .validation cause.message (some s!"messages[{i}].tool_calls") none := by
  cases h with
  | call hby hcalls hearlier hc =>
      cases hc with
      | tooDeep hs hdeep => exact .inl rfl
      | offends hfits hoffends => exact .inr ⟨_, rfl, by cases hoffends <;> rfl⟩
  | report hby hs hdeep => exact .inl rfl

end Stops

/-! ## The conversation -/

section Conversation

variable {before : List RequestMessage} {m : RequestMessage} {p : Progress}

/-- A message without calls that is no tool's has nothing that is read. -/
theorem writable_of_silent (hcalls : m.toolCalls = []) (hby : m.isBy .tool = false) (room : Nat) :
    m.HasObjects ∧ m.Fits room := by
  refine ⟨fun c hc => absurd hc (by simp [hcalls]), fun c hc => absurd hc (by simp [hcalls]), ?_⟩
  exact fun htool => absurd htool (by simp [hby])

/-- **One step.** An accepted message is added, or a text in it stops the writing. -/
theorem Progress.add_cases (hm : AcceptedAfter before m) (htexts : m.HasTexts) (room i : Nat) :
    ((m.HasObjects ∧ m.Fits room) ∧ ∃ p', p.add room i m = .ok p') ∨
      ∃ o, m.Stops room i o ∧ p.add room i m = .error o := by
  have hby {r : Role} (hr : m.role = .text r.name) := isBy_of_role hr
  cases hm with
  | system hbefore hcontent =>
      have hby := hby (r := .system) rfl
      refine .inl ⟨writable_of_silent rfl (by rw [hby]; rfl) room, p, ?_⟩
      rw [Progress.add, hby, if_pos (by simp)]
  | user hcontent =>
      have hby := hby (r := .user) rfl
      refine .inl ⟨writable_of_silent rfl (by rw [hby]; rfl) room, ?_⟩
      rw [Progress.add, hby, hby, if_neg (by simp), if_neg (by simp)]
      exact ⟨_, rfl⟩
  | @assistant content calls hvoiced hcalls =>
      have hby := hby (r := .assistant) rfl
      rw [Progress.add, hby, hby, if_neg (by simp), if_neg (by simp)]
      rcases callParts_cases hcalls.key htexts room i with
        ⟨hall, parts, hparts⟩ | ⟨earlier, c, later, o, hsplit, hearlier, hc, hparts⟩
      · refine .inl ⟨⟨fun c hc => (hall c hc).1, fun c hc => (hall c hc).2, ?_⟩, ?_⟩
        · exact fun htool => absurd htool (by simp [hby])
        · rw [hparts]
          exact ⟨_, rfl⟩
      · refine .inr ⟨o, .call (by rw [hby]; rfl) hsplit hearlier hc, ?_⟩
        rw [hparts]
        rfl
  | @tool content id hgiven hkey asker hasker hasked =>
      -- the answer has an id to be looked up and a text, so only the text can stop it
      have hby := hby (r := .tool) rfl
      have hid : answerId
          { role := .text Role.tool.name, content := .text content, toolCallId := id } = id :=
        if_pos hgiven
      rw [Progress.add, hby, hby, if_neg (by simp), if_pos (by simp), Progress.resultPart, hid,
        hkey]
      by_cases hdeep : Json.overruns room content = true
      · refine .inr ⟨_, .report (by rw [hby]; rfl) rfl hdeep, ?_⟩
        simp only [resultObject_overrun hdeep]
        rfl
      · have hroom : Json.overruns room content = false := Bool.eq_false_iff.mpr hdeep
        refine .inl ⟨⟨by simp [RequestMessage.HasObjects], by simp, ?_⟩, ?_⟩
        · rintro - s ⟨⟩
          exact hroom
        · obtain ⟨es, hes⟩ := exists_packs content
          simp only [resultObject_fits hroom hes]
          exact ⟨_, rfl⟩

/-- **The run.** All messages are added, or the first one that cannot be stops the writing, in the
place that it has. -/
theorem Progress.addAll_cases {ms : List RequestMessage} (hms : AcceptedMessages (before ++ ms))
    (htexts : ∀ m ∈ ms, m.HasTexts) (room : Nat) :
    ((∀ m ∈ ms, m.HasObjects ∧ m.Fits room) ∧
        ∃ p', p.addAll room before.length ms = .ok p') ∨
      ∃ earlier m later o, ms = earlier ++ m :: later ∧
        (∀ b ∈ earlier, b.HasObjects ∧ b.Fits room) ∧
        m.Stops room (before ++ earlier).length o ∧
        p.addAll room before.length ms = .error o := by
  induction ms generalizing before p with
  | nil => exact .inl ⟨by simp, p, rfl⟩
  | cons m ms ih =>
      obtain ⟨hmtexts, htexts⟩ := List.forall_mem_cons.mp htexts
      have hm : AcceptedAfter before m := hms before m ms rfl
      rcases Progress.add_cases (p := p) hm hmtexts room before.length with
        ⟨hwritable, p', hadd⟩ | ⟨o, ho, hadd⟩
      · -- the next message stands one place further, whether this one made a turn or not
        have hnext : p.addAll room before.length (m :: ms) =
            p'.addAll room (before ++ [m]).length ms := by
          rw [Progress.addAll, hadd, List.length_append]
          rfl
        rw [List.append_cons] at hms
        rw [hnext]
        rcases ih hms htexts (p := p') with ⟨hall, hok⟩ | ⟨earlier, b, later, o, rfl, h⟩
        · exact .inl ⟨List.forall_mem_cons.mpr ⟨hwritable, hall⟩, hok⟩
        · obtain ⟨hearlier, hb, hstop⟩ := h
          refine .inr ⟨m :: earlier, b, later, o, rfl, ?_, ?_, hstop⟩
          · exact List.forall_mem_cons.mpr ⟨hwritable, hearlier⟩
          · rwa [List.append_cons before m earlier]
      · refine .inr ⟨[], m, ms, o, rfl, by simp, ?_, ?_⟩
        · rwa [List.append_nil]
        · rw [Progress.addAll, hadd]

end Conversation

/-- What the messages of the system say can be put together. -/
theorem systemText?_eq_ok {ms : List RequestMessage} (hms : ∀ m ∈ ms, m.Formed) :
    ∃ system, systemText? ms = .ok system := by
  have hfiltered : ∀ m ∈ ms.filter (·.isBy .system), m.Formed :=
    fun m hm => hms m (List.mem_of_mem_filter hm)
  obtain ⟨texts, htexts⟩ := exists_texts (List.forall_mem_map.mpr fun m hm => (hfiltered m hm).content)
  unfold systemText?
  split
  · exact ⟨none, rfl⟩
  · have hread : (texts.map Json.text).mapM Json.text? = some texts :=
      mapM_map_eq_some (fun _ => by rfl) texts
    rw [htexts, hread]
    exact ⟨_, rfl⟩

/-- A request whose turns can be told is written, and one whose turns cannot stops where they
do. -/
theorem render_of_turns {a : Adapter} (ha : a.provider = .gemini) {r : Request} (hr : r.Accepted)
    (model : String) (stream : Bool) :
    (∀ p, Progress.addAll a.room {} 0 r.messages = .ok p →
      ∃ written log, a.render r model stream = .ok (written, log)) ∧
    (∀ e, Progress.addAll a.room {} 0 r.messages = .error e →
      a.render r model stream = .error e) := by
  constructor
  · intro p hp
    obtain ⟨system, hsystem⟩ := systemText?_eq_ok fun m hm => hr.formed hm
    have hturns : turns a.room r.messages = .ok p.turns.reverse := exceptMap_eq_ok.mpr ⟨p, hp, rfl⟩
    exact ⟨_, _, (render_eq_ok ha).mpr ⟨_, system, hturns, hsystem, rfl, rfl⟩⟩
  · intro e he
    have hturns : turns a.room r.messages = .error e := by
      rw [turns, he]
      rfl
    rw [Adapter.render, ha]
    exact bind_eq_error.mpr (.inl hturns)

/-- An accepted request whose calls have objects for arguments is written, or a text in it is nested
too deep. -/
theorem render_of_hasObjects {a : Adapter} (ha : a.provider = .gemini) {r : Request}
    (hr : r.Accepted) (hobjects : ∀ m ∈ r.messages, m.HasObjects) (model : String) (stream : Bool) :
    ((∀ m ∈ r.messages, m.Fits a.room) ∧
        ∃ written log, a.render r model stream = .ok (written, log)) ∨
      ((∃ m ∈ r.messages, ¬ m.Fits a.room) ∧ a.render r model stream = .error .tooDeep) := by
  obtain ⟨hwrites, hstops⟩ := render_of_turns ha hr model stream
  have htexts : ∀ m ∈ r.messages, m.HasTexts :=
    fun m hm c hc => (hobjects m hm c hc).imp fun _ h => h.1
  rcases @Progress.addAll_cases [] {} _ hr.messages htexts a.room with
    ⟨hall, p, hp⟩ | ⟨before, m, after, o, hsplit, -, hm, hstop⟩
  · exact .inl ⟨fun m hm => (hall m hm).2, hwrites p hp⟩
  · have hmem : m ∈ r.messages := by
      rw [show r.messages = before ++ m :: after from hsplit]
      exact List.mem_append_cons_self
    rcases failure_of_stops hm with rfl | ⟨cause, rfl, -⟩
    · exact .inr ⟨⟨m, hmem, not_fits_of_stops hm⟩, hstops _ hstop⟩
    · exact absurd (hobjects m hmem) (not_hasObjects_of_stops hm).2

end ChatClient.Gemini

namespace ChatClient

open Gemini

/-- **What can be written for whom.** An accepted request whose calls have texts for arguments is
always written for Groq. For Gemini it is written just if the arguments of every call of the
assistant's are an object, or empty, and no text that is read on the way is nested too deep.
Otherwise the first message that cannot be written decides. Either the first call of it that cannot
be written offends, and the failure is validation's, under the path of that message's calls, whose
place counts all messages before it, the system's too; or a text is nested too deep, and the failure
is the reader's. -/
theorem render_of_validate {r : Request} (hr : r.validate = .ok ())
    (htexts : ∀ m ∈ r.messages, m.HasTexts) (a : Adapter) (model : String) (stream : Bool) :
    (a.provider = .groq → ∃ written log, a.render r model stream = .ok (written, log)) ∧
    (a.provider = .gemini →
      ((∃ written log, a.render r model stream = .ok (written, log)) ↔
        (∀ m ∈ r.messages, m.isBy .assistant = true → m.HasObjects) ∧
          ∀ m ∈ r.messages, m.Fits a.room) ∧
      ((∃ written log, a.render r model stream = .ok (written, log)) ∨
        ∃ before m after, r.messages = before ++ m :: after ∧
          (∀ b ∈ before, b.HasObjects ∧ b.Fits a.room) ∧
          ((∃ cause, m.Stops a.room before.length (.fault ⟨.toolCalls before.length, cause⟩) ∧
              (a.render r model stream).mapError Failure.ofObjection =
                .error (.validation cause.message
                  (some s!"messages[{before.length}].tool_calls") none)) ∨
            (m.Stops a.room before.length .tooDeep ∧
              (a.render r model stream).mapError Failure.ofObjection =
                .error (.outside .tooDeep))))) := by
  have hr := accepted_of_validate hr
  refine ⟨fun ha => ?_, fun ha => ?_⟩
  · rw [Adapter.render, ha]
    exact ⟨_, _, rfl⟩
  obtain ⟨hwrites, hstops⟩ := render_of_turns ha hr model stream
  rcases @Progress.addAll_cases [] {} _ hr.messages htexts a.room with
    ⟨hall, p, hp⟩ | ⟨before, m, after, o, hsplit, hbefore, hm, hstop⟩
  · refine ⟨⟨fun _ => ?_, fun _ => hwrites p hp⟩, .inl (hwrites p hp)⟩
    exact ⟨fun m hm _ => (hall m hm).1, fun m hm => (hall m hm).2⟩
  · have hrender := hstops _ hstop
    have hmem : m ∈ r.messages := by
      rw [show r.messages = before ++ m :: after from hsplit]
      exact List.mem_append_cons_self
    refine ⟨⟨?_, ?_⟩, .inr ⟨before, m, after, hsplit, hbefore, ?_⟩⟩
    · rintro ⟨written, log, hwritten⟩
      exact absurd (hrender.symm.trans hwritten) (by simp)
    · rintro ⟨hobjects, hfits⟩
      rcases failure_of_stops hm with rfl | ⟨cause, rfl, -⟩
      · exact absurd (hfits m hmem) (not_fits_of_stops hm)
      · obtain ⟨hby, hnone⟩ := not_hasObjects_of_stops hm
        exact absurd (hobjects m hmem hby) hnone
    · rw [hrender]
      rcases failure_of_stops hm with rfl | ⟨cause, rfl, hfailure⟩
      · exact .inr ⟨hm, rfl⟩
      · exact .inl ⟨cause, hm, congrArg Except.error hfailure⟩

/-- A conversation in which the second call of the last message has a list for arguments. -/
def listArguments : Request :=
  { messages := [
      { role := .text "system", content := .text "Be brief." },
      { role := .text "user", content := .text "Hi" },
      { role := .text "assistant", toolCalls := [
        { id := .text "c1", name := .text "f", arguments := .text "" },
        { id := .text "c2", name := .text "f", arguments := .text "[]" }] }] }

theorem fits_listArguments : ∀ m ∈ listArguments.messages, m.Fits 960 := by
  intro m hm
  simp only [listArguments, List.mem_cons, List.not_mem_nil, or_false] at hm
  rcases hm with rfl | rfl | rfl
  · exact (writable_of_silent rfl rfl 960).2
  · exact (writable_of_silent rfl rfl 960).2
  · refine ⟨?_, fun hby => absurd hby (by decide)⟩
    intro c hc s hs
    simp only [List.mem_cons, List.not_mem_nil, or_false] at hc
    rcases hc with rfl | rfl
    · obtain rfl := Json.text.inj hs
      rfl
    · obtain rfl := Json.text.inj hs
      rfl

/-- For Groq it is written; for Gemini it is not, and the place counts the system's message. -/
theorem render_listArguments :
    let a : Adapter := { provider := .groq, credential := ⟨"groq", "k"⟩, baseUrl := "https://x" }
    let b : Adapter :=
      { provider := .gemini, credential := ⟨"gemini", "k"⟩, baseUrl := "https://x" }
    listArguments.validate = .ok () ∧
      (∃ written log, a.render listArguments "m" false = .ok (written, log)) ∧
      (∃ message, (b.render listArguments "m" false).mapError Failure.ofObjection =
        .error (.validation message (some "messages[2].tool_calls") none)) := by
  intro a b
  have hr : listArguments.validate = .ok () := rfl
  have htexts : ∀ m ∈ listArguments.messages, m.HasTexts := by
    simp [listArguments, RequestMessage.HasTexts]
  have hread : Json.read? "[]" = some (.list []) := by cbv
  have hlist : RequestCall.Offends
      { id := .text "c2", name := .text "f", arguments := .text "[]" }
      (.argumentsNotObject (.text "c2")) := .notObject rfl (by simp) hread rfl
  obtain ⟨hgroq, -⟩ := render_of_validate hr htexts a "m" false
  obtain ⟨-, hgemini⟩ := render_of_validate hr htexts b "m" false
  refine ⟨hr, hgroq rfl, ?_⟩
  obtain ⟨hiff, hcases⟩ := hgemini rfl
  rcases hcases with hwritten | ⟨before, m, after, hsplit, -, ⟨cause, hm, hrender⟩ | ⟨hm, -⟩⟩
  · have hobjects := (hiff.mp hwritten).1 _ (List.mem_of_getLast? rfl) rfl
    exact absurd (hobjects _ (List.mem_of_getLast? rfl)) (not_hasObject_of_offends hlist)
  · have hby := (not_hasObjects_of_stops hm).1
    -- of the three messages the last one is the assistant's
    obtain ⟨first, second, rfl⟩ : ∃ first second, before = [first, second] := by
      rcases before with _ | ⟨first, _ | ⟨second, _ | ⟨third, before⟩⟩⟩
      · obtain ⟨rfl, -⟩ := List.cons.inj hsplit
        exact absurd hby (by decide)
      · obtain ⟨-, htail⟩ := List.cons.inj hsplit
        obtain ⟨rfl, -⟩ := List.cons.inj htail
        exact absurd hby (by decide)
      · exact ⟨first, second, rfl⟩
      · have hlength := congrArg List.length hsplit
        exact absurd hlength (by simp [listArguments])
    have hpath : s!"messages[{2}].tool_calls" = "messages[2].tool_calls" := by decide
    rw [show [first, second].length = 2 from rfl, hpath] at hrender
    exact ⟨cause.message, hrender⟩
  · have hmem : m ∈ listArguments.messages := hsplit.symm ▸ List.mem_append_cons_self
    exact absurd (fits_listArguments m hmem) (not_fits_of_stops hm)

theorem hasObjects_errand (report : String) : ∀ m ∈ (errand report).messages, m.HasObjects := by
  have hread : Json.read? "\x7b\x7d" = some (.object []) := by cbv
  simp [errand, RequestMessage.HasObjects, RequestCall.HasObject, hread]

/-- A result of so many opening brackets is one that a tool may give. All arguments are objects, and
yet the next request is not written, and the failure is none of validation's. -/
theorem render_deepReport :
    let b : Adapter :=
      { provider := .gemini, credential := ⟨"gemini", "k"⟩, baseUrl := "https://x" }
    let r := errand (String.ofList (List.replicate 20000 '['))
    r.validate = .ok () ∧ (∀ m ∈ r.messages, m.HasObjects) ∧
      (b.render r "m" false).mapError Failure.ofObjection = .error (.outside .tooDeep) := by
  intro b r
  have hr : r.validate = .ok () := errand_validate _
  have hobjects : ∀ m ∈ r.messages, m.HasObjects := hasObjects_errand _
  refine ⟨hr, hobjects, ?_⟩
  have hdeep : Json.overruns b.room (String.ofList (List.replicate 20000 '[')) = true :=
    Json.overruns_brackets (by decide)
  rcases render_of_hasObjects (a := b) rfl (accepted_of_validate hr) hobjects "m" false with
    ⟨hfits, -⟩ | ⟨-, hrender⟩
  · have hreport := (hfits _ (List.mem_of_getLast? rfl)).report rfl _ rfl
    exact absurd (hdeep.symm.trans hreport) (by simp)
  · rw [hrender]
    rfl

end ChatClient
