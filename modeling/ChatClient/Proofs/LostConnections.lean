import ChatClient.Proofs.Dropped
import ChatClient.Proofs.SingleUse

/-!
# When a stream is called dropped

A stream that loses its connection is reported as dropped before its terminal marker. What a stream
is read up to is the last event, which only Groq has, and nothing else. A chunk with a finish reason
ends the response as well, but reading goes on after it, and a connection that is lost then is
reported like any other.

So a stream is called dropped when the connection is lost and each event before that could be read
and was not the last. It says that no chunk was marked as the last one. It does not say that no
chunk was terminal: those with a finish reason are.
-/

namespace ChatClient

/-! ## Failures that are no interruptions -/

/-- Whether a failure says that a stream was interrupted. -/
def Failure.isInterruption : Failure → Bool
  | .interrupted _ _ => true
  | _ => false

/-- A result that is not that a stream was interrupted. -/
def Uninterrupted {α : Type} (x : Except Failure α) : Prop :=
  ∀ f, x = .error f → f.isInterruption = false

namespace Uninterrupted

variable {α β : Type}

theorem ok (a : α) : Uninterrupted (.ok a : Except Failure α) := fun f h => absurd h (by simp)

theorem error {f : Failure} (hf : f.isInterruption = false) :
    Uninterrupted (.error f : Except Failure α) := by
  intro g h
  obtain rfl := Except.error.inj h
  exact hf

theorem bind {x : Except Failure α} {next : α → Except Failure β} (hx : Uninterrupted x)
    (hnext : ∀ a, Uninterrupted (next a)) : Uninterrupted (x.bind next) := by
  cases x with
  | error f => exact error (hx f rfl)
  | ok a => exact hnext a

end Uninterrupted

theorem Phase.failure_isInterruption (p : Phase) (limit : Number) (i : Interruption) :
    (p.failure limit i).isInterruption = false := by
  have hfault := p.failure_isFault limit i
  generalize p.failure limit i = f at hfault ⊢
  cases hfault <;> rfl

/-! ## Opening -/

theorem encode_uninterrupted (r : WireRequest) : Uninterrupted r.encode := by
  unfold WireRequest.encode
  split
  · exact .error rfl
  · split
    · exact .error rfl
    · split
      · exact .error rfl
      · exact .ok _

theorem bodyAtLast_uninterrupted (a : Answer) : Uninterrupted a.bodyAtLast := by
  unfold Answer.bodyAtLast
  cases a.ending with
  | complete => exact .ok _
  | fault f message => exact .error rfl
  | silence => exact .error rfl

theorem openStream_uninterrupted (r : WireRequest) (limit : Number) (reply : Reply) :
    Uninterrupted (openStream r limit reply).result := by
  unfold openStream
  cases hsent : r.encode with
  | error f => exact .error (encode_uninterrupted r f hsent)
  | ok sent =>
      dsimp only
      cases reply.begin { limit } with
      | error i => exact .error (streamOpening.failure_isInterruption limit i)
      | ok begun =>
          obtain ⟨d, a⟩ := begun
          by_cases ha : a.succeeds = true
          · simp only [if_pos ha]
            exact .ok _
          · simp only [if_neg ha]
            exact (bodyAtLast_uninterrupted a).bind fun body => .error rfl

theorem classified_uninterrupted (a : Adapter) (now : Float) {α : Type} {x : Except Failure α}
    (h : Uninterrupted x) : Uninterrupted (x.mapError (a.classified now)) := by
  cases x with
  | ok v => exact .ok v
  | error f =>
      have hf := h f rfl
      refine .error ?_
      cases f with
      | status message code headers body =>
          rcases classified_status a now message code headers body with ⟨s, -, hc⟩ | ⟨o, -, hc⟩
          · rw [hc]
            rfl
          · rw [hc]
            rfl
      | _ => first | rfl | exact hf

/-- The retry controller makes no interruption of what is none. -/
theorem RetryController.runFrom_uninterrupted {α : Type} {outcome : Nat → Except Failure α}
    (h : ∀ k, Uninterrupted (outcome k)) (left k : Nat) (c : RetryController) (l : Ledger) :
    Uninterrupted (runFrom outcome left k c l).result := by
  fun_induction runFrom outcome left k c l with
  | case1 left k c l c' a ho => exact .ok a
  | case2 left k c l c' f ho hcancel => exact .error (h k f ho)
  | case3 left k c l c' f ho hcancel hkind => exact .error (h k f ho)
  | case4 k c l c' f ho hcancel hkind c'' => exact .error rfl
  | case5 k c l c' f ho hcancel hkind left e hdelay =>
      rw [RetryPolicy.nextDelay_error hdelay]
      exact .error rfl
  | case6 k c l c' f ho hcancel hkind left delay l₁ hdelay c'' l₂ hslept => exact .error rfl
  | case7 k c l c' f ho hcancel hkind left delay l₁ hdelay c'' l₂ hslept ih => exact ih

theorem RetryController.run_uninterrupted {α : Type} {outcome : Nat → Except Failure α}
    (h : ∀ k, Uninterrupted (outcome k)) (c : RetryController) (l : Ledger) :
    Uninterrupted (c.run outcome l).result := by
  unfold run
  split
  · exact runFrom_uninterrupted h _ _ _ _
  · exact .error rfl

theorem Failure.ofObjection_isInterruption (e : Objection) :
    (Failure.ofObjection e).isInterruption = false := by
  cases e <;> rfl

/-- A request is refused, or it is written. -/
theorem Adapter.gives_prepare (a : Adapter) (r : Request) (model : String) (stream : Bool) :
    (a.prepare r model stream).Gives (fun f => f.isInterruption = false) (fun _ => True) := by
  unfold prepare
  intro l
  cases r.validate with
  | error e => exact Failure.ofObjection_isInterruption e
  | ok u =>
      cases a.render r model stream with
      | error e => exact Failure.ofObjection_isInterruption e
      | ok rendered => trivial

/-- A stream that is not open cannot be interrupted. -/
theorem Adapter.openStream_uninterrupted (a : Adapter) (c : Config) (now : Float) (server : Server)
    (r : Request) (l : Ledger) : Uninterrupted (a.openStream c now server r l).result := by
  unfold openStream
  dsimp only
  have hbegin := (a.gives_prepare r c.model true).bind (fun wire _ =>
    (Reading.gives_log .debug (openingLine a c.model r)).bind fun _ _ =>
      Reading.gives_pure (P := fun _ => True) (a := wire) trivial) l
  split
  · next f l' hrun =>
    rw [hrun] at hbegin
    exact .error hbegin
  · next wire l' hrun =>
    exact RetryController.run_uninterrupted (fun k => classified_uninterrupted a now
      (ChatClient.openStream_uninterrupted wire c.timeout _)) _ l'

/-! ## Receiving -/

/-- What breaks off a reception is a failure of the network, of time or of the character set. -/
theorem receive_uninterrupted {limit : Number} {ending : BodyEnd} {r : LineReader} {d : Deadline}
    {ps : List Piece} {f : Failure} (h : (receive limit ending r d ps).failure = some f) :
    f.isInterruption = false := by
  induction ps generalizing r d with
  | nil =>
      rw [receive] at h
      cases hreach : ending.reach d with
      | ok u =>
          simp only [hreach] at h
          exact absurd h (by simp)
      | error i =>
          simp only [hreach] at h
          obtain rfl := Option.some.inj h
          exact streamReading.failure_isInterruption limit i
  | cons p ps ih =>
      cases p with
      | wait seconds =>
          rw [receive] at h
          cases hwait : d.wait seconds with
          | ok d' =>
              simp only [hwait] at h
              exact ih h
          | error i =>
              simp only [hwait] at h
              obtain rfl := Option.some.inj h
              exact streamReading.failure_isInterruption limit i
      | bytes bs =>
          rw [receive] at h
          by_cases hrefused : (r.feed bs).1.decoding.isRefused = true
          · simp only [if_pos hrefused] at h
            obtain rfl := Option.some.inj h
            rfl
          · simp only [if_neg hrefused] at h
            exact ih h

/-! ## Events -/

namespace Adapter

variable (a : Adapter)

/-- What is reported when the connection of a stream is lost. -/
def dropped : Failure :=
  .interrupted (a.name ++ " stream dropped before its terminal marker")
    (some "The connection closed mid-stream; retry the request.")

/-- Of the failures of a reception, just lost connections are reported in that way. -/
theorem midStream_eq_dropped {f : Failure} (hf : f.isInterruption = false) :
    a.midStream f = a.dropped ↔ ∃ message hint, f = .connection message hint := by
  cases f with
  | connection message hint => exact iff_of_true rfl ⟨message, hint, rfl⟩
  | interrupted message hint => exact absurd hf (by simp [Failure.isInterruption])
  | _ =>
      refine iff_of_false (fun h => ?_) (fun ⟨message, hint, h⟩ => ?_)
      · exact absurd h (by simp [midStream, dropped])
      · exact absurd h (by simp)

/-- The payload of the event that ends a stream, in a service that sends one. -/
def IsLast (p : String) : Prop := a.provider = .groq ∧ Text.strip p = Groq.lastEvent

end Adapter

open Reading

/-- A failure that comes without advice. -/
def Unadvised (f : Failure) : Prop := f.hint? = none

theorem Reading.Gives.unadvised {α : Type} {p : Provider} {P : α → Prop} {m : Reading α}
    (h : m.Gives (IsMalformed p) P) : m.Gives Unadvised P :=
  h.weaken fun f ⟨message, hf⟩ => by rw [hf]; rfl

/-- A failure without advice, or what says that the stream has ended just if `last` holds. -/
def ReadsMarked (last : Prop) (m : Reading (Option Chunk)) : Prop :=
  m.Gives Unadvised fun o => o.any Chunk.done = true ↔ last

theorem readsMarked_of_unmarked {m : Reading (Option Chunk)}
    (h : m.Gives Unadvised fun o => ∀ c, o = some c → c.Known ∧ c.done = false) :
    ReadsMarked False m := by
  refine h.imp fun o ho => iff_of_false ?_ id
  cases o with
  | none => exact Bool.false_ne_true
  | some c => exact ne_true_of_eq_false (ho c rfl).2

/-- An event fails without advice, and the last one is marked. -/
theorem readEvent_readsMarked (a : Adapter) (data : String) :
    ReadsMarked (a.IsLast data) (a.readEvent data) := by
  unfold Adapter.readEvent Adapter.IsLast
  cases a.provider with
  | groq =>
      dsimp only
      unfold Groq.readEvent
      by_cases hlast : Text.strip data = Groq.lastEvent
      · rw [if_pos hlast]
        exact gives_pure (iff_of_true rfl ⟨rfl, hlast⟩)
      · rw [if_neg hlast]
        simp only [hlast, and_false]
        refine (gives_event .groq data).unadvised.bind fun v _ =>
          gives_reported (fun _ => rfl) ?_
        refine (gives_decode .groq _ v).unadvised.bind fun e _ => ?_
        exact readsMarked_of_unmarked (Groq.chunk?_known e)
  | gemini =>
      simp only [reduceCtorEq, false_and]
      unfold Gemini.readEvent
      refine (gives_event .gemini data).unadvised.bind fun v _ =>
        gives_reported (fun _ => rfl) ?_
      refine (gives_decode .gemini _ v).unadvised.bind fun g _ => ?_
      exact readsMarked_of_unmarked (Gemini.chunk?_known g)

theorem hint_of_readEvent {a : Adapter} {p : String} {l l' : Ledger} {f : Failure}
    (h : (a.readEvent p).run l = (.error f, l')) : f.hint? = none := by
  have hread := readEvent_readsMarked a p l
  rw [h] at hread
  exact hread

theorem done_of_readEvent {a : Adapter} {p : String} {l l' : Ledger} {o : Option Chunk}
    (h : (a.readEvent p).run l = (.ok o, l')) : o.any Chunk.done = true ↔ a.IsLast p := by
  have hread := readEvent_readsMarked a p l
  rw [h] at hread
  exact hread

/-! ## Payloads that are all read -/

/-- Payloads that can be read one after the other, none of them the last, and the chunks that they
give. -/
inductive ReadsOn (a : Adapter) : List String → Ledger → List Chunk → Prop
  | nil {l : Ledger} : ReadsOn a [] l []
  | event {p : String} {ps : List String} {l l' : Ledger} {o : Option Chunk} {cs : List Chunk}
    (hlast : ¬ a.IsLast p) (h : (a.readEvent p).run l = (.ok o, l')) (hrest : ReadsOn a ps l' cs) :
    ReadsOn a (p :: ps) l (o.toList ++ cs)

section

variable {a : Adapter} {ps : List String} {l : Ledger} {cs : List Chunk}

/-- None of their chunks is marked as the last. -/
theorem ReadsOn.done (h : ReadsOn a ps l cs) : ∀ c ∈ cs, c.done = false := by
  induction h with
  | nil => exact fun c hc => absurd hc List.not_mem_nil
  | @event p ps l l' o cs hlast h hrest ih =>
      have hdone := eq_false_of_ne_true (mt (done_of_readEvent h).mp hlast)
      cases o with
      | none => exact ih
      | some c => exact List.forall_mem_cons.mpr ⟨hdone, ih⟩

/-- Such payloads give all their chunks, and then the stream ends as it has to. -/
theorem ReadsOn.chunksOf (h : ReadsOn a ps l cs) (ending : Except Failure Unit) :
    (a.chunksOf ending ps l).items.map (·.1) = cs ∧ (a.chunksOf ending ps l).result = ending := by
  induction h with
  | nil => exact ⟨rfl, rfl⟩
  | @event p ps l l' o cs hlast h hrest ih =>
      have hdone := mt (done_of_readEvent h).mp hlast
      rw [Adapter.chunksOf, h]
      cases o with
      | none => exact ih
      | some c =>
          rw [Option.any_some] at hdone
          simp only [if_neg hdone]
          exact ⟨congrArg (c :: ·) ih.1, ih.2⟩

/-- Other payloads have one that ends the stream: it is the last, or it fails. -/
theorem readsOn_or_ends (ending : Except Failure Unit) (ps : List String) (l : Ledger) :
    (∃ cs, ReadsOn a ps l cs) ∨ (a.chunksOf ending ps l).result = .ok () ∨
      ∃ f, f.hint? = none ∧ (a.chunksOf ending ps l).result = .error f := by
  induction ps generalizing l with
  | nil => exact .inl ⟨[], .nil⟩
  | cons p ps ih =>
      rw [Adapter.chunksOf]
      cases hread : (a.readEvent p).run l with
      | mk read l' =>
          cases read with
          | error f => exact .inr (.inr ⟨f, hint_of_readEvent hread, rfl⟩)
          | ok o =>
              by_cases hlast : a.IsLast p
              · have hmarked := (done_of_readEvent hread).mpr hlast
                cases o with
                | none => exact absurd hmarked Bool.false_ne_true
                | some c =>
                    rw [Option.any_some] at hmarked
                    simp only [if_pos hmarked]
                    exact .inr (.inl trivial)
              · have hall : (∃ cs, ReadsOn a ps l' cs) → ∃ cs, ReadsOn a (p :: ps) l cs := by
                  rintro ⟨cs, hcs⟩
                  exact ⟨_, .event hlast hread hcs⟩
                have hdone := mt (done_of_readEvent hread).mp hlast
                cases o with
                | none => exact (ih l').imp_left hall
                | some c =>
                    rw [Option.any_some] at hdone
                    simp only [if_neg hdone]
                    exact (ih l').imp_left hall

end

/-! ## The call -/

/-- The connection of an open stream is lost after payloads that are all read, and give the chunks
`cs`. -/
structure LostAfter (a : Adapter) (s : OpenStream) (l : Ledger) (cs : List Chunk) : Prop where
  lost : ∃ message hint, s.reception.failure = some (.connection message hint)
  reads : ReadsOn a (Adapter.payloads s.reception) l cs

namespace Adapter

variable (a : Adapter)

/-- A reception that breaks off is called dropped just if its connection is lost. -/
theorem receptionEnd_eq_dropped (s : OpenStream) : a.receptionEnd s.reception = .error a.dropped ↔
    ∃ message hint, s.reception.failure = some (.connection message hint) := by
  rw [receptionEnd]
  cases hfailure : s.reception.failure with
  | none => simp
  | some f => simp [a.midStream_eq_dropped (receive_uninterrupted hfailure)]

theorem chunks_dropped_iff (s : OpenStream) (l : Ledger) :
    (a.chunks s l).result = .error a.dropped ↔
      LostAfter a s l ((a.chunks s l).items.map (·.1)) := by
  constructor
  · intro h
    rcases readsOn_or_ends (a.receptionEnd s.reception) (payloads s.reception) l with
      ⟨cs, hcs⟩ | hend | ⟨f, hf, hend⟩
    · obtain ⟨hitems, hresult⟩ := hcs.chunksOf (a.receptionEnd s.reception)
      exact ⟨(a.receptionEnd_eq_dropped s).mp (hresult.symm.trans h), hitems ▸ hcs⟩
    · exact absurd (h.symm.trans hend) (by simp)
    · -- what a payload fails with has no advice
      obtain rfl := Except.error.inj (h.symm.trans hend)
      exact absurd hf (by simp [dropped, Failure.hint?])
  · rintro ⟨hlost, hreads⟩
    exact (hreads.chunksOf _).2.trans ((a.receptionEnd_eq_dropped s).mpr hlost)

/-- A stream that is called dropped was opened before. -/
theorem stream_dropped_iff_lostAfter (c : Config) (now : Float) (server : Server) (r : Request)
    (l : Ledger) : (a.stream c now server r l).finish.result = .error a.dropped ↔
      ∃ s, (a.openStream c now server r l).result = .ok s ∧
        LostAfter a s (a.openStream c now server r l).ledger (a.stream c now server r l).items := by
  cases hopened : (a.openStream c now server r l).result with
  | error f =>
      have hend := (a.stream_unopened c now server r l hopened).2
      have hf : f.isInterruption = false := a.openStream_uninterrupted c now server r l f hopened
      refine iff_of_false (fun h => ?_) (fun ⟨s, hs, _⟩ => absurd hs (by simp))
      obtain rfl := Except.error.inj (hend.symm.trans h)
      exact absurd hf (by simp [dropped, Failure.isInterruption])
  | ok s =>
      obtain ⟨hitems, hend⟩ := a.stream_opened c now server r l hopened
      rw [hend, hitems, a.chunks_dropped_iff]
      constructor
      · exact fun hlost => ⟨s, rfl, hlost⟩
      · rintro ⟨s', hs, hlost⟩
        obtain rfl := Except.ok.inj hs
        exact hlost

end Adapter

/--
**When a stream is called dropped.**

A stream ends as dropped exactly when it was opened, its connection was lost, and each payload that
came before could be read and was not the last. Then none of the chunks that are handed out is
marked as the last, and those that are terminal are the ones with a finish reason.
-/
theorem stream_dropped_iff (a : Adapter) (c : Config) (now : Float) (server : Server) (r : Request)
    (l : Ledger) :
    let opened := a.openStream c now server r l
    let stream := a.stream c now server r l
    (stream.finish.result = .error a.dropped ↔
      ∃ s, opened.result = .ok s ∧ LostAfter a s opened.ledger stream.items) ∧
    (stream.finish.result = .error a.dropped → ∀ chunk ∈ stream.items,
      chunk.done = false ∧ chunk.isTerminal = chunk.finishReason.isSome) := by
  intro opened stream
  have hiff := a.stream_dropped_iff_lostAfter c now server r l
  refine ⟨hiff, fun hdropped chunk hchunk => ?_⟩
  obtain ⟨s, -, hlost⟩ := hiff.mp hdropped
  have hdone : chunk.done = false := hlost.reads.done chunk hchunk
  exact ⟨hdone, by rw [Chunk.isTerminal, hdone, Bool.false_or]⟩

/-- An event with a finish reason. -/
def farewell : String :=
  "\x7b\"choices\": [\x7b\"delta\": \x7b\x7d, \"finish_reason\": \"stop\"\x7d]\x7d"

/-- A stream whose connection is lost after its finish reason. -/
def finishedThenLost : Answer :=
  { headers := [("Content-Type", "text/event-stream; charset=utf-8")]
    pieces := [.bytes (Text.Utf8.encode (Event.sent [farewell]))]
    ending := .fault .readError "lost" }

/-- A stream that has shown its terminal chunk is called dropped before its terminal marker. -/
theorem dropped_after_finish :
    let stream := stranger.stream patient 0 ⟨[.answer (.int 0) finishedThenLost]⟩ hello {}
    stream.items.map Chunk.isTerminal = [true] ∧
      stream.finish.result.mapError (fun f => (f.name, f.message?)) =
        .error ("StreamInterrupted", some "groq stream dropped before its terminal marker") := by
  decide +kernel

end ChatClient
