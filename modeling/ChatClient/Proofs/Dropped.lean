import ChatClient.Proofs.CallRun
import ChatClient.Proofs.Framing
import ChatClient.Proofs.Relay
import ChatClient.Proofs.SideBySide

/-!
# Streams that break off

When the network breaks off a stream its bytes are a beginning of those that were to come. Lines
are only handed on when their end has come, and events when an empty line has; what is begun and
not finished is dropped with the connection. So each layer hands on a beginning of what it would
have handed on, and the chunks are a beginning of the chunks.

The call then fails for the break, unless it has come to its end before: a chunk was the last one,
or an event could not be read. In that case it does not see the break, and it is the call on the
whole stream.
-/

namespace ChatClient

/-! ## Receiving -/

/-- Of a body in UTF-8 that breaks off, the lines that its bytes complete are received. -/
theorem receive_dropped {limit : Number} {f : NetworkFault} {message : String} {ps : List Piece}
    (hps : ∀ p ∈ ps, ∃ bs, p = .bytes bs) {r : LineReader} (hr : ∃ s, r.decoding = .utf8 s)
    (d : Deadline) :
    receive limit (.fault f message) r d ps =
      { lines := (r.feed (ps.flatMap Piece.toBytes)).2
        failure := some (streamReading.failure limit (.fault f message)) } := by
  induction ps generalizing r d with
  | nil => rfl
  | cons p ps ih =>
      obtain ⟨⟨bs, rfl⟩, hrest⟩ := List.forall_mem_cons.mp hps
      obtain ⟨s, hs⟩ := hr
      have hnext : (r.feed bs).1.decoding = .utf8 (Text.Utf8.scan s bs).1 := by
        simp only [LineReader.feed, hs, Text.Charset.scan_utf8]
      rw [receive, List.flatMap_cons, Piece.toBytes, LineReader.feed_append]
      simp only [hnext, Text.Charset.State.isRefused, Bool.false_eq_true, if_false]
      rw [ih hrest ⟨_, hnext⟩]
      rfl

/-- An answer of success in UTF-8 that comes whole, and the same answer where the network fails
with `f` after a beginning of the bytes, which is cut into pieces anywhere. -/
structure BreaksOff (f : NetworkFault) (whole cut : Answer) : Prop where
  succeeds : whole.succeeds = true
  charset : MediaType.charset ((Headers.joined whole.headers).value? "content-type") = .utf8
  complete : whole.ending = .complete
  pieces : ∀ p ∈ whole.pieces, ∃ bs, p = .bytes bs
  status : cut.status = whole.status
  headers : cut.headers = whole.headers
  breaks : ∃ message, cut.ending = .fault f message
  cutPieces : ∀ p ∈ cut.pieces, ∃ bs, p = .bytes bs
  beginning : cut.bytes <+: whole.bytes
  /-- The failure is one of the network, and not one of what has come. -/
  fault : f.nature ≠ .neither

theorem BreaksOff.cut_succeeds {f : NetworkFault} {whole cut : Answer} (h : BreaksOff f whole cut) :
    cut.succeeds = true := by
  rw [Answer.succeeds, h.status]
  exact h.succeeds

/-- The payloads of a stream that breaks off are a beginning of those of the whole stream. -/
theorem BreaksOff.payloads {f : NetworkFault} {whole cut : Answer} (h : BreaksOff f whole cut)
    (limit : Number) :
    let r := ({ answer := cut, limit } : OpenStream).reception
    let r' := ({ answer := whole, limit } : OpenStream).reception
    (∃ message, r.failure = some (streamReading.failure limit (.fault f message))) ∧
      Adapter.payloads r <+: Adapter.payloads r' := by
  intro r r'
  obtain ⟨message, hbreaks⟩ := h.breaks
  obtain ⟨rest, hrest⟩ := h.beginning
  obtain ⟨start, hstart⟩ : ∃ start : LineReader, start = { decoding := Text.Charset.utf8.start } :=
    ⟨_, rfl⟩
  have hutf8 : ∃ s, start.decoding = .utf8 s := ⟨_, by rw [hstart]; rfl⟩
  have hcut : r = receive limit (.fault f message) start { limit } cut.pieces := by
    rw [hstart, ← h.charset, ← hbreaks, ← h.headers]
    rfl
  have hwhole : r' = receive limit .complete start { limit } whole.pieces := by
    rw [hstart, ← h.charset, ← h.complete]
    rfl
  have hnone : r'.failure = none := by
    rw [hwhole]
    exact failure_receive h.pieces hutf8 _
  have hlines : r'.lines = (start.feed cut.bytes).2 ++ (start.feed cut.bytes).1.linesOf rest := by
    rw [hwhole] at hnone ⊢
    rw [lines_receive hnone, ← LineReader.linesOf_append, hrest]
    rfl
  rw [receive_dropped h.cutPieces hutf8] at hcut
  refine ⟨⟨message, by rw [hcut]⟩, ?_⟩
  simp only [Adapter.payloads, hcut, hnone, hlines]
  rw [Event.payloads_eq, Event.payloadsFrom, Event.scan_append, List.append_assoc]
  exact List.prefix_append _ _

/-! ## Chunks -/

/-- Chunks that came to an end by themselves, with the last one or with a failure. -/
def Yields.Settled (y : Yields Chunk) : Prop :=
  (∃ c l, y.items.getLast? = some (c, l) ∧ c.done = true) ∨ ∃ f, y.result = .error f

namespace Adapter

variable (a : Adapter)

/-- **The chunks of a beginning.** They are those of all payloads where they come to an end by
themselves, and otherwise a beginning of them. -/
theorem chunksOf_append (e e' : Except Failure Unit) (ps qs : List String) (l : Ledger) :
    (a.chunksOf e ps l = a.chunksOf e' (ps ++ qs) l ∧ (a.chunksOf e ps l).Settled) ∨
      ((a.chunksOf e ps l).result = e ∧
        (a.chunksOf e ps l).items <+: (a.chunksOf e' (ps ++ qs) l).items) := by
  induction ps generalizing l with
  | nil => exact .inr ⟨rfl, List.nil_prefix⟩
  | cons p ps ih =>
      rw [List.cons_append, chunksOf, chunksOf]
      obtain ⟨read, l⟩ := (a.readEvent p).run l
      cases read with
      | error f => exact .inl ⟨rfl, .inr ⟨f, rfl⟩⟩
      | ok chunk? =>
          cases chunk? with
          | none => exact ih l
          | some c =>
              dsimp only
              by_cases hdone : c.done = true
              · rw [if_pos hdone, if_pos hdone]
                exact .inl ⟨rfl, .inl ⟨c, l, rfl, hdone⟩⟩
              · rw [if_neg hdone, if_neg hdone]
                rcases ih l with ⟨hsame, hsettled⟩ | ⟨hresult, hprefix⟩
                · refine .inl ⟨by rw [hsame], ?_⟩
                  rcases hsettled with ⟨d, l', hlast, hd⟩ | hfailed
                  · refine .inl ⟨d, l', ?_, hd⟩
                    rw [List.getLast?_cons, hlast]
                    rfl
                  · exact .inr hfailed
                · exact .inr ⟨hresult, List.cons_prefix_cons.mpr ⟨rfl, hprefix⟩⟩

/-- The failure of a call whose stream the network breaks off. -/
def brokenOff (limit : Number) (f : NetworkFault) : Failure :=
  if f.nature = .time then
    .timeout ("Stream read timed out after " ++ limitText limit) (some limit)
  else
    .interrupted (a.name ++ " stream dropped before its terminal marker")
      (some "The connection closed mid-stream; retry the request.")

theorem midStream_fault {f : NetworkFault} (hf : f.nature ≠ .neither) (limit : Number)
    (message : String) :
    a.midStream (streamReading.failure limit (.fault f message)) = a.brokenOff limit f := by
  rw [Phase.failure, brokenOff]
  cases hn : f.nature with
  | time =>
      rw [if_pos rfl]
      rfl
  | connection =>
      rw [if_neg (by simp)]
      rfl
  | neither => exact absurd hn hf

/-- The chunks of a stream that breaks off, and those of the whole stream. -/
theorem chunks_cut {f : NetworkFault} {whole cut : Answer} (h : BreaksOff f whole cut)
    (limit : Number) (l : Ledger) :
    let y := a.chunks { answer := cut, limit } l
    let y' := a.chunks { answer := whole, limit } l
    (y = y' ∧ y.Settled) ∨
      (y.result = .error (a.brokenOff limit f) ∧ y.items <+: y'.items) := by
  obtain ⟨⟨message, hfailure⟩, rest, hrest⟩ := h.payloads limit
  simp only [chunks, ← hrest, receptionEnd, hfailure, a.midStream_fault h.fault]
  exact a.chunksOf_append _ _ _ rest l

end Adapter

/-! ## The generator -/

theorem Yields.items_generator {α β : Type} (y : Yields α) (o : Outcome β) :
    (y.generator o).items = y.items.map (·.1) := by
  obtain ⟨items, result, ledger⟩ := y
  induction items with
  | nil => rfl
  | cons item items ih => exact congrArg (item.1 :: ·) ih

theorem Yields.finish_generator {α β : Type} (y : Yields α) (o : Outcome β) :
    (y.generator o).finish = { o with result := y.result, ledger := y.ledger } := by
  obtain ⟨items, result, ledger⟩ := y
  induction items with
  | nil => rfl
  | cons item items ih => exact ih

namespace Adapter

variable (a : Adapter) (c : Config) (now : Float) (server : Server) (r : Request) (l : Ledger)

/-- A stream that cannot be opened hands out nothing. -/
theorem stream_unopened {f : Failure}
    (h : (a.openStream c now server r l).result = .error f) :
    (a.stream c now server r l).items = [] ∧
      (a.stream c now server r l).finish.result = .error f := by
  unfold stream
  dsimp only
  rw [h]
  exact ⟨rfl, rfl⟩

/-- An open stream hands out its chunks. -/
theorem stream_opened {s : OpenStream} (h : (a.openStream c now server r l).result = .ok s) :
    let y := a.chunks s (a.openStream c now server r l).ledger
    (a.stream c now server r l).items = y.items.map (·.1) ∧
      (a.stream c now server r l).finish.result = y.result := by
  unfold stream
  dsimp only
  rw [h]
  dsimp only
  rw [Generator.items_ensuring, Generator.finish_ensuring, Yields.items_generator,
    Yields.finish_generator]
  exact ⟨rfl, rfl⟩

end Adapter

/-! ## Opening -/

/-- A reply that begins no answer of success within a limit. -/
def Reply.Unsuccessful (limit : Number) (reply : Reply) : Prop :=
  ∀ d answer, reply.begin { limit } = .ok (d, answer) → answer.succeeds = false

/-- A server that gives some replies and then another one. -/
def Server.ending (before : List Reply) (last : Reply) : Server := ⟨before ++ [last]⟩

/-- A reply of such a server is one of those before, or the last one. -/
theorem Server.reply_ending (before : List Reply) (k : Nat) :
    (∃ reply ∈ before, ∀ last, (ending before last).reply k = reply) ∨
      ∀ last, (ending before last).reply k = last := by
  rcases Nat.lt_trichotomy k before.length with hk | rfl | hk
  · refine .inl ⟨before[k], List.getElem_mem hk, fun last => ?_⟩
    rw [reply, ending, List.getElem?_append_left hk, List.getElem?_eq_getElem hk]
    rfl
  · refine .inr fun last => ?_
    rw [reply, ending, List.getElem?_concat_length]
    rfl
  · refine .inr fun last => ?_
    rw [reply, ending, List.getElem?_eq_none (by simp; omega), List.getLast?_concat]
    rfl

section

variable {before : List Reply} {whole cut : Answer} {limit : Number}

/-- The open streams of two answers. -/
def Streams (limit : Number) (whole cut : Answer) (s s' : OpenStream) : Prop :=
  s = { answer := whole, limit } ∧ s' = { answer := cut, limit }

/-- Opening a stream does not look at the body of an answer of success. -/
theorem openStream_alike (hbefore : ∀ reply ∈ before, reply.Unsuccessful limit)
    (hwhole : whole.succeeds = true) (hcut : cut.succeeds = true) (wire : WireRequest)
    (wait : Number) (k : Nat) :
    FailAlike (Streams limit whole cut)
      (openStream wire limit ((Server.ending before (.answer wait whole)).reply k)).result
      (openStream wire limit ((Server.ending before (.answer wait cut)).reply k)).result := by
  rcases Server.reply_ending before k with ⟨reply, hmem, hreply⟩ | hreply
  · rw [hreply, hreply]
    -- no stream is opened by this reply
    have hfails : ∃ f, (openStream wire limit reply).result = .error f := by
      unfold openStream
      split
      · exact ⟨_, rfl⟩
      · split
        · exact ⟨_, rfl⟩
        · next d a hbegun =>
          rw [if_neg (by rw [hbefore reply hmem d a hbegun]; exact Bool.false_ne_true)]
          cases a.bodyAtLast with
          | error f => exact ⟨f, rfl⟩
          | ok body => exact ⟨_, rfl⟩
    obtain ⟨f, hf⟩ := hfails
    rw [hf]
    exact .error f
  · rw [hreply, hreply]
    unfold openStream
    cases wire.encode with
    | error f => exact .error f
    | ok sent =>
        dsimp only [Reply.begin]
        cases ({ limit } : Deadline).wait wait with
        | error i => exact .error _
        | ok d =>
            simp only [Except.map, hwhole, hcut, if_true]
            exact .ok ⟨rfl, rfl⟩

theorem Adapter.openStream_alike (hbefore : ∀ reply ∈ before, reply.Unsuccessful limit)
    (hwhole : whole.succeeds = true) (hcut : cut.succeeds = true) (a : Adapter)
    {c : Config} (hc : c.timeout = limit) (now : Float) (wait : Number) (r : Request)
    (l : Ledger) :
    let o := a.openStream c now (.ending before (.answer wait whole)) r l
    let o' := a.openStream c now (.ending before (.answer wait cut)) r l
    FailAlike (Streams limit whole cut) o.result o'.result ∧ o.ledger = o'.ledger := by
  unfold openStream
  dsimp only
  split
  · exact ⟨.error _, rfl⟩
  · next wire l' _ =>
    have hexchange k := (ChatClient.openStream_alike hbefore hwhole hcut wire wait k).mapError
      (a.classified now)
    rw [← hc] at hexchange ⊢
    obtain ⟨hresult, -, hledger⟩ := attempt_sameWay c now hexchange l'
    exact ⟨hresult, hledger⟩

end

/-! ## The call -/

theorem Transport.ending_error (t : Transport) (f : Failure) :
    ∃ e, t.ending (.error f) = .error e := by
  unfold ending
  split
  · exact ⟨_, rfl⟩
  · exact ⟨f, rfl⟩

/-- A call that shows a beginning of another one, and ends with the break unless it has come to
its end before. -/
inductive ShowsBeginning (broken : Except Failure StreamEnd → Prop)
    (cut full : StreamOutcome Chunk StreamEnd) : Prop
  | broken (hitems : cut.items <+: full.items) (hresult : broken cut.result)
  /-- The break is not seen: the last chunk says that it is the last, or both calls fail alike. -/
  | before (hitems : cut.items = full.items) (hresult : cut.result = full.result)
    (hend : (∃ chunk, cut.items.getLast? = some chunk ∧ chunk.done = true) ∨
      ∃ e, cut.result = .error e)

/--
**A stream that breaks off shows a beginning of the whole stream.**

A server gives some replies without success and then an answer of success, which comes whole or
breaks off somewhere. The chunks of the stream that breaks off are a beginning of those of the
whole stream. The call fails for the break, unless it has come to its end before: then its chunks
and its result are those of the call on the whole stream.
-/
theorem streamChunks_showsBeginning (s : Session) (selector : Selector) (c : Config) (r : Request)
    (l : Ledger) {before : List Reply} (hbefore : ∀ reply ∈ before, reply.Unsuccessful c.timeout)
    {f : NetworkFault} {whole cut : Answer} (h : BreaksOff f whole cut) (wait : Number) :
    let call (answer : Answer) :=
      { s with server := .ending before (.answer wait answer) }.streamChunks selector c r none l
    ShowsBeginning
      (fun result => ∃ a, selector.resolve s.environment c = .ok a ∧
        result = s.transport.ending (.error (a.brokenOff c.timeout f)))
      (call cut) (call whole) := by
  intro call
  cases hresolve : selector.resolve s.environment c with
  | error e =>
      have hcall (answer : Answer) : call answer = { result := .error e, ledger := l } :=
        generate_refused { s with server := _ } l _ hresolve
      rw [hcall, hcall]
      exact .before rfl rfl (.inr ⟨e, rfl⟩)
  | ok a =>
      have hcall (answer : Answer) :
          let g := a.stream c s.now (.ending before (.answer wait answer)) r l
          (call answer).items = g.items ∧
            (call answer).result = s.transport.ending g.finish.result := by
        have hcall : call answer = _ := generate_resolved { s with server := _ } l _ hresolve
        rw [hcall]
        exact ⟨rfl, Outcome.closeTransport_ending _ _⟩
      obtain ⟨hitems, hresult⟩ := hcall cut
      obtain ⟨hitems', hresult'⟩ := hcall whole
      obtain ⟨halike, hledger⟩ :=
        a.openStream_alike hbefore h.succeeds h.cut_succeeds rfl s.now wait r l
      cases hopen : (a.openStream c s.now (.ending before (.answer wait whole)) r l).result with
      | error e =>
          obtain ⟨hnone, hend⟩ := a.stream_unopened c s.now _ r l (halike.fails hopen)
          obtain ⟨hnone', hend'⟩ := a.stream_unopened c s.now _ r l hopen
          rw [hnone] at hitems
          rw [hnone'] at hitems'
          rw [hend] at hresult
          rw [hend'] at hresult'
          obtain ⟨e', he'⟩ := s.transport.ending_error e
          exact .before (hitems.trans hitems'.symm) (hresult.trans hresult'.symm)
            (.inr ⟨e', hresult.trans he'⟩)
      | ok stream =>
          obtain ⟨stream', hopen', rfl, rfl⟩ := halike.succeeds hopen
          obtain ⟨hchunks, hend⟩ := a.stream_opened c s.now _ r l hopen'
          obtain ⟨hchunks', hend'⟩ := a.stream_opened c s.now _ r l hopen
          rw [hchunks, ← hledger] at hitems
          rw [hchunks'] at hitems'
          rw [hend, ← hledger] at hresult
          rw [hend'] at hresult'
          rcases a.chunks_cut h c.timeout
            (a.openStream c s.now (.ending before (.answer wait whole)) r l).ledger with
            ⟨hsame, hsettled⟩ | ⟨hbroken, hprefix⟩
          · refine .before (by rw [hitems, hitems', hsame]) (by rw [hresult, hresult', hsame]) ?_
            rcases hsettled with ⟨chunk, l', hlast, hdone⟩ | ⟨e, he⟩
            · exact .inl ⟨chunk, by rw [hitems, List.getLast?_map, hlast]; rfl, hdone⟩
            · rw [hresult, he]
              exact .inr (s.transport.ending_error e)
          · refine .broken ?_ ⟨a, rfl, by rw [hresult, hbroken]⟩
            rw [hitems, hitems']
            exact hprefix.map _

/-- Two events, the second of them the last. -/
def greeting : String :=
  Event.sent ["\x7b\"choices\": [\x7b\"delta\": \x7b\"content\": \"Hi\"\x7d\x7d]\x7d", "[DONE]"]

/-- An answer with the first bytes of the greeting, which ends in some way. -/
def greetingAnswer (n : Nat) (ending : BodyEnd) : Answer :=
  { headers := [("Content-Type", "text/event-stream; charset=utf-8")]
    pieces := [.bytes ((Text.Utf8.encode greeting).take n)], ending }

theorem charset_greetingAnswer (n : Nat) (ending : BodyEnd) :
    MediaType.charset ((Headers.joined (greetingAnswer n ending).headers).value? "content-type") =
      .utf8 := by
  show MediaType.charset ((Headers.joined
    [("Content-Type", "text/event-stream; charset=utf-8")]).value? "content-type") = .utf8
  decide +kernel

/-- The chunks of an answer that a server gives when it is asked for the second time. -/
def greetingChunks (answer : Answer) : StreamOutcome Chunk StreamEnd :=
  { now := 0
    server := .ending [.fault (.int 0) .connectError "refused"] (.answer (.int 0) answer) :
      Session }.streamChunks (.given stranger) { patient with timeout := .int 60 } hello none {}

theorem breaksOff_greeting :
    BreaksOff .readError (greetingAnswer 65 .complete)
      (greetingAnswer 60 (.fault .readError "lost")) where
  succeeds := rfl
  charset := charset_greetingAnswer _ _
  complete := rfl
  pieces := List.forall_mem_singleton.mpr ⟨_, rfl⟩
  status := rfl
  headers := rfl
  breaks := ⟨_, rfl⟩
  cutPieces := List.forall_mem_singleton.mpr ⟨_, rfl⟩
  beginning := by
    simp only [greetingAnswer, Answer.bytes, List.flatMap_singleton, Piece.toBytes]
    exact List.take_prefix_take_left (by decide)
  fault := by decide

/-- The greeting breaks off within its second event. -/
theorem streamChunks_showsBeginning_greeting :
    ShowsBeginning
      (fun result => ∃ a, (Selector.given stranger).resolve [] patient = .ok a ∧
        result = Transport.shared.ending (.error (a.brokenOff (.int 60) .readError)))
      (greetingChunks (greetingAnswer 60 (.fault .readError "lost")))
      (greetingChunks (greetingAnswer 65 .complete)) := by
  have hbefore : ∀ reply ∈ [Reply.fault (.int 0) .connectError "refused"],
      reply.Unsuccessful (.int 60) := by
    refine List.forall_mem_singleton.mpr fun d answer hbegun => ?_
    exact absurd hbegun (by simp [Reply.begin, Deadline.wait, Number.lt, Number.zero])
  exact streamChunks_showsBeginning { now := 0, server := ⟨[]⟩ } (.given stranger)
    { patient with timeout := .int 60 } hello {} hbefore breaksOff_greeting (.int 0)

/-- Running out of time is a failure of the network too, but it is not called an interruption. -/
theorem timeout_breaks_off :
    NetworkFault.readTimeout.nature ≠ .neither ∧
      (greetingChunks (greetingAnswer 60 (.fault .readTimeout "late"))).items.map (·.done) =
        [false] ∧
      (greetingChunks (greetingAnswer 60 (.fault .readTimeout "late"))).result.mapError
        Failure.name = .error "Timeout" ∧
      (greetingChunks (greetingAnswer 65 .complete)).items.map (·.done) = [false, true] := by
  decide +kernel

end ChatClient
