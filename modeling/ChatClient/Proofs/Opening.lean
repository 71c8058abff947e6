import ChatClient.Stream.Reception
import Mathlib.Tactic.SplitIfs

/-!
# Opening a stream

An answer of success is opened as a stream as soon as it begins.

An answer without success is a failure, whether a request is sent to be answered whole or its
answer is opened as a stream. Until the answer begins the two ways fail alike, in words of their
own. After that they read the body of the answer, to put it into the failure, and there they
part: sending does so within its limit and puts a fault into its own words, opening a stream
waits as long as it takes and hands a fault on as it is.

So opening a stream fails in the class in which sending fails exactly when sending has neither run
out of time nor lost its connection. Where it has, which would be worth another attempt, the
stream fails in some other class, which is none of a transient failure: with the fault as it is, or
with an answer that came too late, and whose status decides then.
-/

namespace ChatClient

/-- A request whose answer begins in time, and is one of success, opens a stream. -/
theorem result_openStream {r : WireRequest} {sent : SentRequest} (hsent : r.encode = .ok sent)
    {limit wait : Number} {d : Deadline} (hbegun : ({ limit } : Deadline).wait wait = .ok d)
    {a : Answer} (ha : a.succeeds = true) :
    (openStream r limit (.answer wait a)).result = .ok { answer := a, limit } := by
  unfold openStream
  simp only [hsent, Reply.begin, hbegun, Except.map, ha, if_true]

/-! ## Bodies -/

namespace Deadline

/-- Waiting for something ends in no other way than by running out of time. -/
theorem wait_error {d : Deadline} {seconds : Number} {i : Interruption}
    (h : d.wait seconds = .error i) : i = .outOfTime := by
  unfold wait at h
  dsimp only at h
  split_ifs at h
  exact (Except.error.inj h).symm

/-- Waiting for nothing ends by running out of time, or not at all. -/
theorem outwait_cases (d : Deadline) : d.outwait = .outOfTime ∨ d.outwait = .unending := by
  unfold outwait
  split_ifs
  · exact .inl rfl
  · exact .inr rfl

end Deadline

/-- What may come of gathering a body with some bytes and an end. A fault is the one that the
body ends with, and only a body without an end is waited for in vain. -/
inductive Gathered (bs : List UInt8) (ending : BodyEnd) : Except Interruption (List UInt8) → Prop
  | whole (h : ending = .complete) : Gathered bs ending (.ok bs)
  | late : Gathered bs ending (.error .outOfTime)
  | broken {f message} (h : ending = .fault f message) :
    Gathered bs ending (.error (.fault f message))
  | endless (h : ending = .silence) : Gathered bs ending (.error .unending)

theorem gathered_reach (ending : BodyEnd) (d : Deadline) :
    Gathered [] ending ((ending.reach d).map fun _ => []) := by
  cases ending with
  | complete => exact .whole rfl
  | fault f message => exact .broken rfl
  | silence =>
      rw [BodyEnd.reach]
      rcases d.outwait_cases with h | h <;> rw [h]
      · exact .late
      · exact .endless rfl

theorem gathered_gather (ending : BodyEnd) (d : Deadline) (ps : List Piece) :
    Gathered (ps.flatMap Piece.toBytes) ending (gather ending d ps) := by
  induction ps generalizing d with
  | nil => exact gathered_reach ending d
  | cons p ps ih =>
      rw [List.flatMap_cons]
      cases p with
      | bytes bs =>
          rw [gather]
          have h := ih d
          generalize gather ending d ps = gathered at h ⊢
          cases h with
          | whole hend => exact .whole hend
          | late => exact .late
          | broken hend => exact .broken hend
          | endless hend => exact .endless hend
      | wait seconds =>
          rw [gather]
          cases hwait : d.wait seconds with
          | ok d' => exact ih d'
          | error i =>
              rw [Deadline.wait_error hwait]
              exact .late

/-! ## The two ways to fail -/

/-- How sending a request and opening its answer as a stream fail, when there is no answer of
success. -/
inductive BothFail (r : WireRequest) (limit : Number) (reply : Reply) : Failure → Failure → Prop
  /-- The request cannot be written. -/
  | unwritable {f} (h : r.encode = .error f) : BothFail r limit reply f f
  /-- No answer begins. -/
  | unanswered {sent i} (h : r.encode = .ok sent) (hnone : reply.begin { limit } = .error i) :
    BothFail r limit reply (wholeExchange.failure limit i) (streamOpening.failure limit i)
  /-- The answer arrives in time. -/
  | whole {sent d a} (h : r.encode = .ok sent) (hbegun : reply.begin { limit } = .ok (d, a))
    (hbody : a.body d = .ok a.bytes) :
    BothFail r limit reply (statusFailure a a.bytes) (statusFailure a a.bytes)
  /-- The body takes too long, and arrives at last. -/
  | belated {sent d a} (h : r.encode = .ok sent) (hbegun : reply.begin { limit } = .ok (d, a))
    (hbody : a.body d = .error .outOfTime) (hend : a.ending = .complete) :
    BothFail r limit reply (wholeExchange.failure limit .outOfTime) (statusFailure a a.bytes)
  /-- The body takes too long, and then breaks off. -/
  | overdue {sent d a f message} (h : r.encode = .ok sent)
    (hbegun : reply.begin { limit } = .ok (d, a)) (hbody : a.body d = .error .outOfTime)
    (hend : a.ending = .fault f message) :
    BothFail r limit reply (wholeExchange.failure limit .outOfTime) (.outside (.network f))
  /-- The body does not end, and time is limited. -/
  | hanging {sent d a} (h : r.encode = .ok sent) (hbegun : reply.begin { limit } = .ok (d, a))
    (hbody : a.body d = .error .outOfTime) (hend : a.ending = .silence) :
    BothFail r limit reply (wholeExchange.failure limit .outOfTime) (.outside .unending)
  /-- The body breaks off in time. -/
  | broken {sent d a f message} (h : r.encode = .ok sent)
    (hbegun : reply.begin { limit } = .ok (d, a)) (hbody : a.body d = .error (.fault f message)) :
    BothFail r limit reply (wholeExchange.failure limit (.fault f message)) (.outside (.network f))
  /-- The body does not end, and time is not limited. -/
  | endless {sent d a} (h : r.encode = .ok sent) (hbegun : reply.begin { limit } = .ok (d, a))
    (hbody : a.body d = .error .unending) :
    BothFail r limit reply (.outside .unending) (.outside .unending)

section

variable {r : WireRequest} {limit : Number} {reply : Reply}

theorem bothFail_of_begun {sent : SentRequest} {d : Deadline} {a : Answer}
    (hsent : r.encode = .ok sent) (hbegun : reply.begin { limit } = .ok (d, a))
    (ha : a.succeeds = false) :
    ∃ f g, (send r limit reply).result = .error f ∧ (openStream r limit reply).result = .error g ∧
      BothFail r limit reply f g := by
  have hsend : (send r limit reply).result =
      ((a.body d).mapError (wholeExchange.failure limit)).bind a.response := by
    simp only [send, hsent, hbegun]
  have hopen : (openStream r limit reply).result =
      a.bodyAtLast.bind fun body => .error (statusFailure a body) := by
    simp only [openStream, hsent, hbegun, ha, Bool.false_eq_true, if_false]
  have hgathered : Gathered a.bytes a.ending (a.body d) := gathered_gather a.ending d a.pieces
  rw [hsend, hopen, Answer.bodyAtLast]
  cases hbody : a.body d with
  | ok body =>
      rw [hbody] at hgathered
      cases hgathered with
      | whole hend =>
          rw [hend]
          refine ⟨_, _, ?_, rfl, .whole hsent hbegun hbody⟩
          simp only [Except.mapError, Except.bind, Answer.response, ha, Bool.false_eq_true,
            if_false]
  | error i =>
      rw [hbody] at hgathered
      cases hgathered with
      | late =>
          cases hend : a.ending with
          | complete => exact ⟨_, _, rfl, rfl, .belated hsent hbegun hbody hend⟩
          | fault f message => exact ⟨_, _, rfl, rfl, .overdue hsent hbegun hbody hend⟩
          | silence => exact ⟨_, _, rfl, rfl, .hanging hsent hbegun hbody hend⟩
      | broken hend =>
          rw [hend]
          exact ⟨_, _, rfl, rfl, .broken hsent hbegun hbody⟩
      | endless hend =>
          rw [hend]
          exact ⟨_, _, rfl, rfl, .endless hsent hbegun hbody⟩

/-- Without an answer of success, sending and opening both fail. -/
theorem bothFail_exists
    (hreply : ∀ d a, reply.begin { limit } = .ok (d, a) → a.succeeds = false) :
    ∃ f g, (send r limit reply).result = .error f ∧ (openStream r limit reply).result = .error g ∧
      BothFail r limit reply f g := by
  cases hsent : r.encode with
  | error f =>
      refine ⟨f, f, ?_, ?_, .unwritable hsent⟩
      · rw [send, hsent]
      · rw [openStream, hsent]
  | ok sent =>
      cases hbegun : reply.begin { limit } with
      | error i =>
          refine ⟨wholeExchange.failure limit i, streamOpening.failure limit i, ?_, ?_,
            .unanswered hsent hbegun⟩
          · simp only [send, hsent, hbegun]
          · simp only [openStream, hsent, hbegun]
      | ok begun =>
          obtain ⟨d, a⟩ := begun
          exact bothFail_of_begun hsent hbegun (hreply d a hbegun)

/-! ## Classes of failures -/

/-- A request that cannot be written fails for good. -/
theorem kind_of_encode_error {f : Failure} (h : r.encode = .error f) : f.kind = .permanent := by
  unfold WireRequest.encode at h
  split at h
  · obtain rfl := Except.error.inj h
    rfl
  · split_ifs at h <;> obtain rfl := Except.error.inj h <;> rfl

/-- Two failures are in the same class and of the same kind. -/
def Failure.Alike (f g : Failure) : Prop := f.name = g.name ∧ f.kind = g.kind

/-- Two failures are in different classes, and only that of the first one is transient. -/
def Failure.Parted (f g : Failure) : Prop :=
  f.name ≠ g.name ∧ f.kind = .transient ∧ g.kind = .permanent

theorem unanswered_alike (limit : Number) (i : Interruption) :
    (wholeExchange.failure limit i).Alike (streamOpening.failure limit i) := by
  cases i with
  | outOfTime => exact ⟨rfl, rfl⟩
  | unending => exact ⟨rfl, rfl⟩
  | fault f message => cases f <;> exact ⟨rfl, rfl⟩

/-- The failures that the library has words for have names of their own. -/
theorem Outside.name_ne (o : Outside) : "Timeout" ≠ o.name ∧ "ConnectionFailed" ≠ o.name := by
  cases o with
  | network f => cases f <;> decide
  | _ => decide

theorem timeout_parted (message : String) (limit : Number) (o : Outside) :
    (Failure.timeout message (some limit)).Parted (.outside o) := ⟨o.name_ne.1, rfl, rfl⟩

/-- A fault that the library has words for is parted from the fault as it is. -/
theorem fault_parted (limit : Number) {f : NetworkFault} (hf : f.nature ≠ .neither)
    (message : String) :
    (wholeExchange.failure limit (.fault f message)).Parted (.outside (.network f)) := by
  rw [Phase.failure]
  cases hn : f.nature with
  | time => exact timeout_parted _ limit (.network f)
  | connection => exact ⟨(Outside.network f).name_ne.2, rfl, rfl⟩
  | neither => exact absurd hn hf

theorem BothFail.alike_or_parted {f g : Failure} (h : BothFail r limit reply f g) :
    f.Alike g ∧ ((∃ begun, reply.begin { limit } = .ok begun) → f.kind = .permanent) ∨
      f.Parted g ∧ ∃ begun, reply.begin { limit } = .ok begun := by
  cases h with
  | unwritable h => exact .inl ⟨⟨rfl, rfl⟩, fun _ => kind_of_encode_error h⟩
  | unanswered h hnone =>
      exact .inl ⟨unanswered_alike limit _, fun ⟨begun, hbegun⟩ => absurd hbegun (by simp [hnone])⟩
  | whole h hbegun hbody => exact .inl ⟨⟨rfl, rfl⟩, fun _ => rfl⟩
  | belated h hbegun hbody hend =>
      exact .inr ⟨⟨(by decide : "Timeout" ≠ "HTTPStatusError"), rfl, rfl⟩, _, hbegun⟩
  | overdue h hbegun hbody hend => exact .inr ⟨timeout_parted _ limit _, _, hbegun⟩
  | hanging h hbegun hbody hend => exact .inr ⟨timeout_parted _ limit _, _, hbegun⟩
  | @broken _ _ _ f message h hbegun hbody =>
      by_cases hf : f.nature = .neither
      · refine .inl ⟨?_, fun _ => ?_⟩ <;> rw [Phase.failure, hf]
        · exact ⟨rfl, rfl⟩
        · rfl
      · exact .inr ⟨fault_parted limit hf message, _, hbegun⟩
  | endless h hbegun hbody => exact .inl ⟨⟨rfl, rfl⟩, fun _ => rfl⟩

/--
**Opening a stream fails in the class of sending, unless an answer has begun and sending it is a
transient failure.**

When a request has no answer of success, sending it fails and opening its answer as a stream
fails, each in the way that `BothFail` says. If an answer begins and sending comes to a timeout or
to a lost connection, then opening comes to a failure of another class, which is not transient. In
all other cases the two are in the same class and of the same kind.
-/
theorem openStream_refuses_as_send_iff
    (hreply : ∀ d a, reply.begin { limit } = .ok (d, a) → a.succeeds = false) :
    ∃ f g, (send r limit reply).result = .error f ∧ (openStream r limit reply).result = .error g ∧
      BothFail r limit reply f g ∧
      (f.Alike g ↔ ¬ ((∃ begun, reply.begin { limit } = .ok begun) ∧ f.kind = .transient)) ∧
      (¬ f.Alike g → f.Parted g) := by
  obtain ⟨f, g, hsend, hopen, hboth⟩ := bothFail_exists (r := r) hreply
  refine ⟨f, g, hsend, hopen, hboth, ?_⟩
  rcases hboth.alike_or_parted with ⟨halike, hkind⟩ | ⟨hparted, hbegun⟩
  · refine ⟨iff_of_true halike fun ⟨hbegun, htransient⟩ => ?_, fun h => absurd halike h⟩
    exact absurd (htransient.symm.trans (hkind hbegun)) (by decide)
  · refine ⟨iff_of_false (fun h => hparted.1 h.1) fun h => h ⟨hbegun, hparted.2.1⟩, ?_⟩
    exact fun _ => hparted

end

/-- A request without a body. -/
def visit : WireRequest := { method := "GET", url := "https://x" }

theorem visit_encodes : ∃ sent, visit.encode = .ok sent := by
  cases h : visit.encode with
  | ok sent => exact ⟨sent, rfl⟩
  | error f =>
      have hencodes : visit.encode.toBool = true := by decide +kernel
      rw [h] at hencodes
      exact absurd hencodes (by simp [Except.toBool])

/-- An answer without success that ends in some way. -/
def refusing (ending : BodyEnd) : Answer :=
  { status := 500, pieces := [.bytes (Text.Utf8.encode "err")], ending }

theorem begin_refusing {ending : BodyEnd} {limit : Number} {d : Deadline} {a : Answer}
    (h : (Reply.answer (.int 0) (refusing ending)).begin { limit } = .ok (d, a)) :
    a.succeeds = false := by
  obtain rfl : refusing ending = a := congrArg Prod.snd (Except.ok.inj h)
  rfl

/-- An answer that arrives in time is refused alike. -/
theorem openStream_refuses_as_send_iff_whole :
    ∃ f g, (send visit (.int 60) (.answer (.int 0) (refusing .complete))).result = .error f ∧
      (openStream visit (.int 60) (.answer (.int 0) (refusing .complete))).result = .error g ∧
      f.Alike g := by
  have hreply : ∀ d a, (Reply.answer (.int 0) (refusing .complete)).begin { limit := .int 60 } =
      .ok (d, a) → a.succeeds = false := fun _ _ => begin_refusing
  obtain ⟨f, g, hsend, hopen, -, hiff, -⟩ := openStream_refuses_as_send_iff (r := visit) hreply
  refine ⟨f, g, hsend, hopen, hiff.mpr fun ⟨_, htransient⟩ => ?_⟩
  have hstatus : (send visit (.int 60) (.answer (.int 0) (refusing .complete))).result =
      .error (statusFailure (refusing .complete) (refusing .complete).bytes) := by
    obtain ⟨sent, hsent⟩ := visit_encodes
    simp only [send, hsent]
    rfl
  obtain rfl := Except.error.inj (hsend.symm.trans hstatus)
  exact absurd htransient (by decide +kernel)

/-- A connection that is lost within the body of an answer. -/
theorem openStream_refuses_lost_body :
    (send visit (.int 60) (.answer (.int 0) (refusing (.fault .readError "lost")))).result =
        .error (.connection "Connection failed: ReadError" none) ∧
      (openStream visit (.int 60) (.answer (.int 0) (refusing (.fault .readError "lost")))).result =
        .error (.outside (.network .readError)) := by
  obtain ⟨sent, hsent⟩ := visit_encodes
  simp only [send, openStream, hsent]
  exact ⟨rfl, rfl⟩

end ChatClient
