import ChatClient.Proofs.StreamEnds

/-!
# Cleaning up

However a call ends, it has let go of all answers that began, and it has closed the transport
that it made and no other. A streaming call may end in many places, and so what is shown is shown
of every end that its generator may come to.

A transport that cannot be closed costs a line in the log and nothing else: the same items are
handed out, and the same result or failure comes of the call.
-/

namespace ChatClient

/-! ## Cleaning up, whatever the transport is -/

/-- The outcome with a warning about the transport. -/
def Outcome.warned {α : Type} (message : String) (o : Outcome α) : Outcome α :=
  { o with ledger := o.ledger.log .warning ("Transport cleanup failed: " ++ message) }

/-- How many transports there are for a call to close. -/
def Transport.owned : Transport → Nat
  | .shared => 0
  | .own _ => 1

/-- What a call leaves behind, whatever its transport is: all answers that began are let go, the
transport is closed just if the call has come to making it, and a transport that cannot be closed
is worth a warning. -/
structure CleansUp {α : Type} (makes : Bool) (call : Transport → Outcome α) : Prop where
  answers : ∀ t, (call t).closed = (call t).opened
  transports : ∀ t, (call t).transportsClosed = if makes then t.owned else 0
  warning : ∀ message, call (.own (.failing message)) =
    if makes then (call (.own .clean)).warned message else call (.own .clean)

namespace CleansUp

variable {α β : Type}

/-- A call that comes to no transport. -/
theorem const {o : Outcome α} (h : o.HoldsNothing) : CleansUp false fun _ => o where
  answers := fun _ => h.1
  transports := fun _ => h.2
  warning := fun _ => rfl

/-- A call that closes its transport in the end. -/
theorem closeTransport {o : Outcome α} (h : o.HoldsNothing) :
    CleansUp true (o.closeTransport ·) where
  answers := fun t => by
    cases t with
    | shared => exact h.1
    | own closing => cases closing <;> exact h.1
  transports := fun t => by
    cases t with
    | shared => exact h.2
    | own closing => cases closing <;> exact congrArg (· + 1) h.2
  warning := fun _ => rfl

/-- A call that makes something else of the result. -/
theorem withResult {makes : Bool} {call : Transport → Outcome α} (h : CleansUp makes call)
    (f : Except Failure α → Except Failure β) :
    CleansUp makes fun t => (call t).withResult (f (call t).result) where
  answers := h.answers
  transports := h.transports
  warning := fun message => by
    rw [h.warning message]
    cases makes <;> rfl

end CleansUp

/-! ## Calls that are answered whole -/

/-- Attempts that let their answers go. -/
theorem attempt_holdsNothing {α : Type} (a : Adapter) (c : Config) (now : Float)
    {exchange : Nat → Exchange α} (h : ∀ k, (exchange k).opened = (exchange k).closed)
    (l : Ledger) : (attempt a c now exchange l).HoldsNothing := by
  refine ⟨List.countP_congr fun e he => ?_, rfl⟩
  obtain ⟨k, -, rfl⟩ := List.mem_map.mp he
  rw [h k]

theorem Outcome.HoldsNothing.andThen {α β : Type} {o : Outcome α} (h : o.HoldsNothing)
    (f : α → Reading β) : (o.andThen f).HoldsNothing := by
  unfold Outcome.andThen
  split <;> exact h

theorem Adapter.chat_holdsNothing (a : Adapter) (c : Config) (now : Float) (server : Server)
    (r : Request) (l : Ledger) : (a.chat c now server r l).HoldsNothing := by
  unfold chat
  dsimp only
  split
  · exact ⟨rfl, rfl⟩
  · exact (attempt_holdsNothing a c now (fun k => send_opened _ _ _) _).andThen _

theorem chat_cleansUp (s : Session) (selector : Selector) (c : Config) (r : Request) (l : Ledger) :
    CleansUp (selector.resolve s.environment c).toBool fun t =>
      { s with transport := t }.chat selector c r l := by
  cases hresolve : selector.resolve s.environment c with
  | error f =>
      simp only [Session.chat, hresolve]
      exact .const ⟨rfl, rfl⟩
  | ok a =>
      simp only [Session.chat, hresolve]
      exact .closeTransport (a.chat_holdsNothing c s.now s.server r l)

/-! ## Streaming calls -/

namespace Generator

variable {α : Type}

/-- A warning at the end of a generator is one at the end of the call. -/
theorem collect_warned {stop : Option Nat} (hstop : stop ≠ some 0)
    (last : Outcome Unit → Outcome Unit) (message : String) (before before' : Outcome Unit)
    (g : Generator α) :
    (g.ensuring fun o => (last o).warned message).collect stop before =
      let o := (g.ensuring last).collect stop before'
      { o with toOutcome := o.toOutcome.warned message } := by
  induction g generalizing stop before before' with
  | ended o =>
      rw [ensuring, ensuring, collect_ended hstop, collect_ended hstop]
      rfl
  | yielded item closed next ih =>
      rw [ensuring, ensuring, collect_yielded hstop, collect_yielded hstop]
      by_cases hlast : stop.map (· - 1) = some 0
      · rw [hlast, collect_zero, collect_zero]
        rfl
      · rw [ih hlast]

end Generator

section

variable {α : Type} (s : Session) (selector : Selector) (c : Config) (stop : Option Nat)
  (l : Ledger) {make : Adapter → Generator α}

/-- A streaming call that works through a generator of which every end holds nothing. It makes its
transport when it is asked for a first item. -/
theorem generate_cleansUp (hmake : ∀ a o, (make a).EndsWith o → o.HoldsNothing) :
    CleansUp ((selector.resolve s.environment c).toBool && stop != some 0) fun t =>
      (({ s with transport := t }.generate selector c l make).collect stop
        (.idle l)).toOutcome := by
  cases hresolve : selector.resolve s.environment c with
  | error f =>
      simp only [Session.generate, hresolve]
      refine .const ?_
      by_cases hstop : stop = some 0
      · rw [hstop, Generator.collect_zero]
        exact ⟨rfl, rfl⟩
      · rw [Generator.collect_ended hstop]
        exact ⟨rfl, rfl⟩
  | ok a =>
      simp only [Session.generate, hresolve]
      by_cases hstop : stop = some 0
      · simp only [hstop, Generator.collect_zero, bne_self_eq_false, Bool.and_false]
        exact .const ⟨rfl, rfl⟩
      · have hmakes : ((Except.ok a : Except Failure Adapter).toBool && stop != some 0) = true :=
          bne_iff_ne.mpr hstop
        rw [hmakes]
        -- the end that the call comes to is one of the generator, with its transport closed
        have hends (t : Transport) : ∃ (o : Outcome Unit) (e : StreamEnd), o.HoldsNothing ∧
            (((make a).ensuring (·.closeTransport t)).collect stop (.idle l)).toOutcome =
              ((o.closeTransport t).withEnd e : StreamOutcome α StreamEnd).toOutcome := by
          obtain ⟨o, e, ho, hcollect⟩ := Generator.collect_endsWith hstop (.idle l)
            ((make a).ensuring (·.closeTransport t))
          obtain ⟨o', ho', rfl⟩ := ho.of_ensuring
          exact ⟨o', e, hmake a o' ho', hcollect⟩
        refine ⟨fun t => ?_, fun t => ?_, fun message => ?_⟩
        · obtain ⟨o, e, ho, heq⟩ := hends t
          rw [heq]
          exact (CleansUp.closeTransport ho).answers t
        · obtain ⟨o, e, ho, heq⟩ := hends t
          rw [heq]
          exact (CleansUp.closeTransport ho).transports t
        · exact congrArg StreamOutcome.toOutcome (Generator.collect_warned hstop
            (·.closeTransport (.own .clean)) message (.idle l) (.idle l) (make a))

/-- A transport that cannot be closed changes nothing about the items. -/
theorem generate_items (message : String) :
    (({ s with transport := .own (.failing message) }.generate selector c l make).collect stop
        (.idle l)).items =
      (({ s with transport := .own .clean }.generate selector c l make).collect stop
        (.idle l)).items := by
  cases hresolve : selector.resolve s.environment c with
  | error f => simp only [Session.generate, hresolve]
  | ok a =>
      simp only [Session.generate, hresolve]
      by_cases hstop : stop = some 0
      · rw [hstop, Generator.collect_zero, Generator.collect_zero]
      · have h := Generator.collect_warned hstop (·.closeTransport (.own .clean)) message
          (.idle l) (.idle l) (make a)
        exact (congrArg StreamOutcome.items h :)

end

/-! ## The calls -/

/--
**However a call ends, it cleans up.**

Every call that a session has, with any transport, lets go of all answers that began, and closes
the transport just if it made it: that is, if the call has an adapter, and a streaming call if it
has been asked for an item at all. A transport that cannot be closed changes the log by a warning,
and neither the items nor the result.
-/
theorem calls_cleanUp (s : Session) (selector : Selector) (c : Config) (r : Request)
    (role prompt : Json) (stop : Option Nat) (l : Ledger) :
    let through (t : Transport) : Session := { s with transport := t }
    let resolves := (selector.resolve s.environment c).toBool
    CleansUp resolves (fun t => (through t).chat selector c r l) ∧
      CleansUp resolves (fun t => (through t).ask selector c role prompt l) ∧
      CleansUp (resolves && stop != some 0)
        (fun t => ((through t).streamChunks selector c r stop l).toOutcome) ∧
      CleansUp (resolves && stop != some 0)
        (fun t => ((through t).chatStream selector c r stop l).toOutcome) ∧
      ∀ message,
        ((through (.own (.failing message))).streamChunks selector c r stop l).items =
            ((through (.own .clean)).streamChunks selector c r stop l).items ∧
          ((through (.own (.failing message))).chatStream selector c r stop l).items =
            ((through (.own .clean)).chatStream selector c r stop l).items := by
  have hstream (a : Adapter) (o : Outcome Unit) (h : (a.stream c s.now s.server r l).EndsWith o) :
      o.HoldsNothing := (a.stream_endsWith c s.now s.server r l h).1
  have hassembling (a : Adapter) (o : Outcome Unit)
      (h : ((a.stream c s.now s.server r l).assembling c { provider := some a.name }).EndsWith o) :
      o.HoldsNothing := by
    obtain ⟨o', result, hends, rfl⟩ := h.of_assembling
    exact hstream a o' hends
  refine ⟨chat_cleansUp s selector c r l, ?_, generate_cleansUp s selector c stop l hstream,
    generate_cleansUp s selector c stop l hassembling, fun message => ⟨?_, ?_⟩⟩
  · exact (chat_cleansUp s selector c _ l).withResult (·.map Response.text)
  · exact generate_items s selector c stop l message
  · exact generate_items s selector c stop l message

end ChatClient
