import ChatClient.Proofs.StreamEnds
import Mathlib.Data.List.Forall2

/-!
# A stream of chunks, and the one with the response

`streamChunks` hands out the chunks of a stream, and `chatStream` hands them out and then the
response. The second takes its chunks from the same generator as the first, so that it has the
same exchanges behind it; it leaves early where its assembler refuses a chunk, and goes on where
the first one is through.

`Relays` says how one goes on from the other, with one case for each way out: a chunk is refused,
the chunks end in a failure, there is no response, or there is one. It is carried through the
generator by what has been taken already, so that each case is one of the whole stream.
-/

namespace ChatClient

/-! ## Generators that are not closed -/

namespace Generator

variable {α : Type}

/-- All items. -/
def items : Generator α → List α
  | ended _ => []
  | yielded item _ next => item :: next.items

/-- The end after all items. -/
def finish : Generator α → Outcome Unit
  | ended o => o
  | yielded _ _ next => next.finish

/-- Closing the generator at an item goes well. -/
def ClosesWell : Generator α → Prop
  | ended _ => True
  | yielded _ closed next => closed.result = .ok () ∧ next.ClosesWell

theorem collect_none (before : Outcome Unit) (g : Generator α) :
    g.collect none before = { (g.finish.withEnd .exhausted : StreamOutcome α StreamEnd) with
      items := g.items } := by
  induction g generalizing before with
  | ended o => rfl
  | yielded item closed next ih =>
      rw [collect_yielded (by simp), Option.map_none, ih]
      rfl

theorem items_ensuring (last : Outcome Unit → Outcome Unit) (g : Generator α) :
    (g.ensuring last).items = g.items := by
  induction g with
  | ended o => rfl
  | yielded item closed next ih => rw [ensuring, items, items, ih]

theorem finish_ensuring (last : Outcome Unit → Outcome Unit) (g : Generator α) :
    (g.ensuring last).finish = last g.finish := by
  induction g with
  | ended o => rfl
  | yielded item closed next ih => rw [ensuring, finish, finish, ih]

theorem finish_endsWith (g : Generator α) : g.EndsWith g.finish := by
  induction g with
  | ended o => exact .ended o
  | yielded item closed next ih => exact ih.later

theorem ClosesWell.ensuring {last : Outcome Unit → Outcome Unit}
    (hlast : ∀ o, o.result = .ok () → (last o).result = .ok ()) {g : Generator α}
    (h : g.ClosesWell) : (g.ensuring last).ClosesWell := by
  induction g with
  | ended o => trivial
  | yielded item closed next ih => exact ⟨hlast closed h.1, ih h.2⟩

end Generator

theorem Yields.generator_closesWell {α β : Type} (y : Yields α) (o : Outcome β) :
    (y.generator o).ClosesWell := by
  obtain ⟨items, result, ledger⟩ := y
  induction items with
  | nil => trivial
  | cons item items ih => exact ⟨rfl, ih⟩

/-- Closing the stream of an adapter at a chunk goes well. -/
theorem Adapter.stream_closesWell (a : Adapter) (c : Config) (now : Float) (server : Server)
    (r : Request) (l : Ledger) : (a.stream c now server r l).ClosesWell := by
  unfold stream
  dsimp only
  split
  · trivial
  · have hrelease : ∀ o, o.result = .ok () → (Outcome.releaseStream o).result = .ok () :=
      fun _ h => h
    exact (Yields.generator_closesWell _ _).ensuring hrelease

/-! ## What an assembler makes of a stream -/

/-- How a stream of items goes on from a stream of chunks that ends with `e`. -/
inductive Relays (c : Config) (provider : Option String) (chunks : List Chunk)
    (e : Except Failure Unit) : List StreamItem → Except Failure Unit → Prop
  /-- A chunk is refused after those that are taken. -/
  | refused {before chunk after as f} (hchunks : chunks = before ++ chunk :: after)
    (htaken : ({ provider } : Assembler).acceptAll before = (.ok (), as))
    (hrefused : (as.accept chunk).1 = .error f) :
    Relays c provider chunks e (before.map .chunk) (.error f)
  /-- All chunks are taken, and what comes after them is a failure. -/
  | failed {as f} (htaken : ({ provider } : Assembler).acceptAll chunks = (.ok (), as))
    (he : e = .error f) : Relays c provider chunks e (chunks.map .chunk) (.error f)
  /-- All chunks are taken, and they are no response. -/
  | unfinished {as f} (htaken : ({ provider } : Assembler).acceptAll chunks = (.ok (), as))
    (he : e = .ok ()) (hfinish : as.finish.1 = .error f) :
    Relays c provider chunks e (chunks.map .chunk) (.error f.failure)
  /-- All chunks are taken, and they are a response. -/
  | finished {r} (he : e = .ok ()) (hresponse : Assembler.assemble provider chunks = .ok r) :
    Relays c provider chunks e (chunks.map .chunk ++ [.response (c.finalize r)]) (.ok ())

theorem Assembler.acceptAll_append {as bs : Assembler} {cs : List Chunk}
    (h : as.acceptAll cs = (.ok (), bs)) (ds : List Chunk) :
    as.acceptAll (cs ++ ds) = bs.acceptAll ds := by
  induction cs generalizing as with
  | nil =>
      obtain rfl : as = bs := congrArg Prod.snd h
      rfl
  | cons c cs ih =>
      rw [acceptAll] at h
      rw [List.cons_append, acceptAll]
      cases haccept : as.accept c with
      | mk result next =>
          rw [haccept] at h
          cases result with
          | error f => exact absurd (congrArg Prod.fst h) (by simp)
          | ok u => exact ih h

theorem Assembler.acceptAll_singleton {as bs : Assembler} {c : Chunk}
    (h : as.accept c = (.ok (), bs)) : as.acceptAll [c] = (.ok (), bs) := by
  rw [acceptAll, h]
  rfl

theorem Assembler.assemble_of_acceptAll {provider : Option String} {cs : List Chunk}
    {as : Assembler} (h : ({ provider } : Assembler).acceptAll cs = (.ok (), as)) :
    assemble provider cs = as.finish.1.mapError StreamFault.failure := by
  rw [assemble, h]

/-- An assembler that has taken some chunks goes on with those of a generator. -/
theorem relays_assembling (c : Config) (provider : Option String) {g : Generator Chunk}
    (hg : g.ClosesWell) {taken : List Chunk} {as : Assembler}
    (htaken : ({ provider } : Assembler).acceptAll taken = (.ok (), as)) :
    Relays c provider (taken ++ g.items) g.finish.result
      (taken.map .chunk ++ (g.assembling c as).items) (g.assembling c as).finish.result := by
  induction g generalizing taken as with
  | ended o =>
      rw [Generator.items, Generator.finish, List.append_nil]
      unfold Generator.assembling
      split
      · next f hf =>
        rw [Generator.items, Generator.finish, List.append_nil, hf]
        exact .failed htaken rfl
      · next hok =>
        split
        · next f hf =>
          rw [Generator.items, Generator.finish, List.append_nil, hok]
          exact .unfinished htaken rfl hf
        · next r hr =>
          have hresponse : Assembler.assemble provider taken = .ok r := by
            rw [Assembler.assemble_of_acceptAll htaken, hr]
            rfl
          rw [Generator.items, Generator.items, Generator.finish, Generator.finish, hok]
          exact .finished rfl hresponse
  | yielded chunk closed next ih =>
      unfold Generator.assembling
      split
      · next f as' hrefused =>
        have hfailing : (Generator.ended (closed.failing f) : Generator StreamItem).finish.result =
            .error f := by
          rw [Generator.finish, Outcome.failing, hg.1]
          rfl
        rw [hfailing, Generator.items, Generator.items, List.append_nil]
        exact .refused rfl htaken (congrArg Prod.fst hrefused)
      · next as' haccept =>
        have htaken' : ({ provider } : Assembler).acceptAll (taken ++ [chunk]) = (.ok (), as') :=
          (Assembler.acceptAll_append htaken [chunk]).trans (Assembler.acceptAll_singleton haccept)
        have h := ih hg.2 htaken'
        simp only [List.map_append, List.map_singleton, List.append_assoc,
          List.singleton_append] at h
        exact h

/-! ## The calls -/

/-- The end of a call that works through a transport. -/
def Transport.ending : Transport → Except Failure Unit → Except Failure StreamEnd
  | .own .cancelled, _ => .error (.outside .cancelled)
  | _, e => e.map fun () => .exhausted

theorem Outcome.closeTransport_ending (o : Outcome Unit) (t : Transport) :
    ((o.closeTransport t).result.map fun () => StreamEnd.exhausted) = t.ending o.result := by
  cases t with
  | shared => rfl
  | own closing => cases closing <;> rfl

theorem Outcome.closeTransport_requests {α : Type} (o : Outcome α) (t : Transport) :
    (o.closeTransport t).requests = o.requests := by
  cases t with
  | shared => rfl
  | own closing => cases closing <;> rfl

/-- Two items are the same apart from the content of a response. -/
def StreamItem.SameButContent : StreamItem → StreamItem → Prop
  | chunk c, chunk d => d = c
  | response r, response s =>
    s = { r with message := { r.message with content := s.message.content } }
  | _, _ => False

theorem Config.finalize_sameButContent (c d : Config) (r : Response) :
    StreamItem.SameButContent (.response (c.finalize r)) (.response (d.finalize r)) := by
  unfold StreamItem.SameButContent finalize
  split_ifs <;> rfl

/-- Cleaning the content changes nothing about the end, and of the items at most a content. -/
theorem assembling_cleanContent (c : Config) (v : Json) (g : Generator Chunk) (as : Assembler) :
    (g.assembling { c with cleanContent := v } as).finish = (g.assembling c as).finish ∧
      List.Forall₂ StreamItem.SameButContent (g.assembling c as).items
        (g.assembling { c with cleanContent := v } as).items := by
  induction g generalizing as with
  | ended o =>
      unfold Generator.assembling
      split
      · exact ⟨rfl, .nil⟩
      · split
        · exact ⟨rfl, .nil⟩
        · exact ⟨rfl, .cons (c.finalize_sameButContent _ _) .nil⟩
  | yielded chunk closed next ih =>
      unfold Generator.assembling
      split
      · exact ⟨rfl, .nil⟩
      · next as' _ => exact ⟨(ih as').1, .cons rfl (ih as').2⟩

theorem Config.finalize_plain {c : Config} (h : c.cleanContent.isGiven = false) (r : Response) :
    c.finalize r = r := by
  rw [finalize, h]
  rfl

theorem Selector.resolve_cleanContent (selector : Selector) (env : Environment) (c : Config)
    (v : Json) : selector.resolve env { c with cleanContent := v } = selector.resolve env c := by
  cases selector <;> rfl

section

variable {α : Type} (s : Session) {selector : Selector} {c : Config} (l : Ledger)
  (make : Adapter → Generator α)

/-- A call without an adapter hands out nothing. -/
theorem generate_refused {f : Failure} (h : selector.resolve s.environment c = .error f) :
    (s.generate selector c l make).collect none (.idle l) = { result := .error f, ledger := l } := by
  rw [Session.generate, h]
  rfl

/-- A call that is not stopped hands out all items of its generator. -/
theorem generate_resolved {a : Adapter} (h : selector.resolve s.environment c = .ok a) :
    (s.generate selector c l make).collect none (.idle l) =
      { (((make a).finish.closeTransport s.transport).withEnd .exhausted :
          StreamOutcome α StreamEnd) with
        items := (make a).items } := by
  rw [Session.generate, h, Generator.collect_none, Generator.items_ensuring,
    Generator.finish_ensuring]

end

/-- What is made of a stream has the requests of its opening behind it. -/
theorem finish_requests (a : Adapter) (c : Config) (now : Float) (server : Server) (r : Request)
    (l : Ledger) (as : Assembler) :
    let opening := a.openStream c now server r l
    (a.stream c now server r l).finish.requests = opening.requests ∧
      ((a.stream c now server r l).assembling c as).finish.requests = opening.requests := by
  refine ⟨(a.stream_endsWith c now server r l (Generator.finish_endsWith _)).2, ?_⟩
  obtain ⟨o, result, hends, ho⟩ :=
    (Generator.finish_endsWith ((a.stream c now server r l).assembling c as)).of_assembling
  rw [ho]
  exact (a.stream_endsWith c now server r l hends).2

end ChatClient
