import ChatClient.Chat.Session

/-!
# Generators

A call that hands out items one after the other is suspended at each of them, until its caller
asks for the next item or closes it there. What such a call has to do last it does either way:
`ensuring` adds it to the end that a generator comes to by itself, and to the end that it has
at each item where it may be closed.
-/

namespace ChatClient

/-- A generator at work. -/
inductive Generator (α : Type) where
  /-- It comes to its end. -/
  | ended (o : Outcome Unit)
  /-- It hands out an item and is suspended. It comes to `closed` if it is closed there, and goes
  on with `next` if it is asked for more. -/
  | yielded (item : α) (closed : Outcome Unit) (next : Generator α)

/-- How a call ended that did not fail. -/
inductive StreamEnd where
  /-- There was nothing more to come. -/
  | exhausted
  /-- The caller wanted no more. -/
  | stopped
  deriving DecidableEq

/-- The end of a streaming call, with what it handed out. -/
structure StreamOutcome (α β : Type) extends Outcome β where
  items : List α := []

namespace Outcome

/-- Nothing has been done. -/
def idle (l : Ledger) : Outcome Unit := { result := .ok (), ledger := l }

/-- The outcome when `f` has gone wrong before. What went wrong on the way to the end counts
first. -/
def failing {β : Type} (o : Outcome Unit) (f : Failure) : Outcome β :=
  o.withResult (o.result.bind fun () => .error f)

/-- The outcome of a streaming call that ends in some way, if nothing has gone wrong. -/
def withEnd {α : Type} (o : Outcome Unit) (e : StreamEnd) : StreamOutcome α StreamEnd :=
  { o.withResult (o.result.map fun () => e) with }

end Outcome

namespace Generator

variable {α : Type}

/-- The generator that also does something last. -/
def ensuring (last : Outcome Unit → Outcome Unit) : Generator α → Generator α
  | ended o => ended (last o)
  | yielded item closed next => yielded item (last closed) (next.ensuring last)

/-- What a caller has who asks for items until there are no more, or closes the generator after
some number of them. A generator that is closed before it has begun comes to `closed`. -/
def collect : Option Nat → Outcome Unit → Generator α → StreamOutcome α StreamEnd
  | some 0, closed, _ => closed.withEnd .stopped
  | _, _, ended o => o.withEnd .exhausted
  | stop, _, yielded item closed next =>
    let rest := collect (stop.map (· - 1)) closed next
    { rest with items := item :: rest.items }

end Generator

end ChatClient
