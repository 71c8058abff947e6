import ChatClient.Failure
import ChatClient.Log

/-!
# The ledger of an exchange

An exchange needs ids for calls that came without one, random numbers and sleep, and it
logs. The ledger holds what it starts from and what it leaves behind. It counts also when
the exchange fails.
-/

namespace ChatClient

/-- What an exchange uses up and leaves behind. -/
structure Ledger where
  /-- How many ids have been made. -/
  callIds : Nat := 0
  logs : List LogLine := []
  /-- The random numbers, used in turn and then again from the start. -/
  draws : List Number := []
  /-- How many random numbers have been used. -/
  drawn : Nat := 0
  /-- The waits so far, in order. -/
  sleeps : List Number := []
  /-- The number of the wait in which the task is cancelled, counted from one. -/
  cancelledSleep : Option Int := none

namespace Ledger

/-- Adds a log line. -/
def log (l : Ledger) (level : LogLevel) (text : String) : Ledger :=
  { l with logs := l.logs ++ [{ level, text }] }

/-- Adds log lines. -/
def logAll (l : Ledger) (lines : List LogLine) : Ledger := { l with logs := l.logs ++ lines }

/-- The next random number. -/
def nextDraw (l : Ledger) : Number := (l.draws[l.drawn % l.draws.length]?).getD (.float 0.5)

/-- The ledger after using a random number. -/
def drew (l : Ledger) : Ledger := { l with drawn := l.drawn + 1 }

/-- The ledger after a wait. -/
def slept (l : Ledger) (delay : Number) : Ledger := { l with sleeps := l.sleeps ++ [delay] }

/-- Whether the task was cancelled in the last wait. -/
def isCancelled (l : Ledger) : Bool := l.cancelledSleep == some (l.sleeps.length : Int)

end Ledger

end ChatClient
