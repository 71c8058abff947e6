import ChatClient.Wire.Encoding

/-!
# Servers

A server is given by how it replies: the first request gets the first reply, and when there
are no more replies the last one is given again. A reply takes its time, and so do the
pieces of a body; waiting is data, and a deadline adds it up.
-/

namespace ChatClient

/-- A piece of a body on its way. -/
inductive Piece where
  | bytes (bs : List UInt8)
  | wait (seconds : Number)
  deriving Inhabited

/-- How a body ends. -/
inductive BodyEnd where
  | complete
  | fault (f : NetworkFault) (message : String)
  /-- Nothing ever follows. -/
  | silence

/-- An answer: its status and header fields, and its body as it arrives. -/
structure Answer where
  status : Int := 200
  headers : Headers := []
  pieces : List Piece := []
  ending : BodyEnd := .complete

/-- Whether a status is one of success. -/
def Answer.succeeds (a : Answer) : Bool := 200 ≤ a.status && a.status < 300

/-- What a server does with a request. -/
inductive Reply where
  /-- It never answers. -/
  | silence
  | fault (wait : Number) (f : NetworkFault) (message : String)
  | answer (wait : Number) (a : Answer)

/-- A server. -/
structure Server where
  replies : List Reply

/-- The reply to request `k`, counted from zero. A server without replies never answers. -/
def Server.reply (s : Server) (k : Nat) : Reply :=
  (s.replies[k]?).getD (s.replies.getLast?.getD .silence)

/-! ## Waiting -/

/-- The sum of two times. -/
def Number.plus : Number → Number → Number
  | .int m, .int n => .int (m + n)
  | a, b => .float (a.toFloat + b.toFloat)

/-- What keeps an exchange from going on. -/
inductive Interruption where
  | outOfTime
  | fault (f : NetworkFault) (message : String)
  /-- Nothing comes, and there is no bound on the waiting. -/
  | unending

/-- How long one may wait, and how long one has. -/
structure Deadline where
  limit : Number
  elapsed : Number := .zero

namespace Deadline

/-- The deadline after some waiting, if it has not come. -/
def wait (d : Deadline) (seconds : Number) : Except Interruption Deadline :=
  if Number.zero.lt seconds then
    let elapsed := d.elapsed.plus seconds
    if d.limit.le elapsed then .error .outOfTime else .ok { d with elapsed }
  else .ok d

/-- What comes of waiting for nothing. -/
def outwait (d : Deadline) : Interruption := if d.limit.isFinite then .outOfTime else .unending

end Deadline

/-- Waits for an answer to begin. -/
def Reply.begin (d : Deadline) : Reply → Except Interruption (Deadline × Answer)
  | silence => .error d.outwait
  | fault seconds f message =>
    match d.wait seconds with
    | .error i => .error i
    | .ok _ => .error (.fault f message)
  | answer seconds a => (d.wait seconds).map fun d => (d, a)

/-- What the end of a body adds, within a deadline. -/
def BodyEnd.reach (d : Deadline) : BodyEnd → Except Interruption Unit
  | complete => .ok ()
  | fault f message => .error (.fault f message)
  | silence => .error d.outwait

/-- Gathers a body within a deadline. -/
def gather (ending : BodyEnd) : Deadline → List Piece → Except Interruption (List UInt8)
  | d, [] => (ending.reach d).map fun _ => []
  | d, .bytes bs :: ps => (gather ending d ps).map (bs ++ ·)
  | d, .wait seconds :: ps =>
    match d.wait seconds with
    | .error i => .error i
    | .ok d => gather ending d ps

/-- The whole body of an answer. -/
def Answer.body (a : Answer) (d : Deadline) : Except Interruption (List UInt8) :=
  gather a.ending d a.pieces

/-- The bytes that a piece brings. -/
def Piece.toBytes : Piece → List UInt8
  | bytes bs => bs
  | wait _ => []

/-- The bytes of an answer, whenever they arrive. -/
def Answer.bytes (a : Answer) : List UInt8 := a.pieces.flatMap Piece.toBytes

end ChatClient
