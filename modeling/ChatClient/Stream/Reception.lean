import ChatClient.Exchange
import ChatClient.Text.Lines
import ChatClient.Wire.MediaType

/-!
# Receiving a stream

A streamed answer is opened first: its status has to arrive in time. Then its body is read
line by line, and each wait for the next line has the same limit. Lines that arrive
together need no waiting in between. The body of an answer without success is read whole,
without a limit.
-/

namespace ChatClient

/-- The words for opening a stream. -/
def streamOpening : Phase where
  late := fun limit => "Stream open timed out after " ++ limitText limit
  timedOut := fun limit => "Stream open timed out after " ++ limitText limit
  lost := fun f _ => "Connection failed: " ++ f.name

/-- The words for reading a stream. -/
def streamReading : Phase where
  late := fun limit => "No stream data within " ++ limitText limit
  timedOut := fun limit => "Stream read timed out after " ++ limitText limit
  lost := fun _ message => "Stream connection failed: " ++ message

/-- An answer that is being streamed. It can be read once. -/
structure OpenStream where
  answer : Answer
  limit : Number
  wasRead : Bool := false

/-- The body of an answer, however long it takes to arrive. What keeps it from arriving is not
put into words of this library. -/
def Answer.bodyAtLast (a : Answer) : Except Failure (List UInt8) :=
  match a.ending with
  | .complete => .ok a.bytes
  | .fault f _ => .error (.outside (.network f))
  | .silence => .error (.outside .unending)

/-- Sends a request and opens its answer as a stream. An answer with a status of success
stays open. -/
def openStream (r : WireRequest) (limit : Number) (reply : Reply) : Exchange OpenStream :=
  match r.encode with
  | .error f => { result := .error f }
  | .ok sent =>
    match reply.begin { limit } with
    | .error i => { result := .error (streamOpening.failure limit i), sent := some sent }
    | .ok (_, a) =>
      if a.succeeds then
        { result := .ok { answer := a, limit }, sent := some sent, opened := true }
      else
        { result := a.bodyAtLast.bind fun body => .error (statusFailure a body)
          sent := some sent, opened := true, closed := true }

/-- Bytes on their way to lines. -/
structure LineReader where
  decoding : Text.Charset.State
  line : Text.Lines.State := {}

namespace LineReader

/-- The lines that some bytes complete. -/
def feed (r : LineReader) (bs : List UInt8) : LineReader × List String :=
  let (decoding, ds) := r.decoding.scan bs
  let (line, lines) := r.line.scan (Text.withReplacements ds)
  ({ decoding, line }, lines)

/-- The lines that the end of the bytes completes. -/
def finish (r : LineReader) : List String :=
  let (line, lines) := r.line.scan (Text.withReplacements r.decoding.finish)
  lines ++ line.finish

end LineReader

/-- Some lines, and what kept the rest from coming. -/
structure Reception where
  lines : List String
  failure : Option Failure := none

/-- A reception with lines in front. -/
def Reception.after (lines : List String) (r : Reception) : Reception :=
  { r with lines := lines ++ r.lines }

/-- Receives the pieces of a body. A line that is not complete when the body breaks off is
lost. -/
def receive (limit : Number) (ending : BodyEnd) :
    LineReader → Deadline → List Piece → Reception
  | r, d, [] =>
    match ending.reach d with
    | .ok () => { lines := r.finish }
    | .error i => { lines := [], failure := some (streamReading.failure limit i) }
  | r, d, .wait seconds :: ps =>
    match d.wait seconds with
    | .ok d => receive limit ending r d ps
    | .error i => { lines := [], failure := some (streamReading.failure limit i) }
  | r, d, .bytes bs :: ps =>
    let (r, lines) := r.feed bs
    if r.decoding.isRefused then { lines := [], failure := some (.outside .noByteOrder) }
    else
      let d : Deadline := if lines.isEmpty then d else { limit }
      (receive limit ending r d ps).after lines

namespace OpenStream

/-- The character set of a stream. -/
def charset (s : OpenStream) : Text.Charset :=
  MediaType.charset ((Headers.joined s.answer.headers).value? "content-type")

/-- All lines of a stream. -/
def reception (s : OpenStream) : Reception :=
  receive s.limit s.answer.ending { decoding := s.charset.start } { limit := s.limit }
    s.answer.pieces

/-- Reads a stream unless that has been done. -/
def read (s : OpenStream) : Reception × OpenStream :=
  if s.wasRead then ({ lines := [], failure := some (.misuse .streamRead) }, s)
  else (s.reception, { s with wasRead := true })

/-- Reads a stream some number of times. -/
def readTimes (s : OpenStream) : Nat → List Reception
  | 0 => []
  | n + 1 => s.read.1 :: readTimes s.read.2 n

end OpenStream

end ChatClient
