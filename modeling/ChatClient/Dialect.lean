import ChatClient.Gemini.Reading
import ChatClient.Gemini.Rendering
import ChatClient.Groq.Reading
import ChatClient.Groq.Rendering

/-!
# What adapters do

An adapter writes requests and reads answers in the way of its service.
-/

namespace ChatClient.Adapter

/-- A request on the wire, and what is logged on the way. -/
def render (a : Adapter) (r : Request) (model : String) (stream : Bool) :
    Except Objection (WireRequest × List LogLine) :=
  match a.provider with
  | .groq => .ok (Groq.render a r model stream, Groq.renderLogs r)
  | .gemini => Gemini.render a r model stream

/-- Reads the body of an answer. -/
def readResponse (a : Adapter) (body : List UInt8) : Reading Response :=
  match a.provider with
  | .groq => Groq.readResponse body
  | .gemini => Gemini.readResponse body

/-- Reads an event of a streamed answer. -/
def readEvent (a : Adapter) (data : String) : Reading (Option Chunk) :=
  match a.provider with
  | .groq => Groq.readEvent a data
  | .gemini => Gemini.readEvent a data

end ChatClient.Adapter
