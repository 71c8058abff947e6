import ChatClient.Failure

/-!
# What goes over the wire

A request as an adapter writes it, not encoded yet, and a successful answer as it arrived.
-/

namespace ChatClient

/-- A request to a server. -/
structure WireRequest where
  method : String
  url : String
  headers : Headers := []
  /-- The body; none is not the same as null. -/
  body : Option Json := none
  /-- The parameters of the address; a list stands for several of one name. -/
  params : Entries := []
  deriving Inhabited

/-- An answer with a status of success. -/
structure WireResponse where
  statusCode : Int
  headers : Headers
  body : List UInt8
  deriving Inhabited

end ChatClient
