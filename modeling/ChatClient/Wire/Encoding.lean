import ChatClient.Json.Printer
import ChatClient.Text.Case
import ChatClient.Wire
import ChatClient.Wire.Address

/-!
# Encoding requests

What a server receives of a request: the method in upper case, the address in its normal
form, header fields in ASCII, and the body as a compact JSON text. A request that cannot be
encoded is not sent.
-/

namespace ChatClient

/-- A request as a server receives it. -/
structure SentRequest where
  method : String
  url : String
  headers : Headers
  body : String
  deriving DecidableEq, Inhabited

namespace Headers

/-- Adds a field; one of the same name is continued after a comma. -/
def add : Headers → String → String → Headers
  | [], name, value => [(name, value)]
  | (k, v) :: rest, name, value =>
    if k = name then (k, v ++ ", " ++ value) :: rest else (k, v) :: add rest name value

/-- Header fields with names in lower case, and each name once. -/
def joined (hs : Headers) : Headers := hs.foldl (fun acc (k, v) => acc.add (Text.lower k) v) []

/-- The value of a field whose name is in lower case. -/
def value? (hs : Headers) (name : String) : Option String :=
  (hs.find? (·.1 == name)).map (·.2)

/-- Header fields with one that counts only where its name is not there. -/
def withDefault (hs : Headers) (name value : String) : Headers :=
  if (hs.value? name).isSome then hs else hs ++ [(name, value)]

/-- Whether all names and values are ASCII. -/
def areAscii (hs : Headers) : Bool :=
  let isAscii (s : String) : Bool := s.toList.all fun c => c.toNat < 0x80
  hs.all fun (k, v) => isAscii k && isAscii v

end Headers

namespace WireRequest

/-- The body of a request that has one; null stands for no body. -/
def content? (r : WireRequest) : Option Json :=
  match r.body with
  | none | some .null => none
  | some v => some v

/-- The header fields that are sent. -/
def sentHeaders (r : WireRequest) : Headers :=
  let hs := (Headers.joined r.headers).withDefault "accept" "*/*"
  if r.content?.isSome then hs.withDefault "content-type" "application/json" else hs

/-- The text of a parameter's value. -/
def paramText : Json → String
  | .null => ""
  | .bool b => if b then "true" else "false"
  | v => v.shown

/-- The parameters of the address, each with a text. -/
def paramTexts (r : WireRequest) : List (String × String) :=
  r.params.flatMap fun (name, v) =>
    match v with
    | .list vs => vs.map fun v => (name, paramText v)
    | v => [(name, paramText v)]

/-- The request as it is sent. A bad address comes before a header that is not ASCII, and
both before a body with a number that JSON does not have. -/
def encode (r : WireRequest) : Except Failure SentRequest :=
  match Address.read? r.url with
  | none => .error (.outside .badAddress)
  | some address =>
    if !Headers.areAscii r.headers then .error (.outside .unencodable)
    else if (r.content?.map Json.hasNonFinite).getD false then .error (.outside .badValue)
    else .ok
      { method := Text.upper r.method
        url := (address.rooted.withParams r.paramTexts).text
        headers := r.sentHeaders
        body := (r.content?.map Json.compact).getD "" }

end WireRequest

end ChatClient
