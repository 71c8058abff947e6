import ChatClient.Credential

/-!
# Adapters

An adapter is what one needs to talk to a service: which service it is, a credential, the
address, and for Gemini whether system instructions have a place of their own and how much room
there is to read the texts of a request. How requests
are written and answers are read is in the modules of the services.
-/

namespace ChatClient

/-- The address of a service, where a caller gives no other. -/
def Provider.defaultBaseUrl : Provider → String
  | .groq => "https://api.groq.com/openai/v1"
  | .gemini => "https://generativelanguage.googleapis.com/v1beta"

/-- Access to a service. -/
structure Adapter where
  provider : Provider
  credential : Credential
  baseUrl : String
  /-- System messages may be sent as a system instruction. -/
  systemInstruction : Bool := true
  /-- How many brackets may be open within each other in a text that is read to write a request.
  Calls may go a thousand deep, and those on the way to the reader count. -/
  room : Nat := 960

namespace Adapter

/-- An address without slashes at its end; an empty one is that of the service. -/
def normalUrl (provider : Provider) (baseUrl : Option String) : String :=
  let url := (baseUrl.filter fun u => !u.isEmpty).getD provider.defaultBaseUrl
  String.ofList (Text.dropEndWhile (· == '/') url.toList)

/-- An adapter for a service, with a credential that must belong to it. -/
def make (provider : Provider) (credential : Credential) (baseUrl : Option String)
    (systemInstruction : Bool) : Except Failure Adapter :=
  (credential.forProvider provider.name).map fun credential =>
    { provider, credential, baseUrl := normalUrl provider baseUrl, systemInstruction }

/-- The name of the service. -/
def name (a : Adapter) : String := a.provider.name

/-- A text in which the secret does not show. -/
def redact (a : Adapter) (s : String) : String := a.credential.redact s

/-- The names of the services, in order, for messages. -/
def supported : String := Text.joinWith ", " (["gemini", "groq"].map Text.quoted)

/-- The service that a selector names, whatever blanks are around it and in any letter
case. -/
def selected? : Json → Option Provider
  | .text s => Provider.ofName? (Text.lower (Text.strip s))
  | _ => none

/-- The options that an adapter takes by name. -/
def optionNames : Provider → List String
  | .groq => []
  | .gemini => ["system_instruction"]

/-- The address that a value gives, if it is one; a value that stands for nothing gives none. -/
def readBaseUrl : Json → Except Failure (Option String)
  | .text s => .ok (some s)
  | v => if v.isGiven then .error (.outside .missingAttribute) else .ok none

/-- The adapter of a selector. An unknown service is refused first, then a missing key, then
options that the adapter does not take, and an address that is no text last. -/
def create (env : Environment) (selector key baseUrl : Json) (options : Entries) :
    Except Failure Adapter := do
  match selector with
  | .list _ | .object _ => throw (.outside .wrongType)
  | _ => pure ()
  match selected? selector with
  | none => throw (.configuration ("Unknown provider: " ++ selector.inner)
      (some ("Supported providers: " ++ supported)))
  | some provider =>
    let credential ← Credential.resolve env provider.name key.text?
    if options.any fun (name, _) => name ∉ optionNames provider then
      throw (.outside .wrongType)
    make provider credential (← readBaseUrl baseUrl)
      (((options.get? "system_instruction").map Json.isGiven).getD true)

/-- What a service can do. -/
structure Capabilities where
  streaming : Bool := true
  tools : Bool := true
  systemRole : Bool := true
  topK : Bool := true
  seed : Bool := true
  deriving DecidableEq

/-- What can be done through an adapter. -/
def capabilities (a : Adapter) : Capabilities :=
  match a.provider with
  | .groq => { topK := false }
  | .gemini => { systemRole := a.systemInstruction }

/-- The class name of an adapter. -/
def className (a : Adapter) : String :=
  match a.provider with
  | .groq => "GroqAdapter"
  | .gemini => "GeminiAdapter"

/-- An adapter as messages show it. -/
def shown (a : Adapter) : String := a.className ++ "(base_url=" ++ Text.quoted a.baseUrl ++ ")"

end Adapter

end ChatClient
