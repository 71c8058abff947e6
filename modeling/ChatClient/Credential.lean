import ChatClient.Failure
import ChatClient.Text.Blank
import ChatClient.Text.Case
import ChatClient.Text.Search

/-!
# Credentials

A credential is a secret that belongs to one service. It comes from the caller or from the
environment, never from another service's variables, and what is shown to anyone has the
secret replaced.
-/

namespace ChatClient

/-- The services that can be talked to. -/
inductive Provider where
  | groq
  | gemini
  deriving DecidableEq, Inhabited

namespace Provider

/-- The name by which a service is chosen. -/
def name : Provider → String
  | groq => "groq"
  | gemini => "gemini"

/-- The service of a name. -/
def ofName? (s : String) : Option Provider :=
  if s = "groq" then some groq else if s = "gemini" then some gemini else none

end Provider

/-- Variables of the environment. -/
abbrev Environment := List (String × String)

/-- The value of a variable; empty if it is not set. -/
def Environment.value (env : Environment) (name : String) : String :=
  ((env.find? (·.1 == name)).map (·.2)).getD ""

/-- A secret and the service it belongs to. -/
structure Credential where
  provider : String
  secret : String
  deriving DecidableEq

namespace Credential

/-- The variable that is named after a service. -/
def ownVariable (provider : String) : String := Text.upper provider ++ "_API_KEY"

/-- The variables that may hold the key of a service, in the order they are looked at. -/
def variableNames (provider : String) : List String :=
  if provider = "gemini" then ["GEMINI_API_KEY", "GOOGLE_API_KEY"]
  else if provider = "groq" then ["GROQ_API_KEY"]
  else [ownVariable provider]

/-- A key without the blanks around it, if anything is left. -/
def usable? (key : String) : Option String :=
  let key := Text.strip key
  if key.isEmpty then none else some key

/-- The credential of a service: the key given, else the first variable that holds one. -/
def resolve (env : Environment) (provider : String) (key : Option String) :
    Except Failure Credential :=
  match (key.bind usable?).or ((variableNames provider).findSome? fun v => usable? (env.value v)) with
  | some secret => .ok { provider, secret }
  | none => .error (.configuration ("API key required for " ++ provider)
      (some ("Set " ++ (variableNames provider).headD "" ++ " or pass api_key=...")))

/-- The credential itself, for the service it belongs to only. -/
def forProvider (c : Credential) (provider : String) : Except Failure Credential :=
  if c.provider = provider then .ok c
  else .error (.configuration
    (c.provider ++ " credential cannot be used with " ++ provider)
    (some ("Pass a " ++ provider ++ " key or use resolve_credential(" ++ Text.quoted provider ++
      ").")))

/-- What stands for a secret in a text. -/
def redactedText : String := "[REDACTED]"

/-- A text in which the secret does not show. -/
def redact (c : Credential) (s : String) : String := Text.replaceAll c.secret redactedText s

/-- A credential as messages show it. -/
def shown (c : Credential) : String :=
  "ProviderCredential(provider=" ++ Text.quoted c.provider ++ ", secret='**********')"

end Credential

end ChatClient
