import ChatClient.Credential
import ChatClient.Markup
import ChatClient.Response
import ChatClient.Retry.Policy
import ChatClient.Text.Blank

/-!
# Configuration

The settings of a call: the model, which must be named, a limit for each round trip, a
retry policy, where to find the service, and whether markup around the answer is taken off.
-/

namespace ChatClient

/-- The settings of one call or of many. -/
structure Config where
  model : String
  /-- The limit of a round trip in seconds. -/
  timeout : Number := .float 60.0
  retry : RetryPolicy := {}
  /-- The key for a service that is chosen by name; only a text can be one. -/
  apiKey : Json := .null
  /-- The address of a service that is chosen by name. -/
  baseUrl : Json := .null
  /-- Whether to take markup off the answer; any value may say so. -/
  cleanContent : Json := .bool false
  deriving Inhabited

namespace Config

/-- The model that a value names, without the blanks around it. -/
def readModel (v : Json) : Except Failure String :=
  match (v.text?.map Text.strip).filter fun s => !s.isEmpty with
  | some model => .ok model
  | none => .error (.configuration "model must be a non-empty string"
      (some "Pass the provider's model id, e.g. Config(model='gemini-2.0-flash')."))

/-- The limit that a value gives: a number above zero. -/
def readTimeout (v : Json) : Except Failure Number :=
  match v.number? with
  | none => .error (.configuration ("timeout_s must be a number, got " ++ v.kindName) none)
  | some limit =>
    if limit.le .zero then
      .error (.configuration ("timeout_s must be > 0, got " ++ limit.text)
        (some "This bounds each network round trip in seconds."))
    else .ok limit

/-- The policy that a value describes, if it is an object. -/
def readRetry (v : Json) : Except Failure (Option RetryPolicy) :=
  match v with
  | .object es => (RetryPolicy.ofEntries es).map some
  | _ => .ok none

/-- The names of the settings. -/
def fieldNames : List String :=
  ["model", "timeout_s", "retry", "api_key", "base_url", "clean_content"]

/-- The configuration that some settings describe. The retry policy is looked at first, and
what is not a policy is refused last. -/
def ofEntries (es : Entries) : Except Failure Config := do
  let retry := (es.get? "retry").getD (.object [])
  let policy ← readRetry retry
  if es.any fun (name, _) => name ∉ fieldNames then throw (.outside .wrongType)
  let model ← match es.get? "model" with
    | none => throw (.outside .wrongType)
    | some v => readModel v
  let timeout ← readTimeout ((es.get? "timeout_s").getD (.float 60.0))
  match policy with
  | none => throw (.configuration ("retry must be a RetryPolicy, got " ++ retry.kindName) none)
  | some retry =>
    return {
      model, timeout, retry
      apiKey := (es.get? "api_key").getD .null
      baseUrl := (es.get? "base_url").getD .null
      cleanContent := (es.get? "clean_content").getD (.bool false) }

/-- A configuration as messages show it: whether there is a key, but not the key. -/
def shown (c : Config) : String :=
  let key := if c.apiKey.isGiven then Credential.redactedText else "None"
  "Config(model=" ++ Text.quoted c.model ++ ", timeout_s=" ++ c.timeout.text ++ ", api_key=" ++
    key ++ ", base_url=" ++ c.baseUrl.inner ++ ", clean_content=" ++
    c.cleanContent.shown ++ ")"

/-- A response with markup taken off if the configuration says so. -/
def finalize (c : Config) (r : Response) : Response :=
  if !c.cleanContent.isGiven || r.message.content.isEmpty then r
  else { r with message := { r.message with content := Markup.strip r.message.content } }

end Config

end ChatClient
