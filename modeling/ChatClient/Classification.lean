import ChatClient.RetryAfter

/-!
# Classification of failed answers

What a failed answer means for trying again: each service has words of its own for rate
limits and passing trouble, and where it uses none of them the status decides. The message
of the failure quotes the service, with the secret left out.
-/

namespace ChatClient

/-- The statuses below 500 that pass by themselves. -/
def passingStatuses : List Int := [408, 409]

/-- What a status means by itself. -/
def FailureKind.ofStatus (status : Int) : FailureKind :=
  if status = 429 then .rateLimited
  else if status ∈ passingStatuses ∨ 500 ≤ status then .transient
  else .permanent

/-- Whether Groq marks an error with a word, as its code or as its type. -/
def hasMarker (error : Entries) (marker : String) : Bool :=
  let isMarked (name : String) : Bool := (error.get? name).bind Json.text? == some marker
  isMarked "code" || isMarked "type"

/-- The kinds of Gemini's status names. -/
def statusKinds : List (String × FailureKind) := [
  ("RESOURCE_EXHAUSTED", .rateLimited),
  ("UNAVAILABLE", .transient),
  ("INTERNAL", .transient),
  ("DEADLINE_EXCEEDED", .transient),
  ("ABORTED", .transient),
  ("INVALID_ARGUMENT", .permanent),
  ("FAILED_PRECONDITION", .permanent),
  ("PERMISSION_DENIED", .permanent),
  ("UNAUTHENTICATED", .permanent),
  ("NOT_FOUND", .permanent)]

/-- The kind of a failed answer. For Groq a used-up quota is a matter of billing and not of
waiting, and the status 498 means that capacity is used up. -/
def Provider.classify (p : Provider) (status : Int) (body : Json) : FailureKind :=
  let error := errorObject body
  match p with
  | .groq =>
    if hasMarker error "insufficient_quota" then .permanent
    else if status = 429 ∨ status = 498 ∨ hasMarker error "rate_limit_exceeded" then .rateLimited
    else .ofStatus status
  | .gemini =>
    match ((error.get? "status").bind Json.text?).bind fun s => statusKinds.find? (·.1 == s) with
    | some (_, kind) => kind
    | none => .ofStatus status

/-- The value of an error's body: JSON if it is that, else its text. -/
def errorBody (bs : List UInt8) : Json :=
  let cs := Text.withReplacements (Text.Utf8.decode bs)
  (Json.ofChars? cs).getD (.text (String.ofList cs))

/-- How much of a service's message is quoted. -/
def maxDetail : Nat := 300

/-- What a service says about an error: its message, or the body if that is a text. -/
def errorDetail (body : Json) : String :=
  match given? (((errorObject body).get? "message").bind Json.text?) with
  | some message => message
  | none => body.text?.getD ""

/-- Advice for errors that have to do with the key. -/
def authHint? (p : Provider) (status : Int) (message : String) : Option String :=
  let lower := Text.lower message
  if status = 401 ∨ status = 403 ∨
      (status = 400 ∧ (Text.occurs "api key" lower ∨ Text.occurs "api_key" lower)) then
    some ("Check credentials/permissions (try setting " ++ Credential.ownVariable p.name ++
      " or api_key=...).")
  else none

/-- The failure that an answer without success is, unless reading how long it asks to wait
goes wrong. -/
def Adapter.serviceFailure (a : Adapter) (now : Float) (status : Int) (headers : Headers)
    (bytes : List UInt8) : Except Outside ServiceFailure :=
  let body := errorBody bytes
  let kind := a.provider.classify status body
  let detail := errorDetail body
  let message := a.redact (a.name ++ " request failed (status=" ++ toString status ++ ")" ++
    (if detail.isEmpty then "" else ": " ++ String.ofList (detail.toList.take maxDetail)))
  (a.retryAfter now body headers).map fun wait =>
    { message, kind
      hint := authHint? a.provider status message
      statusCode := some status
      retryAfter := (wait.map Json.float).getD .null
      provider := some a.name
      ofRateLimit := kind = .rateLimited }

end ChatClient
