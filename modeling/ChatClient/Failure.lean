import ChatClient.Request.Fault

/-!
# Failures

Everything that can go wrong with an exchange, in one type. A failure has a class name, a
kind that decides whether the exchange may be tried again, and the details that its class
has. Failures that do not come from this library (`Outside`) have a name only.
-/

namespace ChatClient

/-- Header fields in order. -/
abbrev Headers := List (String × String)

/-- Whether a failed exchange may be tried again. -/
inductive FailureKind where
  | rateLimited
  | transient
  | permanent
  deriving DecidableEq, Inhabited

namespace FailureKind

/-- The name of a kind. -/
def name : FailureKind → String
  | rateLimited => "rate_limited"
  | transient => "transient"
  | permanent => "permanent"

/-- Whether trying again may help. -/
def isRetryable : FailureKind → Bool
  | permanent => false
  | _ => true

end FailureKind

/-- What can go wrong between the client and the server. -/
inductive NetworkFault where
  | connectTimeout
  | readTimeout
  | writeTimeout
  | poolTimeout
  | connectError
  | readError
  | writeError
  | protocolError
  | proxyError
  | unsupportedProtocol
  | undecodable
  | tooManyRedirects
  deriving DecidableEq

namespace NetworkFault

/-- The class name of a fault. -/
def name : NetworkFault → String
  | connectTimeout => "ConnectTimeout"
  | readTimeout => "ReadTimeout"
  | writeTimeout => "WriteTimeout"
  | poolTimeout => "PoolTimeout"
  | connectError => "ConnectError"
  | readError => "ReadError"
  | writeError => "WriteError"
  | protocolError => "RemoteProtocolError"
  | proxyError => "ProxyError"
  | unsupportedProtocol => "UnsupportedProtocol"
  | undecodable => "DecodingError"
  | tooManyRedirects => "TooManyRedirects"

/-- All faults. -/
def all : List NetworkFault :=
  [connectTimeout, readTimeout, writeTimeout, poolTimeout, connectError, readError, writeError,
    protocolError, proxyError, unsupportedProtocol, undecodable, tooManyRedirects]

/-- The fault of a name. -/
def ofName? (s : String) : Option NetworkFault := all.find? (·.name == s)

/-- How a fault counts: as running out of time, as a lost connection, or as neither. -/
inductive Nature where
  | time
  | connection
  | neither
  deriving DecidableEq

/-- The nature of a fault. -/
def nature : NetworkFault → Nature
  | connectTimeout | readTimeout | writeTimeout | poolTimeout => .time
  | undecodable | tooManyRedirects => .neither
  | _ => .connection

end NetworkFault

/-- Failures that do not come from this library. -/
inductive Outside where
  /-- A text that was to be JSON is not. -/
  | unreadableJson
  /-- A text is nested too deep to be read. -/
  | tooDeep
  /-- A value of the wrong type was used. -/
  | wrongType
  /-- A value was asked for something it does not have. -/
  | missingAttribute
  /-- A value of the right type cannot be used. -/
  | badValue
  /-- A number is too large for a float. -/
  | overflow
  /-- A text cannot be written in the character set asked for. -/
  | unencodable
  /-- The byte order of a text is not known. -/
  | noByteOrder
  | missingKey
  | runtime
  /-- A text is no address. -/
  | badAddress
  /-- The task was cancelled. -/
  | cancelled
  /-- An exchange goes on for ever; nobody ever sees this. -/
  | unending
  | network (fault : NetworkFault)
  deriving DecidableEq

/-- The class name of a failure from outside. -/
def Outside.name : Outside → String
  | unreadableJson => "JSONDecodeError"
  | tooDeep => "RecursionError"
  | wrongType => "TypeError"
  | missingAttribute => "AttributeError"
  | badValue => "ValueError"
  | overflow => "OverflowError"
  | unencodable => "UnicodeEncodeError"
  | noByteOrder => "UnicodeError"
  | missingKey => "KeyError"
  | runtime => "RuntimeError"
  | badAddress => "InvalidURL"
  | cancelled => "CancelledError"
  | unending => "Unending"
  | network fault => fault.name

/-- Where the retry controller stands. -/
inductive RetryState where
  | attempting
  | backingOff
  | succeeded
  | exhausted
  deriving DecidableEq, Inhabited

/-- The name of a state. -/
def RetryState.name : RetryState → String
  | attempting => "attempting"
  | backingOff => "backing_off"
  | succeeded => "succeeded"
  | exhausted => "exhausted"

/-- Ways to use the library wrongly. -/
inductive Misuse where
  /-- A retry policy with a number outside its bounds. -/
  | badPolicy (field bound : String)
  /-- A retry controller that has run before. -/
  | controllerUsed (state : RetryState)
  /-- A stream assembler that has finished. -/
  | assemblerFinished
  /-- A stream that has been read. -/
  | streamRead
  deriving DecidableEq

namespace Misuse

/-- The class name of a misuse. -/
def name : Misuse → String
  | badPolicy _ _ => "ValueError"
  | _ => "RuntimeError"

/-- The wording of a misuse. -/
def message : Misuse → String
  | badPolicy field bound => "RetryPolicy." ++ field ++ " must be " ++ bound
  | controllerUsed state => "RetryController already " ++ state.name
  | assemblerFinished => "StreamAssembler already finished"
  | streamRead => "ChunkStream can only be iterated once"

end Misuse

/-- One failed attempt, as the retry controller saw it. -/
structure AttemptRecord where
  attempt : Nat
  kind : FailureKind
  statusCode : Option Int := none
  /-- The wait before the next attempt; none after the last. -/
  delay : Option Number := none
  /-- The class name of the failure. -/
  failure : String

/-- A failed answer of a service, classified. -/
structure ServiceFailure where
  message : String
  kind : FailureKind
  hint : Option String := none
  statusCode : Option Int := none
  /-- How long the service asks to wait: a number of seconds, or null. -/
  retryAfter : Json := .null
  provider : Option String := none
  /-- The failure is reported as one of rate limits. -/
  ofRateLimit : Bool := false

/-- What went wrong. -/
inductive Failure where
  | general (message : String) (hint : Option String)
  | configuration (message : String) (hint : Option String)
  | validation (message : String) (field hint : Option String)
  | adapter (message : String) (provider hint : Option String)
  | malformed (message : String) (provider hint : Option String)
  | unsupportedFinish (reason : String) (provider hint : Option String)
  | transport (message : String) (hint : Option String)
  | connection (message : String) (hint : Option String)
  | timeout (message : String) (limit : Option Number)
  | status (message : String) (code : Int) (headers : Headers) (body : List UInt8)
  | service (failure : ServiceFailure)
  | retriesExhausted (message : String) (attempts : Int) (last : Failure)
      (history : List AttemptRecord) (hint : Option String)
  | interrupted (message : String) (hint : Option String)
  | misuse (m : Misuse)
  | outside (o : Outside)

namespace Failure

/-- A refused request. -/
def ofRequestFault (f : RequestFault) : Failure :=
  .validation f.cause.message (some f.place.path) f.cause.hint?

/-- A request that did not pass a check. -/
def ofObjection : Objection → Failure
  | .fault f => .ofRequestFault f
  | .wrongType => .outside .wrongType
  | .tooDeep => .outside .tooDeep

/-- The class name of a failure. -/
def name : Failure → String
  | general _ _ => "ConduitError"
  | configuration _ _ => "ConfigurationError"
  | validation _ _ _ => "ValidationError"
  | adapter _ _ _ => "AdapterError"
  | malformed _ _ _ => "MalformedResponse"
  | unsupportedFinish _ _ _ => "UnsupportedFinishReason"
  | transport _ _ => "TransportError"
  | connection _ _ => "ConnectionFailed"
  | timeout _ _ => "Timeout"
  | status _ _ _ _ => "HTTPStatusError"
  | service f => if f.ofRateLimit then "RateLimitError" else "APIError"
  | retriesExhausted _ _ _ _ _ => "RetriesExhausted"
  | interrupted _ _ => "StreamInterrupted"
  | misuse m => m.name
  | outside o => o.name

/-- The message of a failure; failures from outside have none. -/
def message? : Failure → Option String
  | general m _ | configuration m _ | validation m _ _ | adapter m _ _ | malformed m _ _ => some m
  | unsupportedFinish reason _ _ => some ("Unsupported finish reason: " ++ Text.quoted reason)
  | transport m _ | connection m _ | timeout m _ | status m _ _ _ => some m
  | service f => some f.message
  | retriesExhausted m _ _ _ _ | interrupted m _ => some m
  | misuse m => some m.message
  | outside _ => none

/-- Advice that goes with a failure. -/
def hint? : Failure → Option String
  | general _ h | configuration _ h | validation _ _ h | adapter _ _ h | malformed _ _ h => h
  | unsupportedFinish _ _ h | transport _ h | connection _ h => h
  | service f => f.hint
  | retriesExhausted _ _ _ _ h | interrupted _ h => h
  | timeout _ _ | status _ _ _ _ | misuse _ | outside _ => none

/-- The HTTP status that a failure carries. -/
def statusCode? : Failure → Option Int
  | status _ code _ _ => some code
  | service f => f.statusCode
  | _ => none

/-- The service that a failure names. -/
def provider? : Failure → Option String
  | adapter _ p _ | malformed _ p _ | unsupportedFinish _ p _ => p
  | service f => f.provider
  | _ => none

/-- The kind of a failure: that of a classified answer, transient for a lost connection or a
timeout, and permanent for everything else. -/
def kind : Failure → FailureKind
  | service f => f.kind
  | connection _ _ | timeout _ _ => .transient
  | _ => .permanent

/-- A summary for logs, without payloads and secrets. -/
def summary (f : Failure) : Json :=
  .object [
    ("type", .text f.name),
    ("kind", .text f.kind.name),
    ("status_code", (f.statusCode?.map Json.int).getD .null),
    ("provider", .ofText? f.provider?)]

/-- The families of failures that a caller may catch together. -/
inductive Family where
  | library
  | adapter
  | transport
  | service
  deriving DecidableEq

/-- The class name of a family. -/
def Family.name : Family → String
  | library => "ConduitError"
  | adapter => "AdapterError"
  | transport => "TransportError"
  | service => "APIError"

/-- The families that a failure belongs to. -/
def families : Failure → List Family
  | misuse _ | outside _ => []
  | adapter _ _ _ | malformed _ _ _ | unsupportedFinish _ _ _ => [.library, .adapter]
  | transport _ _ | connection _ _ | timeout _ _ | status _ _ _ _ => [.library, .transport]
  | service _ => [.library, .service]
  | _ => [.library]

end Failure

end ChatClient
