import CallPool.CorrelationId
import CallPool.Duration
import CallPool.Url.Fault

/-!
# Errors

Every operation that can fail gives an `Error`, and every error says what caused it. The words are
in `Error.message`. Errors fall into groups: only `remote` reports that the other side refused a
request; those in `isDegraded` mean that the other side could not be asked.
-/

set_option autoImplicit false

namespace CallPool

/-- What is wrong with the configuration of a pool or a client. -/
inductive ConfigFault
  | noConnections
  | headerEmpty
  /-- The duration of this name is zero. -/
  | zeroDuration (name : String)
  | pingNotShorter (ping pong : Duration)
  | delaysInverted (base max : Duration)
  | endpointMissing
  | schemeUnsupported (scheme endpoint : String)
  | keyMissing
  | described (text : String)
  deriving DecidableEq

/-- What is wrong with an endpoint that is dialed. -/
inductive EndpointFault
  | characterInvalid
  | authorityInvalid
  | formatInvalid
  | tooLong
  | emptyText
  | schemeTooLong
  | noHost
  deriving DecidableEq

/-- Why a connection could not be opened. -/
inductive DialFault
  | endpointInvalid (fault : EndpointFault)
  | headerNameInvalid
  | credentialInvalid
  /-- The server answered the handshake with this status. -/
  | refused (status : Nat)
  | lostBeforeInstall
  | described (text : String)
  deriving DecidableEq

/-- Why a frame was not written. -/
inductive WriteFault
  | timedOut (ms : Nat)
  | connectionClosed
  | loopStopped
  | described (text : String)
  deriving DecidableEq

/-- What went wrong between the parts of the library. -/
inductive ProtocolFault
  | slotOutOfRange (slot : Nat)
  | described (text : String)
  deriving DecidableEq

/-- Why an operation failed. -/
inductive Error
  | config (fault : ConfigFault)
  | connect (slot : Nat) (fault : DialFault)
  | connectionTimeout (ms : Nat)
  | connectionLost (slot : Nat) (id : CorrelationId)
  | noConnectionAvailable
  | requestTimeout (id : CorrelationId) (ms : Nat)
  | send (slot : Nat) (fault : WriteFault)
  | closed
  | remote (code message : String)
  | protocol (fault : ProtocolFault)
  | json (error : Json.Error)
  | url (fault : Url.Fault)
  deriving DecidableEq

/-- The words for a fault in the configuration. -/
def ConfigFault.message : ConfigFault → String
  | noConnections => "pool_size must be at least 1"
  | headerEmpty => "auth_header must not be empty"
  | zeroDuration name => name ++ " must be non-zero"
  | pingNotShorter ping pong =>
    "ping_period (" ++ ping.text ++ ") must be shorter than pong_wait (" ++ pong.text ++ ")"
  | delaysInverted base max =>
    "reconnect_base_delay (" ++ base.text ++ ") exceeds reconnect_max_delay (" ++ max.text ++ ")"
  | endpointMissing =>
    "Endpoint is required. Use .endpoint() to set it.\n" ++
      "Example: Client::builder().endpoint(\"wss://host/ws\")"
  | schemeUnsupported scheme endpoint =>
    "Endpoint scheme must be ws or wss, got " ++ scheme ++ ": " ++ endpoint
  | keyMissing => "API key is required. Use .api_key() to set it."
  | described text => text

/-- The words for a fault in an endpoint. -/
def EndpointFault.message : EndpointFault → String
  | characterInvalid => "HTTP format error: invalid uri character"
  | authorityInvalid => "HTTP format error: invalid authority"
  | formatInvalid => "HTTP format error: invalid format"
  | tooLong => "HTTP format error: uri too long"
  | emptyText => "HTTP format error: empty string"
  | schemeTooLong => "HTTP format error: scheme too long"
  | noHost => "URL error: No host name in the URL"

/-- The usual words for the status of an HTTP answer. -/
def statusReason (status : Nat) : Option String :=
  match status with
  | 100 => some "Continue"
  | 101 => some "Switching Protocols"
  | 102 => some "Processing"
  | 103 => some "Early Hints"
  | 200 => some "OK"
  | 201 => some "Created"
  | 202 => some "Accepted"
  | 203 => some "Non Authoritative Information"
  | 204 => some "No Content"
  | 205 => some "Reset Content"
  | 206 => some "Partial Content"
  | 207 => some "Multi-Status"
  | 208 => some "Already Reported"
  | 226 => some "IM Used"
  | 300 => some "Multiple Choices"
  | 301 => some "Moved Permanently"
  | 302 => some "Found"
  | 303 => some "See Other"
  | 304 => some "Not Modified"
  | 305 => some "Use Proxy"
  | 307 => some "Temporary Redirect"
  | 308 => some "Permanent Redirect"
  | 400 => some "Bad Request"
  | 401 => some "Unauthorized"
  | 402 => some "Payment Required"
  | 403 => some "Forbidden"
  | 404 => some "Not Found"
  | 405 => some "Method Not Allowed"
  | 406 => some "Not Acceptable"
  | 407 => some "Proxy Authentication Required"
  | 408 => some "Request Timeout"
  | 409 => some "Conflict"
  | 410 => some "Gone"
  | 411 => some "Length Required"
  | 412 => some "Precondition Failed"
  | 413 => some "Payload Too Large"
  | 414 => some "URI Too Long"
  | 415 => some "Unsupported Media Type"
  | 416 => some "Range Not Satisfiable"
  | 417 => some "Expectation Failed"
  | 418 => some "I'm a teapot"
  | 421 => some "Misdirected Request"
  | 422 => some "Unprocessable Entity"
  | 423 => some "Locked"
  | 424 => some "Failed Dependency"
  | 425 => some "Too Early"
  | 426 => some "Upgrade Required"
  | 428 => some "Precondition Required"
  | 429 => some "Too Many Requests"
  | 431 => some "Request Header Fields Too Large"
  | 451 => some "Unavailable For Legal Reasons"
  | 500 => some "Internal Server Error"
  | 501 => some "Not Implemented"
  | 502 => some "Bad Gateway"
  | 503 => some "Service Unavailable"
  | 504 => some "Gateway Timeout"
  | 505 => some "HTTP Version Not Supported"
  | 506 => some "Variant Also Negotiates"
  | 507 => some "Insufficient Storage"
  | 508 => some "Loop Detected"
  | 510 => some "Not Extended"
  | 511 => some "Network Authentication Required"
  | _ => none

/-- The words for a connection that could not be opened. -/
def DialFault.message : DialFault → String
  | endpointInvalid fault => "invalid endpoint: " ++ fault.message
  | headerNameInvalid => "invalid auth header name: invalid HTTP header name"
  | credentialInvalid => "invalid credential: failed to parse header value"
  | refused status =>
    "HTTP error: " ++ toString status ++ " " ++
      (statusReason status).getD "<unknown status code>"
  | lostBeforeInstall => "connection lost before install"
  | described text => text

/-- The words for a frame that was not written. -/
def WriteFault.message : WriteFault → String
  | timedOut ms => "write timed out after " ++ toString ms ++ "ms"
  | connectionClosed => "connection closed"
  | loopStopped => "write loop stopped"
  | described text => text

/-- The words for a fault between the parts of the library. -/
def ProtocolFault.message : ProtocolFault → String
  | slotOutOfRange slot => "slot " ++ toString slot ++ " out of range"
  | described text => text

namespace Error

/-- The words for an error. -/
def message : Error → String
  | config fault => "Configuration error: " ++ fault.message
  | connect slot fault => "Connect failed for slot " ++ toString slot ++ ": " ++ fault.message
  | connectionTimeout ms => "Connection timeout after " ++ toString ms ++ "ms"
  | connectionLost slot id =>
    "Connection " ++ toString slot ++ " lost while request " ++ id.text ++ " was pending"
  | noConnectionAvailable => "No connection available"
  | requestTimeout id ms => "Request " ++ id.text ++ " timed out after " ++ toString ms ++ "ms"
  | send slot fault => "Send failed on connection " ++ toString slot ++ ": " ++ fault.message
  | closed => "Pool closed"
  | remote _ message => "Remote error: " ++ message
  | protocol fault => "Protocol error: " ++ fault.message
  | json error => "JSON error: " ++ error.message
  | url fault => "Invalid URL: " ++ fault.message

/-- Whether a time limit was passed. -/
def isTimeout : Error → Bool
  | connectionTimeout _ => true
  | requestTimeout _ _ => true
  | _ => false

/-- Whether the other side could not be asked, so that the caller should go on without it. -/
def isDegraded : Error → Bool
  | noConnectionAvailable => true
  | requestTimeout _ _ => true
  | connectionLost _ _ => true
  | send _ _ => true
  | closed => true
  | _ => false

/-- Whether the other side refused the request. -/
def isRemote : Error → Bool
  | remote _ _ => true
  | _ => false

/-- Whether a connection could not be opened or broke. -/
def isConnectionError : Error → Bool
  | connect _ _ => true
  | connectionTimeout _ => true
  | connectionLost _ _ => true
  | _ => false

end Error

end CallPool
