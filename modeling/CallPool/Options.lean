import CallPool.Backoff
import CallPool.Error

/-!
# Options

The options of a pool, their defaults, and the checks that a pool makes of them before it starts.
-/

set_option autoImplicit false

namespace CallPool

/-- The options of a pool. -/
structure Options where
  endpoint : String
  apiKey : String
  /-- The header of the handshake that carries the key. -/
  authHeader : String
  poolSize : Nat
  /-- How often a ping is sent. -/
  pingPeriod : Duration
  /-- How long a connection may be silent before it counts as lost. -/
  pongWait : Duration
  /-- How long one write may take. -/
  writeWait : Duration
  connectTimeout : Duration
  requestTimeout : Duration
  reconnectBaseDelay : Duration
  reconnectMaxDelay : Duration
  maxReconnectAttempts : Nat
  deriving DecidableEq

namespace Options

/-- The options of a pool for which nothing is chosen. -/
def default : Options where
  endpoint := ""
  apiKey := ""
  authHeader := "x-usage-key"
  poolSize := 10
  pingPeriod := Duration.ofSeconds 30
  pongWait := Duration.ofSeconds 60
  writeWait := Duration.ofSeconds 10
  connectTimeout := Duration.ofSeconds 10
  requestTimeout := Duration.ofSeconds 2
  reconnectBaseDelay := Duration.ofSeconds 5
  reconnectMaxDelay := Duration.ofSeconds 60
  maxReconnectAttempts := 5

instance : Inhabited Options := ⟨default⟩

/-- The options of a pool for this endpoint and this key. -/
def new (endpoint apiKey : String) : Options :=
  { default with endpoint := endpoint, apiKey := apiKey }

/-- The durations that must not be zero, with their names, in the order in which they are
checked. -/
def durations (o : Options) : List (String × Duration) := [
  ("ping_period", o.pingPeriod),
  ("pong_wait", o.pongWait),
  ("write_wait", o.writeWait),
  ("connect_timeout", o.connectTimeout),
  ("request_timeout", o.requestTimeout),
  ("reconnect_base_delay", o.reconnectBaseDelay),
  ("reconnect_max_delay", o.reconnectMaxDelay)]

/-- The first thing that is wrong with the options, if anything is. -/
def fault? (o : Options) : Option ConfigFault :=
  if o.poolSize = 0 then some .noConnections
  else if o.authHeader.isEmpty then some .headerEmpty
  else
    match o.durations.find? fun d => d.2.nanos == 0 with
    | some (name, _) => some (.zeroDuration name)
    | none =>
      if o.pongWait ≤ o.pingPeriod then some (.pingNotShorter o.pingPeriod o.pongWait)
      else if o.reconnectMaxDelay < o.reconnectBaseDelay then
        some (.delaysInverted o.reconnectBaseDelay o.reconnectMaxDelay)
      else none

/-- Checks the options. -/
def validate (o : Options) : Except Error Unit :=
  match o.fault? with
  | some fault => .error (.config fault)
  | none => .ok ()

/-- The reconnect schedule that the options choose. -/
def backoff (o : Options) : Backoff :=
  ⟨o.reconnectBaseDelay, o.reconnectMaxDelay, o.maxReconnectAttempts⟩

end Options

end CallPool
