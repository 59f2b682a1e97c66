import CallPool.Options
import CallPool.Pool.Step
import CallPool.Text.Blank
import CallPool.Text.Quoted

/-!
# Building a client

A builder gathers options step by step. An endpoint and a key that are given by themselves win over
whole options, also over those given later; the size and the timeout are parts of the whole
options, which a later step replaces. `Builder.settle` gives the options that result, if they pass
all checks: those of the endpoint first, then those of the key, then those of the pool. With them
`Builder.build` makes a pool, which starts its first connection round. How an endpoint is read as a URL
is left open: `parse` gives the scheme of one, or what is wrong with it.
-/

set_option autoImplicit false

namespace CallPool

/-- What a client is built from. -/
structure Builder where
  endpoint : Option String
  apiKey : Option String
  options : Options

namespace Builder

/-- A builder for which nothing is chosen. -/
def start : Builder := ⟨none, none, Options.default⟩

/-- One choice. -/
inductive Step
  | endpoint (text : String)
  | apiKey (text : String)
  | poolSize (n : Nat)
  | requestTimeout (d : Duration)
  | options (o : Options)

/-- Makes a choice. -/
def choose (b : Builder) : Step → Builder
  | .endpoint text => { b with endpoint := some text }
  | .apiKey text => { b with apiKey := some text }
  | .poolSize n => { b with options := { b.options with poolSize := n } }
  | .requestTimeout d => { b with options := { b.options with requestTimeout := d } }
  | .options o => { b with options := o }

/-- Makes choices in order. -/
def ofSteps (steps : List Step) : Builder := steps.foldl choose start

/-- The options that the choices result in. -/
def merged (b : Builder) : Options :=
  { b.options with
    endpoint := b.endpoint.getD b.options.endpoint
    apiKey := b.apiKey.getD b.options.apiKey }

/-- Checks an endpoint: it is a URL with one of the two schemes that can be dialed. -/
def checkEndpoint (parse : String → Except Url.Fault String) (endpoint : String) : Except Error Unit :=
  if endpoint.isEmpty then .error (.config .endpointMissing)
  else
    match parse endpoint with
    | .error fault => .error (.url fault)
    | .ok scheme =>
      if scheme = "ws" ∨ scheme = "wss" then .ok ()
      else .error (.config (.schemeUnsupported scheme endpoint))

/-- Checks a key: it holds more than white space. -/
def checkKey (key : String) : Except Error Unit :=
  if Text.isBlank key then .error (.config .keyMissing) else .ok ()

/-- The options that the choices result in, if they pass all checks. -/
def settle (parse : String → Except Url.Fault String) (b : Builder) : Except Error Options := do
  let options := b.merged
  checkEndpoint parse options.endpoint
  checkKey options.apiKey
  options.validate
  .ok options

/-- The pool that is made from the choices, and what is seen of it: at first it dials its slots. -/
def build (parse : String → Except Url.Fault String) (b : Builder) (now : Nat) :
    Except Pool.Failure Pool × List Pool.Event :=
  match ((b.settle parse).mapError .error).bind Pool.new with
  | .error failure => (.error failure, [])
  | .ok pool =>
    let (pool, events) := pool.connect now
    (.ok pool, events)

end Builder

/-- How a client is shown that works with a pool. -/
def Client.text (p : Pool) : String :=
  "Client \x7b endpoint: " ++ Text.quoted p.options.endpoint ++ ", connections: " ++
    toString p.liveCount ++ ", pending: " ++ toString p.pendingCount ++ ", .. \x7d"

end CallPool
