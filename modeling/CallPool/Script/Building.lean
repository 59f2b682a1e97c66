import CallPool.Client.Builder
import CallPool.Script.PoolRun
import CallPool.Url.Scheme

/-!
# A scripted client

A client is built from the choices of a script while nothing listens at its endpoint: its first
connection round fails. Then it is looked at, closed, and told to connect again.
-/

set_option autoImplicit false

namespace CallPool.Script

/-- What is seen of a client that was built. -/
structure Built where
  options : Options
  /-- How many slots it has. -/
  size : Nat
  connected : Bool
  text : String
  closed : Bool
  /-- How the call to connect again ended. -/
  afterClose : Option Ending

/-- Builds a client, and closes it. -/
def build (steps : List Builder.Step) : Except Pool.Failure Built :=
  ((Builder.ofSteps steps).build Url.scheme 0).1.map fun pool =>
    let start := PoolRun.start pool { address := pool.options.endpoint, listening := false, mode := .serve }
    let failed := PoolRun.clockwork.settle start
    let (closed, _) := failed.play (.close "close")
    let (_, report) := closed.play (.connect "connect")
    { options := failed.pool.options
      size := failed.pool.slots.length
      connected := failed.pool.isConnected
      text := Client.text failed.pool
      closed := closed.pool.closed
      afterClose := (report.done.find? fun d => d.1 = "connect").map Prod.snd }

end CallPool.Script
