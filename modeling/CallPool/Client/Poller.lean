import CallPool.Client.Ask
import CallPool.History

/-!
# Polling the policies

A poller asks for the policies at once and then again and again, and keeps the answer of the last
refresh that succeeded. It waits for the end of a refresh before it begins another. A tick that is
more than 5 ms late puts off those behind it by a whole interval. At its first tick that finds the
pool closed it stops without asking.
-/

set_option autoImplicit false

namespace CallPool.Client

/-- What a poller does. -/
inductive Poller.Phase
  | waiting
  /-- A refresh is under way. -/
  | asking
  | stopped
  deriving DecidableEq

/-- What asks for the policies in intervals. -/
structure Poller where
  interval : Duration
  /-- When the next tick is due. -/
  nextTick : Nat
  phase : Poller.Phase
  latest : Option PolicyResponse
  /-- Whether a snapshot was stored since it was last asked whether one was. -/
  fresh : Bool

namespace Poller

/-- A poller at the instant at which it starts. Without an interval it cannot run. -/
def start (interval : Duration) (now : Nat) : Poller where
  interval := interval
  nextTick := now
  phase := if interval.nanos = 0 then .stopped else .waiting
  latest := none
  fresh := false

/-- Whether it has not stopped. -/
def isRunning (p : Poller) : Bool := p.phase ≠ .stopped

/-- Whether its next tick is there. -/
def isDue (p : Poller) (now : Nat) : Bool := p.phase = .waiting && p.nextTick ≤ now

/-- When the tick after the next one is due, if that one is taken now. -/
def tickAfter (p : Poller) (now : Nat) : Nat :=
  if p.nextTick + 5000000 < now then now + p.interval.nanos else p.nextTick + p.interval.nanos

/-- The policies that a refresh brings, if it succeeds. -/
def refreshed : Pool.Outcome → Option PolicyResponse
  | .ok (.reply r) => (r.decode PolicyResponse.record.reader).toOption
  | _ => none

/-- What may happen to a poller. -/
inductive Action
  /-- Its tick is there, and the pool is closed or is not. -/
  | tick (closed : Bool)
  /-- The refresh that is under way ended. -/
  | conclude (outcome : Pool.Outcome)
  /-- It is stopped or dropped. -/
  | stop

/-- What a poller does that others can see. -/
inductive Event
  /-- A refresh is begun. -/
  | asked
  /-- A snapshot is stored. -/
  | stored (policies : PolicyResponse)
  | ended

/-- What an action changes, and what can be seen of it. A refresh that failed changes nothing but
that it is over. -/
def step (p : Poller) (now : Nat) : Action → Option (Poller × List Event)
  | .tick closed =>
    if p.isDue now then
      let ticked := { p with nextTick := p.tickAfter now }
      if closed then some ({ ticked with phase := .stopped }, [.ended])
      else some ({ ticked with phase := .asking }, [.asked])
    else none
  | .conclude outcome =>
    if p.phase = .asking then
      match refreshed outcome with
      | some policies =>
        some ({ p with phase := .waiting, latest := some policies, fresh := true },
          [.stored policies])
      | none => some ({ p with phase := .waiting }, [])
    else none
  | .stop => some ({ p with phase := .stopped }, if p.isRunning then [.ended] else [])

/-- The runs of a poller: any order in which its actions can happen. -/
abbrev Run : Poller → Nat → List (Moment Poller Action Event) → Nat → Poller → Prop :=
  History step fun _ _ _ => True

/-- What an action changes, if it can happen. -/
def after (p : Poller) (now : Nat) (a : Action) : Poller :=
  ((p.step now a).map Prod.fst).getD p

/-- Whether a snapshot was stored since this was last asked: `none` as long as one may come. -/
def changed (p : Poller) : Option Bool × Poller :=
  if p.fresh then (some true, { p with fresh := false })
  else if p.isRunning then (none, p)
  else (some false, p)

end Poller

end CallPool.Client
