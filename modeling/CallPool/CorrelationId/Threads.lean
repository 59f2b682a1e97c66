import CallPool.CorrelationId
import CallPool.History

/-!
# Threads that generate IDs

All threads of a process share one source of IDs. A thread that generates one draws random bytes, looks
at the clock, takes the next number from the source and has its ID. The taking of a number is the one
step that threads share; between any two steps of a thread the others may take any of theirs.
-/

set_option autoImplicit false

namespace CallPool.CorrelationId

/-- How far a thread is with the ID that it generates. -/
inductive Stage
  | idle
  | drawn (random : RandomBytes)
  | stamped (random : RandomBytes) (nanos : Nat)
  /-- The ID is made, and not yet given out. -/
  | named (id : CorrelationId)
  deriving DecidableEq

/-- The threads of a process and what they share. -/
structure Threads where
  source : Source
  stage : Nat → Stage

namespace Threads

/-- A process at its start. -/
def fresh : Threads := ⟨{}, fun _ => .idle⟩

/-- What a thread may do. -/
inductive Action
  /-- It begins to generate an ID, with these random bytes. -/
  | draw (thread : Nat) (random : RandomBytes)
  /-- It looks at the clock, which shows so many nanoseconds since 1970, or as many before. -/
  | look (thread : Nat) (clock : Int)
  /-- It takes the next number. -/
  | number (thread : Nat)
  /-- It gives the ID out. -/
  | give (thread : Nat)

/-- The thread that does something. -/
def Action.thread : Action → Nat
  | draw t _ => t
  | look t _ => t
  | number t => t
  | give t => t

/-- The threads with one of them at another stage. -/
def set (s : Threads) (thread : Nat) (stage : Stage) : Threads :=
  { s with stage := fun t => if t = thread then stage else s.stage t }

/-- What an action changes, and the ID that it gives out, if it gives one out. A clock that shows a time
before 1970 counts as one that shows the beginning of that year. -/
def step (s : Threads) (_now : Nat) : Action → Option (Threads × List CorrelationId)
  | .draw t random =>
    match s.stage t with
    | .idle => some (s.set t (.drawn random), [])
    | _ => none
  | .look t clock =>
    match s.stage t with
    | .drawn random => some (s.set t (.stamped random clock.toNat), [])
    | _ => none
  | .number t =>
    match s.stage t with
    | .stamped random nanos =>
      let (id, source) := s.source.generate random nanos
      some ({ s with source := source }.set t (.named id), [])
    | _ => none
  | .give t =>
    match s.stage t with
    | .named id => some (s.set t .idle, [id])
    | _ => none

/-- The runs of a process: any order in which its threads can act. -/
abbrev Run : List (Moment Threads Action CorrelationId) → Nat → Threads → Prop :=
  History step (fun _ _ _ => True) fresh 0

end Threads

end CallPool.CorrelationId
