import CallPool.Pool.Run
import CallPool.Proofs.History

/-!
# Making a pool

A pool is made of options that pass all checks, if there is room for its slots (`Making.of_new`). With
one that has just been made nothing has happened yet (`Fresh`). A script that can be played with it gives
a run, so that what is computed from the script is true of the run (`exists_run_of_script`).
-/

set_option autoImplicit false

namespace CallPool.Pool

/-- A pool with which nothing has happened yet. -/
structure Fresh (p : Pool) : Prop where
  slots : p.slots = List.replicate p.options.poolSize none
  connections : p.connections = []
  reconnecting : p.reconnecting = []
  notices : p.notices = []
  supervised : p.supervised = true
  closed : p.closed = false
  dials : p.dials = []
  rounds : p.rounds = []
  reconnectors : p.reconnectors = []
  relays : p.relays = []
  closings : p.closings = []

/-- A pool has just been made with some options, which have passed all checks, and there is room for its
slots. -/
structure Made (o : Options) (p : Pool) : Prop where
  valid : o.validate = .ok ()
  room : o.poolSize ≤ maxSlots
  options : p.options = o
  nextToken : p.nextToken = 1
  fresh : Fresh p

/-- What comes of making a pool. -/
inductive Making (o : Options) : Except Failure Pool → Prop
  | made {p : Pool} (made : Made o p) : Making o (.ok p)
  | refused {e : Error} (failed : o.validate = .error e) : Making o (.error (.error e))
  | panics (valid : o.validate = .ok ()) (crowded : maxSlots < o.poolSize) : Making o (.error .panic)

/-- A pool is made, or refused for one of its reasons. -/
theorem Making.of_new (o : Options) : Making o (Pool.new o) := by
  unfold Pool.new
  cases checked : o.validate with
  | error e => exact .refused checked
  | ok _ =>
    by_cases crowded : maxSlots < o.poolSize
    · rw [if_pos crowded]
      exact .panics checked crowded
    · rw [if_neg crowded]
      exact .made ⟨checked, Nat.le_of_not_lt crowded, rfl, rfl,
        ⟨rfl, rfl, rfl, rfl, rfl, rfl, rfl, rfl, rfl, rfl, rfl⟩⟩

/-- What is made of options is a pool made of them. -/
theorem Made.of_new {options : Options} {p : Pool} (made : Pool.new options = .ok p) : Made options p := by
  have making := Making.of_new options
  rw [made] at making
  cases making with
  | made made => exact made

/-- Nothing has happened yet with a pool that has just been made. -/
theorem Fresh.of_new {options : Options} {p : Pool} (made : Pool.new options = .ok p) : Fresh p :=
  (Made.of_new made).fresh

/-- A script that can be played with a pool that is made, and what is computed from it. -/
theorem exists_play_of_script {options : Options} {script : List (Nat × Action)} {β : Type}
    {f : List Moment × Pool → β} {b : β}
    (played : (Pool.new options).toOption.bind
      (fun start => (History.play step start script).map f) = some b) :
    ∃ start moments p, Pool.new options = .ok start ∧
      History.play step start script = some (moments, p) ∧ f (moments, p) = b := by
  obtain ⟨start, made, played⟩ := Option.bind_eq_some_iff.1 played
  obtain ⟨⟨moments, p⟩, went, same⟩ := Option.map_eq_some_iff.1 played
  refine ⟨start, moments, p, ?_, went, same⟩
  cases new : Pool.new options with
  | error e =>
    rw [new] at made
    cases made
  | ok q =>
    rw [new] at made
    cases made
    rfl

/-- A script that can be played with a pool that is made gives a run, and what is computed from it
is true of the run. -/
theorem exists_run_of_script {options : Options} {script : List (Nat × Action)} {β : Type}
    {f : List Moment × Pool → β} {b : β}
    (played : (Pool.new options).toOption.bind
      (fun start => (History.play step start script).map f) = some b)
    (ordered : History.inOrder 0 script = true) :
    ∃ start moments p, Pool.new options = .ok start ∧
      Run start 0 moments (History.lastInstant 0 script) p ∧ f (moments, p) = b := by
  obtain ⟨start, moments, p, made, went, same⟩ := exists_play_of_script played
  exact ⟨start, moments, p, made, History.of_play went ordered, same⟩

end CallPool.Pool
