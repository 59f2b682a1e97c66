import CallPool.Client.Builder
import CallPool.Proofs.Pool.RoundLife
import Mathlib.Data.List.DropRight

/-!
# What a builder builds

The choices of a builder result in options that the last of each kind determines (`Builder.chosen`): the
whole options by the last step that gives such, the size and the timeout by the last step behind that one,
the endpoint and the key by the last step anywhere. These options are checked one thing after the other.
What can be wrong with them has a rank (`Options.Defect`), and of several defects the one of least rank is
reported. Sound options can still ask for more slots than there can be room for, over which the making of
the pool breaks down. Only a pool that is built dials anything.

Main statement: `Builder.build_iff_sound_and_fits`.
-/

set_option autoImplicit false

namespace CallPool

namespace Builder

/-! ### The choices -/

namespace Step

/-- The endpoint that a step gives by itself. -/
def endpoint? : Step → Option String
  | endpoint text => some text
  | _ => none

/-- The key that a step gives by itself. -/
def apiKey? : Step → Option String
  | apiKey text => some text
  | _ => none

/-- The size that a step gives by itself. -/
def poolSize? : Step → Option Nat
  | poolSize n => some n
  | _ => none

/-- The timeout that a step gives by itself. -/
def requestTimeout? : Step → Option Duration
  | requestTimeout d => some d
  | _ => none

/-- The whole options that a step gives. -/
def options? : Step → Option Options
  | options o => some o
  | _ => none

end Step

/-- What the last of the steps that give something of a kind gives. -/
def last? {α : Type} (given : Step → Option α) (steps : List Step) : Option α :=
  (steps.filterMap given).getLast?

/-- The steps behind the last one that gives whole options. -/
def sinceOptions (steps : List Step) : List Step := steps.rtakeWhile fun s => s.options?.isNone

/-- The whole options that were given last, or the defaults, with the size and the timeout that were given
behind them. -/
def chosenOptions (steps : List Step) : Options :=
  let whole := (last? Step.options? steps).getD Options.default
  { whole with
    poolSize := (last? Step.poolSize? (sinceOptions steps)).getD whole.poolSize
    requestTimeout := (last? Step.requestTimeout? (sinceOptions steps)).getD whole.requestTimeout }

/-- The options that choices result in: the endpoint and the key are those that were given last by
themselves, wherever that was. -/
def chosen (steps : List Step) : Options :=
  { chosenOptions steps with
    endpoint := (last? Step.endpoint? steps).getD (chosenOptions steps).endpoint
    apiKey := (last? Step.apiKey? steps).getD (chosenOptions steps).apiKey }

/-- The last step that gives something is the newest one if it gives it, else the last one before. -/
@[simp] theorem last?_concat {α : Type} (given : Step → Option α) (steps : List Step) (s : Step) :
    last? given (steps ++ [s]) = (given s).or (last? given steps) := by
  cases gives : given s <;> simp [last?, gives]

/-- A step behind others comes since the options, unless it sets the options itself. -/
@[simp] theorem sinceOptions_concat (steps : List Step) (s : Step) :
    sinceOptions (steps ++ [s]) = if s.options?.isNone then sinceOptions steps ++ [s] else [] :=
  List.rtakeWhile_concat _ _ _

/-- One more step is one more choice. -/
theorem ofSteps_concat (steps : List Step) (s : Step) :
    ofSteps (steps ++ [s]) = (ofSteps steps).choose s := by simp [ofSteps]

/-- What is chosen after some steps. -/
theorem ofSteps_eq (steps : List Step) :
    ofSteps steps = ⟨last? Step.endpoint? steps, last? Step.apiKey? steps, chosenOptions steps⟩ := by
  induction steps using List.reverseRecOn with
  | nil => rfl
  | append_singleton steps s ih =>
    rw [ofSteps_concat, ih]
    have ungiven : ∀ {α : Type} (given : Step → Option α), last? given [] = none := fun _ => rfl
    cases s <;> simp [choose, chosenOptions, ungiven, Step.endpoint?, Step.apiKey?, Step.poolSize?,
      Step.requestTimeout?, Step.options?]

/-- What a builder has merged is what its steps have chosen. -/
theorem merged_ofSteps (steps : List Step) : (ofSteps steps).merged = chosen steps := by
  rw [ofSteps_eq]
  rfl

/-- An endpoint and a key win over whole options that are given later; a size does not. -/
example : chosen [.endpoint "wss://b/ws", .poolSize 7, .apiKey "new",
    .options { Options.new "ws://a/ws" "old" with poolSize := 2 }] =
      { Options.new "wss://b/ws" "new" with poolSize := 2 } := by decide

end Builder

/-! ### Checks in order -/

/-- Makes checks one after the other, up to the first that fails. -/
def inOrder : List (Except Error Unit) → Except Error Unit
  | [] => .ok ()
  | check :: rest => check.bind fun _ => inOrder rest

/-- Checks that follow others are made once those have passed. -/
theorem inOrder_append (cs cs' : List (Except Error Unit)) :
    inOrder (cs ++ cs') = (inOrder cs).bind fun _ => inOrder cs' := by
  induction cs with
  | nil => rfl
  | cons c cs ih =>
    rw [List.cons_append, inOrder, inOrder, ih]
    cases c <;> rfl

/-- Checks fail with the error of the first one that fails. -/
theorem inOrder_eq_error_iff {cs : List (Except Error Unit)} {e : Error} : inOrder cs = .error e ↔
    ∃ i : Nat, cs[i]? = some (.error e) ∧ ∀ (j : Nat) e', cs[j]? = some (.error e') → i ≤ j := by
  induction cs with
  | nil => simp [inOrder]
  | cons c cs ih =>
    cases c with
    | error e' =>
      constructor
      · intro failed
        cases failed
        exact ⟨0, rfl, fun j e' _ => Nat.zero_le j⟩
      · rintro ⟨i, here, first⟩
        obtain rfl : i = 0 := Nat.le_zero.1 (first 0 e' rfl)
        exact Option.some.inj here
    | ok u =>
      refine (show inOrder cs = .error e ↔ _ from ih).trans ?_
      constructor
      · rintro ⟨i, here, first⟩
        refine ⟨i + 1, here, fun j e' there => ?_⟩
        cases j with
        | zero => cases there
        | succ j => exact Nat.succ_le_succ (first j e' there)
      · rintro ⟨i, here, first⟩
        cases i with
        | zero => cases here
        | succ i => exact ⟨i, here, fun j e' there => Nat.le_of_succ_le_succ (first (j + 1) e' there)⟩

/-- Checks pass if none of them fails. -/
theorem inOrder_eq_ok_iff {cs : List (Except Error Unit)} :
    inOrder cs = .ok () ↔ ∀ (i : Nat) e, cs[i]? ≠ some (.error e) := by
  induction cs with
  | nil => simp [inOrder]
  | cons c cs ih =>
    cases c with
    | error e' => exact ⟨nofun, fun none_fails => absurd rfl (none_fails 0 e')⟩
    | ok u =>
      refine (show inOrder cs = .ok () ↔ _ from ih).trans ⟨fun none_fails i e => ?_, ?_⟩
      · cases i with
        | zero => exact nofun
        | succ i => exact none_fails i e
      · exact fun none_fails i e => none_fails (i + 1) e

/-- Something that must hold, and what is wrong if it does not. -/
def require (holds : Prop) [Decidable holds] (fault : ConfigFault) : Except Error Unit :=
  if holds then .ok () else .error (.config fault)

/-- A requirement fails exactly if it does not hold, and then with its own fault. -/
theorem require_eq_error_iff {holds : Prop} [Decidable holds] {fault : ConfigFault} {e : Error} :
    require holds fault = .error e ↔ ¬ holds ∧ .config fault = e := by
  unfold require
  split <;> simp_all

/-! ### The checks -/

namespace Options

variable {parse : String → Except Url.Fault String}

/-- Options that pass all checks. The first is that the endpoint is read as a URL that can be dialed. -/
structure Sound (parse : String → Except Url.Fault String) (o : Options) : Prop where
  given : o.endpoint ≠ ""
  endpoint : ∃ scheme, parse o.endpoint = .ok scheme ∧ (scheme = "ws" ∨ scheme = "wss")
  apiKey : ∃ c ∈ o.apiKey.toList, Text.isBlankChar c = false
  poolSize : 1 ≤ o.poolSize
  authHeader : o.authHeader ≠ ""
  durations : ∀ d ∈ o.durations, 0 < d.2.nanos
  pings : o.pingPeriod < o.pongWait
  delays : o.reconnectBaseDelay ≤ o.reconnectMaxDelay

/-- What is wrong with options, the rank of the check that finds it, and the error. -/
inductive Defect (parse : String → Except Url.Fault String) (o : Options) : Nat → Error → Prop
  | endpointMissing (empty : o.endpoint = "") : Defect parse o 0 (.config .endpointMissing)
  | endpointInvalid {fault : Url.Fault} (given : o.endpoint ≠ "")
      (no_url : parse o.endpoint = .error fault) : Defect parse o 0 (.url fault)
  | schemeUnsupported {scheme : String} (given : o.endpoint ≠ "") (url : parse o.endpoint = .ok scheme)
      (other : scheme ≠ "ws" ∧ scheme ≠ "wss") :
      Defect parse o 0 (.config (.schemeUnsupported scheme o.endpoint))
  | keyMissing (blank : ∀ c ∈ o.apiKey.toList, Text.isBlankChar c = true) :
      Defect parse o 1 (.config .keyMissing)
  | noConnections (none_there : o.poolSize = 0) : Defect parse o 2 (.config .noConnections)
  | headerEmpty (empty : o.authHeader = "") : Defect parse o 3 (.config .headerEmpty)
  | zeroDuration {i : Nat} {name : String} {d : Duration} (here : o.durations[i]? = some (name, d))
      (zero : d.nanos = 0) : Defect parse o (i + 4) (.config (.zeroDuration name))
  | pingNotShorter (inverted : o.pongWait ≤ o.pingPeriod) :
      Defect parse o 11 (.config (.pingNotShorter o.pingPeriod o.pongWait))
  | delaysInverted (inverted : o.reconnectMaxDelay < o.reconnectBaseDelay) :
      Defect parse o 12 (.config (.delaysInverted o.reconnectBaseDelay o.reconnectMaxDelay))

/-- The error of the first check that fails. -/
def FirstDefect (parse : String → Except Url.Fault String) (o : Options) (e : Error) : Prop :=
  ∃ rank, o.Defect parse rank e ∧ ∀ rank' e', o.Defect parse rank' e' → rank ≤ rank'

/-- The checks that options go through, in order. -/
def checks (parse : String → Except Url.Fault String) (o : Options) : List (Except Error Unit) :=
  [Builder.checkEndpoint parse o.endpoint, Builder.checkKey o.apiKey, require (o.poolSize ≠ 0) .noConnections,
    require (o.authHeader ≠ "") .headerEmpty] ++
  ((o.durations.map fun d => require (d.2.nanos ≠ 0) (.zeroDuration d.1)) ++
  [require (¬ o.pongWait ≤ o.pingPeriod) (.pingNotShorter o.pingPeriod o.pongWait),
    require (¬ o.reconnectMaxDelay < o.reconnectBaseDelay)
      (.delaysInverted o.reconnectBaseDelay o.reconnectMaxDelay)])

/-- The durations are checked in order, and the first one that is zero is named. -/
theorem inOrder_durations (ds : List (String × Duration)) :
    inOrder (ds.map fun d => require (d.2.nanos ≠ 0) (.zeroDuration d.1)) =
      match ds.find? fun d => d.2.nanos == 0 with
      | some d => .error (.config (.zeroDuration d.1))
      | none => .ok () := by
  induction ds with
  | nil => rfl
  | cons d ds ih =>
    rw [List.map_cons, inOrder, ih]
    by_cases zero : d.2.nanos = 0 <;> simp [zero, require, Except.bind]

/-- The checks of a pool come behind those of the endpoint and of the key. -/
theorem validate_eq (parse : String → Except Url.Fault String) (o : Options) :
    o.validate = inOrder ((o.checks parse).drop 2) := by
  rw [checks, List.cons_append, List.cons_append, List.drop_succ_cons, List.drop_succ_cons, List.drop_zero,
    List.cons_append, List.cons_append, List.nil_append, inOrder, inOrder, inOrder_append,
    inOrder_durations, validate, fault?]
  by_cases none_there : o.poolSize = 0
  · simp [none_there, require, Except.bind]
  by_cases empty : o.authHeader = ""
  · simp [none_there, empty, require, Except.bind]
  cases o.durations.find? fun d => d.2.nanos == 0 with
  | some d => simp [none_there, empty, require, Except.bind]
  | none =>
    by_cases pings : o.pongWait ≤ o.pingPeriod
    · simp [none_there, empty, pings, require, inOrder, Except.bind]
    by_cases delays : o.reconnectMaxDelay < o.reconnectBaseDelay <;>
      simp [none_there, empty, pings, delays, require, inOrder, Except.bind]

/-- The checks of a build are those of the endpoint and of the key, and the validation of the options
behind them. -/
theorem inOrder_checks (parse : String → Except Url.Fault String) (o : Options) :
    inOrder (o.checks parse) = (Builder.checkEndpoint parse o.endpoint).bind fun _ =>
      (Builder.checkKey o.apiKey).bind fun _ => o.validate := by
  rw [validate_eq parse]
  rfl

/-- The check of the endpoint fails with the first of the defects. -/
theorem checkEndpoint_eq_error_iff {o : Options} {e : Error} :
    Builder.checkEndpoint parse o.endpoint = .error e ↔ o.Defect parse 0 e := by
  unfold Builder.checkEndpoint
  constructor
  · intro failed
    split at failed
    · next empty =>
      cases failed
      exact .endpointMissing (by simpa using empty)
    · next given =>
      split at failed
      · next fault no_url =>
        cases failed
        exact .endpointInvalid (by simpa using given) no_url
      · next scheme url =>
        split at failed
        · cases failed
        · next other =>
          cases failed
          exact .schemeUnsupported (by simpa using given) url (not_or.1 other)
  · intro defect
    cases defect with
    | endpointMissing empty => simp [empty]
    | endpointInvalid given no_url => simp [given, no_url]
    | schemeUnsupported given url other => simp [given, url, other]

/-- The check of the key fails with the second of the defects. -/
theorem checkKey_eq_error_iff {o : Options} {e : Error} :
    Builder.checkKey o.apiKey = .error e ↔ o.Defect parse 1 e := by
  unfold Builder.checkKey Text.isBlank
  constructor
  · intro failed
    split at failed
    · next blank =>
      cases failed
      exact .keyMissing (List.all_eq_true.1 blank)
    · cases failed
  · intro defect
    cases defect with
    | keyMissing blank => rw [if_pos (List.all_eq_true.2 blank)]

/-- The defects of durations are found by the checks of these. -/
theorem zeroDuration_iff {o : Options} {i : Nat} {e : Error} (inside : i < 7) :
    (o.checks parse)[i + 4]? = some (.error e) ↔
      ∃ name d, o.durations[i]? = some (name, d) ∧ d.nanos = 0 ∧ .config (.zeroDuration name) = e := by
  have among : (o.checks parse)[i + 4]? =
      (o.durations.map fun d => require (d.2.nanos ≠ 0) (.zeroDuration d.1))[i]? := by
    simp only [checks, List.cons_append, List.nil_append, List.getElem?_cons_succ]
    exact List.getElem?_append_left inside
  simp [among, require_eq_error_iff]

/-- A defect has the rank of the check that fails with its error. -/
theorem defect_iff {o : Options} {rank : Nat} {e : Error} :
    o.Defect parse rank e ↔ (o.checks parse)[rank]? = some (.error e) := by
  constructor
  · intro defect
    cases defect with
    | endpointMissing empty => exact congrArg some (checkEndpoint_eq_error_iff.2 (.endpointMissing empty))
    | endpointInvalid given no_url =>
      exact congrArg some (checkEndpoint_eq_error_iff.2 (.endpointInvalid given no_url))
    | schemeUnsupported given url other =>
      exact congrArg some (checkEndpoint_eq_error_iff.2 (.schemeUnsupported given url other))
    | keyMissing blank =>
      have defect : o.Defect parse 1 (.config .keyMissing) := .keyMissing blank
      exact congrArg some (checkKey_eq_error_iff.2 defect)
    | noConnections none_there => simp [checks, require, none_there]
    | headerEmpty empty => simp [checks, require, empty]
    | zeroDuration here zero =>
      have inside := (List.getElem?_eq_some_iff.1 here).1
      exact (zeroDuration_iff inside).2 ⟨_, _, here, zero, rfl⟩
    | pingNotShorter inverted => simp [checks, durations, require, inverted]
    | delaysInverted inverted => simp [checks, durations, require, inverted]
  · intro failed
    match rank with
    | 0 => exact checkEndpoint_eq_error_iff.1 (Option.some.inj failed)
    | 1 => exact checkKey_eq_error_iff.1 (Option.some.inj failed)
    | 2 =>
      obtain ⟨none_there, rfl⟩ := require_eq_error_iff.1 (Option.some.inj failed)
      exact .noConnections (not_not.1 none_there)
    | 3 =>
      obtain ⟨empty, rfl⟩ := require_eq_error_iff.1 (Option.some.inj failed)
      exact .headerEmpty (not_not.1 empty)
    | i + 4 =>
      obtain inside | rfl | rfl | beyond : i < 7 ∨ i = 7 ∨ i = 8 ∨ 9 ≤ i := by omega
      · obtain ⟨name, d, here, zero, rfl⟩ := (zeroDuration_iff inside).1 failed
        exact .zeroDuration here zero
      · obtain ⟨inverted, rfl⟩ := require_eq_error_iff.1 (Option.some.inj failed)
        exact .pingNotShorter (not_not.1 inverted)
      · obtain ⟨inverted, rfl⟩ := require_eq_error_iff.1 (Option.some.inj failed)
        exact .delaysInverted (not_not.1 inverted)
      · have none_there : (o.checks parse)[i + 4]? = none :=
          List.getElem?_eq_none (Nat.add_le_add_right beyond 4)
        cases none_there.symm.trans failed

/-- Options are sound if nothing is wrong with them. -/
theorem sound_iff {o : Options} : o.Sound parse ↔ ∀ rank e, ¬ o.Defect parse rank e := by
  constructor
  · rintro ⟨given, ⟨scheme, url, known⟩, ⟨c, member, printed⟩, size, header, durations, pings, delays⟩ rank e defect
    cases defect with
    | endpointMissing empty => exact given empty
    | endpointInvalid _ no_url => cases url.symm.trans no_url
    | schemeUnsupported _ url' other =>
      obtain rfl := Except.ok.inj (url.symm.trans url')
      exact known.elim other.1 other.2
    | keyMissing blank => exact absurd (blank c member) (by simp [printed])
    | noConnections none_there => exact absurd size (by simp [none_there])
    | headerEmpty empty => exact header empty
    | zeroDuration here zero =>
      exact absurd zero (Nat.ne_of_gt (durations _ (List.mem_of_getElem? here)))
    | pingNotShorter inverted => exact absurd pings (Nat.not_lt.2 inverted)
    | delaysInverted inverted => exact absurd delays (Nat.not_le.2 inverted)
  · intro no_defect
    have given : o.endpoint ≠ "" := fun empty => no_defect 0 _ (.endpointMissing empty)
    refine ⟨given, ?_, ?_, ?_, ?_, ?_, ?_, ?_⟩
    · cases url : parse o.endpoint with
      | error fault => exact absurd (.endpointInvalid given url) (no_defect 0 _)
      | ok scheme =>
        refine ⟨scheme, rfl, ?_⟩
        by_contra other
        exact no_defect 0 _ (.schemeUnsupported given url (not_or.1 other))
    · by_contra blank
      push Not at blank
      exact no_defect 1 _ (.keyMissing (by simpa using blank))
    · exact Nat.one_le_iff_ne_zero.2 fun none_there => no_defect 2 _ (.noConnections none_there)
    · exact fun empty => no_defect 3 _ (.headerEmpty empty)
    · rintro ⟨name, d⟩ member
      obtain ⟨i, here⟩ := List.getElem?_of_mem member
      exact Nat.pos_of_ne_zero fun zero => no_defect (i + 4) _ (.zeroDuration here zero)
    · exact Nat.lt_of_not_le fun inverted => no_defect 11 _ (.pingNotShorter inverted)
    · exact Nat.le_of_not_lt fun inverted => no_defect 12 _ (.delaysInverted inverted)

/-- There is one first defect. -/
theorem FirstDefect.unique {o : Options} {e e' : Error} (first : o.FirstDefect parse e)
    (first' : o.FirstDefect parse e') : e = e' := by
  obtain ⟨rank, defect, least⟩ := first
  obtain ⟨rank', defect', least'⟩ := first'
  obtain rfl : rank = rank' := Nat.le_antisymm (least rank' e' defect') (least' rank e defect)
  have same := (defect_iff.1 defect).symm.trans (defect_iff.1 defect')
  exact Except.error.inj (Option.some.inj same)

/-- Options that have a first defect are not sound. -/
theorem FirstDefect.not_sound {o : Options} {e : Error} (first : o.FirstDefect parse e) :
    ¬ o.Sound parse := by
  obtain ⟨rank, defect, -⟩ := first
  exact fun sound => sound_iff.1 sound rank e defect

/-- Sound options pass the validation. -/
theorem Sound.validate_eq {o : Options} (sound : o.Sound parse) : o.validate = .ok () := by
  rw [Options.validate_eq parse, inOrder_eq_ok_iff]
  intro i e failed
  rw [List.getElem?_drop] at failed
  exact sound_iff.1 sound (2 + i) e (defect_iff.2 failed)

end Options

/-! ### The pool that is built -/

namespace Pool

/-- A pool that was just made, and all whose slots are dialed. -/
structure Dialing (o : Options) (p : Pool) (events : List Event) : Prop where
  options : p.options = o
  events : events = p.dials.map Event.dialed
  slots : p.dials.map Dial.slot = List.range o.poolSize

/-- In a new pool every slot is to be dialed. -/
theorem Made.targets {o : Options} {p : Pool} (made : Made o p) : p.targets = List.range o.poolSize := by
  have dead (slot : Nat) : p.isLive slot = false := by
    simp [isLive, slotConnection?, made.fresh.connections]
  have free (slot : Nat) : p.tokenOf? slot = none := by simp [tokenOf?, made.fresh.reconnecting]
  have length : p.slots.length = o.poolSize := by rw [made.fresh.slots, List.length_replicate, made.options]
  rw [Pool.targets, length]
  exact List.filter_eq_self.2 fun slot _ => by simp [dead, free]

/-- A pool that has just been made, and has a slot, dials when it is connected. -/
theorem Made.dialing {o : Options} {p : Pool} (made : Made o p) (some_there : 1 ≤ o.poolSize) (now : Nat) :
    Dialing o (p.connect now).1 (p.connect now).2 := by
  have settled : Over p.nextTicket p := ⟨by simp [made.fresh.rounds], by simp [made.fresh.dials]⟩
  have slots : (p.roundDials now).map Dial.slot = List.range o.poolSize :=
    (slots_roundDials p now).trans made.targets
  have waits : ∃ d ∈ p.roundDials now, endOf? d ((p.roundDials now).map Event.dialed) = none := by
    have first : 0 ∈ (p.roundDials now).map Dial.slot := slots ▸ List.mem_range.2 some_there
    obtain ⟨d, member, -⟩ := List.mem_map.1 first
    exact ⟨d, member, endOf?_map_dialed d _⟩
  have underway := Underway.of_beginRound now settled
  rw [connect_eq made.fresh.closed, underway.settleRound_of_waits waits]
  refine ⟨made.options, ?_, ?_⟩
  · simp [beginRound, made.fresh.dials]
  · simp [beginRound, made.fresh.dials, slots]

end Pool

/-! ### Building -/

namespace Builder

variable {parse : String → Except Url.Fault String}

/-- A builder gives the options that it has merged, if they pass all checks. -/
theorem settle_eq (parse : String → Except Url.Fault String) (b : Builder) :
    b.settle parse = (inOrder (b.merged.checks parse)).map fun _ => b.merged := by
  rw [Options.inOrder_checks, settle]
  cases checkEndpoint parse b.merged.endpoint with
  | error e => rfl
  | ok _ =>
    cases checkKey b.merged.apiKey with
    | error e => rfl
    | ok _ => cases b.merged.validate <;> rfl

/-- The options that are settled are sound, and what else there is, is the first defect. -/
theorem settle_cases (parse : String → Except Url.Fault String) (b : Builder) :
    b.settle parse = .ok b.merged ∧ b.merged.Sound parse ∨
      ∃ e, b.settle parse = .error e ∧ b.merged.FirstDefect parse e := by
  rw [settle_eq]
  cases checked : inOrder (b.merged.checks parse) with
  | ok _ =>
    refine .inl ⟨rfl, Options.sound_iff.2 fun rank e defect => ?_⟩
    exact inOrder_eq_ok_iff.1 checked rank e (Options.defect_iff.1 defect)
  | error e =>
    obtain ⟨rank, here, first⟩ := inOrder_eq_error_iff.1 checked
    refine .inr ⟨e, rfl, rank, Options.defect_iff.2 here, fun rank' e' defect => ?_⟩
    exact first rank' e' (Options.defect_iff.1 defect)

/-- What comes of building from some options. -/
inductive Building (parse : String → Except Url.Fault String) (o : Options) :
    Except Pool.Failure Pool × List Pool.Event → Prop
  | built {pool : Pool} {events : List Pool.Event} (sound : o.Sound parse)
      (room : o.poolSize ≤ Pool.maxSlots) (dialing : Pool.Dialing o pool events) :
      Building parse o (.ok pool, events)
  | panics (sound : o.Sound parse) (crowded : Pool.maxSlots < o.poolSize) :
      Building parse o (.error .panic, [])
  | refused {e : Error} (first : o.FirstDefect parse e) : Building parse o (.error (.error e), [])

/-- From sound options a pool is made that dials its slots, if there is room for these. -/
theorem Building.of_build (parse : String → Except Url.Fault String) (b : Builder) (now : Nat) :
    Building parse b.merged (b.build parse now) := by
  unfold build
  rcases b.settle_cases parse with ⟨settled, sound⟩ | ⟨e, failed, first⟩
  · have making := Pool.Making.of_new b.merged
    have bound : ((b.settle parse).mapError Pool.Failure.error).bind Pool.new = Pool.new b.merged := by
      rw [settled]
      rfl
    rw [bound]
    cases made : Pool.new b.merged with
    | error failure =>
      rw [made] at making
      cases making with
      | refused failed => cases failed.symm.trans sound.validate_eq
      | panics _ crowded => exact .panics sound crowded
    | ok pool =>
      have made := Pool.Made.of_new made
      exact .built sound made.room (made.dialing sound.poolSize now)
  · rw [failed]
    exact .refused first

/-- What building comes to, however URLs are read. A pool is built exactly from sound options that there
is room for: those that the choices result in. It dials its slots at once. If there is no room then who
builds breaks down. From other options nothing is built, and the first defect is the error. Whenever
nothing is built, nothing is dialed. -/
theorem build_iff_sound_and_fits (parse : String → Except Url.Fault String) (steps : List Step)
    (now : Nat) :
    ((∃ pool, ((ofSteps steps).build parse now).1 = .ok pool) ↔
      (chosen steps).Sound parse ∧ (chosen steps).poolSize ≤ Pool.maxSlots) ∧
    (∀ pool, ((ofSteps steps).build parse now).1 = .ok pool →
      Pool.Dialing (chosen steps) pool ((ofSteps steps).build parse now).2) ∧
    (((ofSteps steps).build parse now).1 = .error .panic ↔
      (chosen steps).Sound parse ∧ Pool.maxSlots < (chosen steps).poolSize) ∧
    (∀ e, ((ofSteps steps).build parse now).1 = .error (.error e) ↔
      (chosen steps).FirstDefect parse e) ∧
    (∀ failure, ((ofSteps steps).build parse now).1 = .error failure →
      ((ofSteps steps).build parse now).2 = []) := by
  have building := Building.of_build parse (ofSteps steps) now
  rw [merged_ofSteps] at building
  generalize (ofSteps steps).build parse now = result at building
  cases building with
  | @built pool events sound room dialing =>
    refine ⟨iff_of_true ⟨pool, rfl⟩ ⟨sound, room⟩, ?_, iff_of_false nofun ?_, ?_, nofun⟩
    · rintro _ ⟨⟩
      exact dialing
    · exact fun ⟨_, crowded⟩ => absurd room (Nat.not_le_of_lt crowded)
    · exact fun e => iff_of_false nofun fun first => first.not_sound sound
  | panics sound crowded =>
    refine ⟨iff_of_false nofun ?_, nofun, iff_of_true rfl ⟨sound, crowded⟩, ?_, fun _ _ => rfl⟩
    · exact fun ⟨_, room⟩ => absurd room (Nat.not_le_of_lt crowded)
    · exact fun e => iff_of_false nofun fun first => first.not_sound sound
  | @refused e first =>
    refine ⟨iff_of_false nofun ?_, nofun, iff_of_false nofun ?_, fun e' => ⟨?_, ?_⟩, fun _ _ => rfl⟩
    · exact fun ⟨sound, _⟩ => first.not_sound sound
    · exact fun ⟨sound, _⟩ => first.not_sound sound
    · rintro ⟨⟩
      exact first
    · intro first'
      rw [first.unique first']

/-- The most slots that a machine word can count pass all checks, and there is no room for them. -/
example : ((ofSteps [.endpoint "ws://server/ws", .apiKey "key", .poolSize (2 ^ 64 - 1)]).build
    (fun _ => .ok "ws") 0).1 = .error .panic := by rfl

end Builder

end CallPool
