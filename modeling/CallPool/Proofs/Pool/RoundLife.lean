import CallPool.Proofs.Pool.Callers
import CallPool.Proofs.Pool.Entries
import CallPool.Proofs.Pool.Rounds

/-!
# The life of a connection round

A round that has begun knows for each of its dials whether and how that has ended (`Underway`), and
stays until the last one has. Then it settles: the slots that failed get reconnectors and the caller
gets the number of live connections (`Settled`). A round is under way, settled, or dropped with its
caller (`Stage`), and no action but the ends of its dials brings it on (`Stage.extend`).
-/

set_option autoImplicit false

namespace CallPool.Pool

/-! ## What is told of dials -/

/-- How a dial ended, if an event tells it. -/
def Event.endOf? (d : Dial) : Event → Option (Except Error Unit)
  | .dialEnded e result => if e = d then some result else none
  | _ => none

/-- How a dial ended, by what was told. -/
def endOf? (d : Dial) (es : List Event) : Option (Except Error Unit) := es.findSome? (Event.endOf? d)

/-- A dial ends in one list behind another as it does in the first of them in which it ends. -/
theorem endOf?_append (d : Dial) (es es' : List Event) :
    endOf? d (es ++ es') = (endOf? d es).or (endOf? d es') := List.findSome?_append

/-- A dial that has ended is told to have ended so. -/
theorem mem_of_endOf? {d : Dial} {es : List Event} {result : Except Error Unit}
    (ended : endOf? d es = some result) : Event.dialEnded d result ∈ es := by
  obtain ⟨e, member, told⟩ := List.exists_of_findSome?_eq_some ended
  cases e with
  | dialEnded x _ =>
    simp only [Event.endOf?, Option.ite_none_right_eq_some, Option.some.injEq] at told
    obtain ⟨rfl, rfl⟩ := told
    exact member
  | _ => cases told

/-- That a dial begins does not tell how one ended. -/
theorem endOf?_map_dialed (d : Dial) (dials : List Dial) : endOf? d (dials.map Event.dialed) = none := by
  apply List.findSome?_eq_none_iff.2
  intro e member
  obtain ⟨x, _, rfl⟩ := List.mem_map.1 member
  rfl

/-- Where nothing is told of a round its dials do not end. -/
theorem endOf?_eq_none_of_quiet {t : Ticket} {d : Dial} {es : List Event} (mine : d.owner = .round t)
    (quiet : ∀ e ∈ es, e.isRound t = false) : endOf? d es = none := by
  apply List.findSome?_eq_none_iff.2
  intro e member
  have unconcerned := quiet e member
  cases e with
  | dialEnded x result =>
    have other : x ≠ d := by
      rintro rfl
      rw [Event.isRound, Dial.isIn_iff.2 mine] at unconcerned
      cases unconcerned
    exact if_neg other
  | _ => rfl

/-- The dial of the round with a ticket, if an event tells that it begins. -/
def Event.dialIn? (t : Ticket) : Event → Option Dial
  | .dialed d => if d.isIn t then some d else none
  | _ => none

/-- The dials that were begun for the round with a ticket, in order. -/
def dialsIn (t : Ticket) (es : List Event) : List Dial := es.filterMap (Event.dialIn? t)

/-- The dials of a round in one list behind another are those in both, in order. -/
@[simp] theorem dialsIn_append (t : Ticket) (es es' : List Event) :
    dialsIn t (es ++ es') = dialsIn t es ++ dialsIn t es' := by
  simp [dialsIn]

/-- Where no dial of a round is told to begin there is none. -/
theorem dialsIn_eq_nil {t : Ticket} {es : List Event} (h : ∀ d, d.isIn t = true → Event.dialed d ∉ es) :
    dialsIn t es = [] := by
  apply List.filterMap_eq_nil_iff.2
  intro e member
  cases e with
  | dialed d => exact if_neg fun mine => h d mine member
  | _ => rfl

/-- Where nothing is told of a round it begins no dial. -/
theorem dialsIn_of_quiet {t : Ticket} {es : List Event} (quiet : ∀ e ∈ es, e.isRound t = false) :
    dialsIn t es = [] := by
  refine dialsIn_eq_nil fun d mine member => ?_
  have unconcerned := quiet _ member
  rw [Event.isRound, mine] at unconcerned
  cases unconcerned

/-! ## The dials of a round -/

/-- The dials that are begun one after the other for some slots. -/
def dialsFrom (now : Nat) (owner : Owner) : Ticket → List Nat → List Dial
  | _, [] => []
  | next, slot :: rest => ⟨next, slot, owner, now⟩ :: dialsFrom now owner (next + 1) rest

section

variable {t : Ticket} {now : Nat} {owner : Owner}

/-- Dialing some slots begins one dial for each, in order. -/
theorem dialAll_eq (p : Pool) (slots : List Nat) : p.dialAll now owner slots =
    ({ p with
        dials := p.dials ++ dialsFrom now owner p.nextTicket slots
        nextTicket := p.nextTicket + slots.length },
      (dialsFrom now owner p.nextTicket slots).map Event.dialed) := by
  induction slots generalizing p with
  | nil =>
    unfold dialAll dialsFrom
    rw [List.append_nil]
    rfl
  | cons slot rest ih =>
    have counted : p.nextTicket + 1 + rest.length = p.nextTicket + (rest.length + 1) :=
      Nat.add_right_comm ..
    simp [dialAll, dialsFrom, ih, Pool.dial, counted]

/-- The dials for some slots are made for those slots. -/
theorem slots_dialsFrom (next : Ticket) (slots : List Nat) :
    (dialsFrom now owner next slots).map Dial.slot = slots := by
  induction slots generalizing next with
  | nil => rfl
  | cons slot rest ih => exact congrArg (slot :: ·) (ih (next + 1))

/-- The dials for some slots have consecutive tickets. -/
theorem tickets_dialsFrom (next : Ticket) (slots : List Nat) :
    (dialsFrom now owner next slots).map Dial.ticket = List.range' next slots.length := by
  induction slots generalizing next with
  | nil => rfl
  | cons slot rest ih => exact congrArg (next :: ·) (ih (next + 1))

/-- The dials for some slots have one owner. -/
theorem owner_of_mem_dialsFrom {next : Ticket} {slots : List Nat} {d : Dial}
    (member : d ∈ dialsFrom now owner next slots) : d.owner = owner := by
  induction slots generalizing next with
  | nil => cases member
  | cons slot rest ih =>
    rcases List.mem_cons.1 member with rfl | later
    · rfl
    · exact ih later

end

/-- The dials that begin a round. -/
def roundDials (p : Pool) (now : Nat) : List Dial :=
  dialsFrom now (.round p.nextTicket) (p.nextTicket + 1) p.targets

/-- A pool in which a round has begun its dials. -/
def beginRound (p : Pool) (now : Nat) : Pool := { p with
  rounds := p.rounds ++ [⟨p.nextTicket, p.targets.map fun slot => (slot, none)⟩]
  dials := p.dials ++ p.roundDials now
  nextTicket := p.nextTicket + 1 + p.targets.length }

/-- A round of an open pool begins its dials, and settles at once if there are none. -/
theorem connect_eq {p : Pool} {now : Nat} (isOpen : p.closed = false) : p.connect now =
    (((p.beginRound now).settleRound now p.nextTicket).1,
      (p.roundDials now).map Event.dialed ++ ((p.beginRound now).settleRound now p.nextTicket).2) := by
  have targets : p.takeTicket.2.targets = p.targets := rfl
  have shut : p.takeTicket.2.closed = false := isOpen
  unfold connect
  dsimp only
  rw [if_neg (by simp [shut]), targets, dialAll_eq]
  rfl

/-- Some dials are those of one round: one for each of some slots. -/
structure Lineup (t : Ticket) (dials : List Dial) : Prop where
  owner : ∀ d ∈ dials, d.owner = .round t
  tickets : (dials.map Dial.ticket).Nodup
  slots : (dials.map Dial.slot).Nodup

/-- A round dials its targets. -/
theorem slots_roundDials (p : Pool) (now : Nat) : (p.roundDials now).map Dial.slot = p.targets :=
  slots_dialsFrom _ _

/-- The dials that begin a round are in a line. -/
theorem Lineup.of_roundDials (p : Pool) (now : Nat) : Lineup p.nextTicket (p.roundDials now) where
  owner := fun _ => owner_of_mem_dialsFrom
  tickets := by
    unfold roundDials
    rw [tickets_dialsFrom]
    exact List.nodup_range'
  slots := by
    rw [slots_roundDials]
    exact List.nodup_range.filter _

/-! ## A round under way -/

/-- A round has begun some dials, and what was told since says which of them have ended, and how. -/
structure Underway (t : Ticket) (dials : List Dial) (es : List Event) (p : Pool) : Prop where
  round : p.rounds.find? (fun r => r.ticket = t) =
    some ⟨t, dials.map fun d => (d.slot, endOf? d es)⟩
  dials : p.dials.filter (Dial.isIn t) = dials.filter fun d => (endOf? d es).isNone

/-- The slots of a round whose dials have failed. -/
def failedSlots (dials : List Dial) (es : List Event) : List Nat :=
  (dials.filter fun d => (endOf? d es).any fun result => !result.isOk).map Dial.slot

/-- A round has returned a number to its caller. -/
structure Settled (dials : List Dial) (es : List Event) (p : Pool) (count : Nat) : Prop where
  ended : ∀ d ∈ dials, (endOf? d es).isSome = true
  count : count = p.liveCount
  recovering : p.closed = false → ∀ s ∈ failedSlots dials es, ∃ token, (s, token) ∈ p.reconnecting

namespace Underway

variable {t : Ticket} {dials : List Dial} {p p' q : Pool} {past es : List Event} {now : Nat}

/-- What does not concern a round leaves it under way. -/
theorem of_bystands (h : Underway t dials past p) (lineup : Lineup t dials)
    (bystands : Bystands t p es p') : Underway t dials (past ++ es) p' := by
  have same : ∀ d ∈ dials, endOf? d (past ++ es) = endOf? d past := by
    intro d member
    rw [endOf?_append, endOf?_eq_none_of_quiet (lineup.owner d member) bystands.quiet, Option.or_none]
  refine ⟨?_, ?_⟩
  · rw [bystands.round, h.round]
    congr 2
    exact List.map_congr_left fun d member => by rw [same d member]
  · rw [bystands.dials, h.dials]
    exact List.filter_congr fun d member => by rw [same d member]

/-- A dial of the round that is under way is one of those that it has begun. -/
theorem mem_dials (h : Underway t dials past p) {d : Dial} (member : d ∈ p.dials)
    (owner : d.owner = .round t) : d ∈ dials ∧ endOf? d past = none := by
  have listed : d ∈ p.dials.filter (Dial.isIn t) := List.mem_filter.2 ⟨member, Dial.isIn_iff.2 owner⟩
  rw [h.dials] at listed
  obtain ⟨mine, unended⟩ := List.mem_filter.1 listed
  exact ⟨mine, Option.isNone_iff_eq_none.1 unended⟩

/-- The end of a dial of the round is entered for its slot, and changes nothing for the others. -/
theorem of_ended (h : Underway t dials past p) (lineup : Lineup t dials) {d : Dial}
    (member : d ∈ p.dials) (owner : d.owner = .round t) (rounds : q.rounds = p.rounds)
    (same_dials : q.dials = p.dials) {front : List Event}
    (quiet : ∀ e ∈ front, e.isRound t = false) (result : Except Error Unit) :
    Underway t dials (past ++ front ++ [.dialEnded d result]) (q.enter t d result) := by
  obtain ⟨mine, unended⟩ := h.mem_dials member owner
  have told : ∀ e ∈ dials, endOf? e (past ++ front ++ [.dialEnded d result]) =
      if e = d then some result else endOf? e past := by
    intro e e_member
    rw [endOf?_append, endOf?_append, endOf?_eq_none_of_quiet (lineup.owner e e_member) quiet,
      Option.or_none]
    by_cases same : e = d
    · rw [if_pos same, same, unended]
      simp [endOf?, Event.endOf?]
    · have other : endOf? e [.dialEnded d result] = none := by simp [endOf?, Event.endOf?, Ne.symm same]
      rw [if_neg same, other, Option.or_none]
  refine ⟨?_, ?_⟩
  · have found : q.rounds.find? (fun r => r.ticket = t) =
        some ⟨t, dials.map fun d => (d.slot, endOf? d past)⟩ := by
      rw [rounds]
      exact h.round
    change (q.rounds.map _).find? _ = _
    rw [List.find?_map]
    have tickets : ((fun r : Round => decide (r.ticket = t)) ∘ fun r : Round => if r.ticket = t then
        { r with results := r.results.map fun e => if e.1 = d.slot then (e.1, some result) else e }
        else r) = fun r => decide (r.ticket = t) := by
      funext r
      by_cases this : r.ticket = t
      · simp [this]
      · simp [this]
    rw [tickets, found, Option.map_some, if_pos rfl, List.map_map]
    congr 2
    refine List.map_congr_left fun e e_member => ?_
    rw [told e e_member]
    by_cases same : e = d
    · simp [same]
    · have apart : e.slot ≠ d.slot :=
        fun slot => same (List.inj_on_of_nodup_map lineup.slots e_member mine slot)
      simp [same, apart]
  · change (q.dials.filter _).filter _ = _
    rw [same_dials, List.filter_comm, h.dials, List.filter_filter]
    refine List.filter_congr fun e e_member => ?_
    rw [told e e_member]
    by_cases same : e = d
    · simp [same]
    · have apart : e.ticket ≠ d.ticket :=
        fun ticket => same (List.inj_on_of_nodup_map lineup.tickets e_member mine ticket)
      simp [same, apart]

/-- A round that begins has all its dials under way. -/
theorem of_beginRound (now : Nat) (absent : Over p.nextTicket p) :
    Underway p.nextTicket (p.roundDials now) ((p.roundDials now).map Event.dialed) (p.beginRound now) := by
  have unended : ∀ d, endOf? d ((p.roundDials now).map Event.dialed) = none :=
    fun d => endOf?_map_dialed d _
  have mine : (p.roundDials now).filter (Dial.isIn p.nextTicket) = p.roundDials now :=
    List.filter_eq_self.2 fun d member => Dial.isIn_iff.2 (owner_of_mem_dialsFrom member)
  refine ⟨?_, ?_⟩
  · have results : p.targets.map (fun slot => (slot, (none : Option (Except Error Unit)))) =
        (p.roundDials now).map fun d => (d.slot, endOf? d ((p.roundDials now).map Event.dialed)) := by
      rw [← slots_roundDials p now, List.map_map]
      exact List.map_congr_left fun d _ => by rw [unended d]; rfl
    unfold beginRound
    rw [List.find?_append, absent.round, results]
    simp
  · unfold beginRound
    rw [List.filter_append, absent.dials, mine, List.nil_append]
    exact (List.filter_eq_self.2 fun d _ => by rw [unended d]; rfl).symm

/-- A round some of whose dials are under way goes on. -/
theorem settleRound_of_waits (h : Underway t dials past p)
    (waits : ∃ d ∈ dials, endOf? d past = none) : p.settleRound now t = (p, []) := by
  have unsettled : ¬ ((dials.map fun d => (d.slot, endOf? d past)).all fun e => e.2.isSome) = true := by
    obtain ⟨d, member, unended⟩ := waits
    intro all_ended
    have ended := List.all_eq_true.1 all_ended _ (List.mem_map_of_mem member)
    rw [unended] at ended
    cases ended
  unfold settleRound
  rw [h.round]
  dsimp only
  rw [if_neg unsettled]

/-- A round all of whose dials have ended settles: the slots that failed get reconnectors, and the
caller gets the number of live connections. -/
theorem settleRound_of_ended (h : Underway t dials past p)
    (ended : ∀ d ∈ dials, (endOf? d past).isSome = true) : p.settleRound now t =
      let q := Pool.recoverAll { p with rounds := p.rounds.filter fun r => r.ticket ≠ t } now
        (failedSlots dials past)
      (q.1, q.2 ++ [.finished t (.ok (.live q.1.liveCount))]) := by
  have settles : ((dials.map fun d => (d.slot, endOf? d past)).all fun e => e.2.isSome) = true := by
    rw [List.all_map]
    exact List.all_eq_true.2 ended
  have failed : ((dials.map fun d => (d.slot, endOf? d past)).filter fun e =>
      e.2.any fun result => !result.isOk).map Prod.fst = failedSlots dials past := by
    rw [List.filter_map, List.map_map]
    rfl
  unfold settleRound
  rw [h.round]
  dsimp only
  rw [if_pos settles, failed]

end Underway

/-- Slots of an open pool that are recovered have reconnectors. -/
theorem exists_reconnecting_recoverAll {p : Pool} {now : Nat} {slots : List Nat}
    (isOpen : p.closed = false) {s : Nat} (member : s ∈ slots) :
    ∃ token, (s, token) ∈ (p.recoverAll now slots).1.reconnecting := by
  induction slots generalizing p with
  | nil => cases member
  | cons slot rest ih =>
    rcases List.mem_cons.1 member with rfl | later
    · obtain ⟨token, there⟩ : ∃ token, (s, token) ∈ (p.recover now s).1.reconnecting :=
        exists_reconnecting_recover isOpen s
      exact ⟨token, mem_reconnecting_recoverAll (p := (p.recover now s).1) there⟩
    · exact ih ((Bookkeeping.recover p now slot).closed.trans isOpen) later

/-! ## From the beginning to the end -/

/-- How far the round with a ticket has come in some moments, from its start on. -/
inductive Stage (t : Ticket) (dials : List Dial) (moments : List Moment) (p : Pool) : Prop
  | waits (underway : Underway t dials (eventsOf moments) p)
      (waiting : ∃ d ∈ dials, endOf? d (eventsOf moments) = none)
  | returned {count : Nat} (absent : Over t p)
      (told : Event.finished t (.ok (.live count)) ∈ eventsOf moments)
  | dropped {m : Moment} (absent : Over t p) (member : m ∈ moments) (cancels : m.action = .cancel t)

/-- A round that settles begins no dial. -/
theorem dialed_not_mem_settleRound (p : Pool) (now : Nat) (t : Ticket) (d : Dial) :
    Event.dialed d ∉ (p.settleRound now t).2 := by
  intro member
  rcases mem_settleRound member with ⟨_, _, _, same, _⟩ | ⟨_, same⟩
  · cases same
  · cases same

/-- The number that a round returns is told of that round. -/
theorem isRound_of_live {t : Ticket} {count : Nat} :
    (Event.finished t (.ok (.live count))).isRound t = true := decide_eq_true rfl

namespace Stage

variable {t : Ticket} {dials : List Dial} {p p' q : Pool} {moments : List Moment} {m : Moment}
  {past es : List Event} {now count : Nat}

/-- A round whose caller is told settles at that moment, after all its dials have ended. -/
theorem of_settle (underway : Underway t dials past q) (lineup : Lineup t dials)
    (settles : q.settleRound now t = (p', es)) (seen : eventsOf moments = past ++ es) :
    Stage t dials moments p' ∧ ∀ count, Event.finished t (.ok (.live count)) ∈ es →
      Settled dials (eventsOf moments) p' count := by
  by_cases waiting : ∃ d ∈ dials, endOf? d past = none
  · rw [underway.settleRound_of_waits waiting] at settles
    obtain ⟨rfl, rfl⟩ := Prod.mk.inj settles
    rw [List.append_nil] at seen
    refine ⟨.waits ?_ ?_, fun _ told => absurd told List.not_mem_nil⟩
    · rw [seen]
      exact underway
    · rw [seen]
      exact waiting
  · have ended : ∀ d ∈ dials, (endOf? d past).isSome = true := by
      intro d member
      rw [Option.isSome_iff_ne_none]
      exact fun unended => waiting ⟨d, member, unended⟩
    rw [underway.settleRound_of_ended ended] at settles
    have left : Over t { q with rounds := q.rounds.filter fun r => r.ticket ≠ t } := by
      refine ⟨List.find?_eq_none.2 fun r member => by simpa using (List.mem_filter.1 member).2, ?_⟩
      rw [underway.dials, List.filter_eq_nil_iff]
      intro d member
      simpa [Option.isNone_iff_eq_none, Option.isSome_iff_ne_none] using ended d member
    have recovered : Bystands t { q with rounds := q.rounds.filter fun r => r.ticket ≠ t } _ _ :=
      .recoverAll _ now (failedSlots dials past)
    have books := Bookkeeping.recoverAll { q with rounds := q.rounds.filter fun r => r.ticket ≠ t } now
      (failedSlots dials past)
    have staffed : q.closed = false → ∀ s ∈ failedSlots dials past, ∃ token,
        (s, token) ∈ (Pool.recoverAll { q with rounds := q.rounds.filter fun r => r.ticket ≠ t } now
          (failedSlots dials past)).1.reconnecting := by
      intro isOpen s member
      refine exists_reconnecting_recoverAll ?_ member
      exact isOpen
    dsimp only at settles
    generalize Pool.recoverAll { q with rounds := q.rounds.filter fun r => r.ticket ≠ t } now
      (failedSlots dials past) = recovery at settles recovered books staffed
    obtain ⟨rfl, rfl⟩ := Prod.mk.inj settles
    have quiet : ∀ d ∈ dials, endOf? d (eventsOf moments) = endOf? d past := by
      intro d member
      have last : endOf? d [Event.finished t (.ok (.live recovery.1.liveCount))] = none := rfl
      rw [seen, endOf?_append, endOf?_append, last,
        endOf?_eq_none_of_quiet (lineup.owner d member) recovered.quiet, Option.or_none, Option.or_none]
    have told : Event.finished t (.ok (.live recovery.1.liveCount)) ∈ eventsOf moments := by
      rw [seen]
      simp
    refine ⟨.returned (left.of_bystands recovered) told, ?_⟩
    · intro count told
      have counted : count = recovery.1.liveCount := by
        rcases List.mem_append.1 told with early | last
        · have unconcerned := recovered.quiet _ early
          rw [isRound_of_live] at unconcerned
          cases unconcerned
        · simpa using last
      refine ⟨fun d member => by rw [quiet d member]; exact ended d member, counted, ?_⟩
      intro isOpen s member
      have same : failedSlots dials (eventsOf moments) = failedSlots dials past := by
        unfold failedSlots
        congr 1
        exact List.filter_congr fun d member => by rw [quiet d member]
      rw [same] at member
      exact staffed (books.closed.symm.trans isOpen) s member

/-- A round that has a dial under way is under way. -/
theorem underway_of_dial (stage : Stage t dials moments p) {d : Dial} (member : d ∈ p.dials)
    (owner : d.owner = .round t) : Underway t dials (eventsOf moments) p := by
  have gone : ¬ Over t p := by
    intro absent
    have listed : d ∈ p.dials.filter (Dial.isIn t) := List.mem_filter.2 ⟨member, Dial.isIn_iff.2 owner⟩
    rw [absent.dials] at listed
    cases listed
  cases stage with
  | waits underway _ => exact underway
  | returned absent _ => exact absurd absent gone
  | dropped absent _ _ => exact absurd absent gone

/-- A round that a caller starts begins with its dials, and dials nothing else. -/
theorem of_connect (isOpen : p.closed = false) (absent : Over p.nextTicket p)
    (reached : p.connect now = (p', es)) (seen : eventsOf moments = es) :
    Stage p.nextTicket (p.roundDials now) moments p' ∧
      (∀ count, Event.finished p.nextTicket (.ok (.live count)) ∈ es →
        Settled (p.roundDials now) (eventsOf moments) p' count) ∧
      dialsIn p.nextTicket es = p.roundDials now ∧
        ∀ d, Event.dialed d ∈ es → d ∈ p.roundDials now := by
  have lineup := Lineup.of_roundDials p now
  have underway := Underway.of_beginRound now absent
  have dialed : dialsIn p.nextTicket ((p.roundDials now).map Event.dialed) = p.roundDials now := by
    unfold dialsIn
    rw [List.filterMap_map]
    refine (List.filterMap_congr fun d member => ?_).trans List.filterMap_some
    exact if_pos (Dial.isIn_iff.2 (lineup.owner d member))
  rw [connect_eq isOpen] at reached
  have undialed : ∀ d, Event.dialed d ∉ ((p.beginRound now).settleRound now p.nextTicket).2 :=
    dialed_not_mem_settleRound _ now _
  cases settles : (p.beginRound now).settleRound now p.nextTicket with
  | mk q told =>
    rw [settles] at reached undialed
    obtain ⟨rfl, rfl⟩ := Prod.mk.inj reached
    obtain ⟨stage, settled⟩ := of_settle underway lineup settles seen
    refine ⟨stage, ?_, ?_, ?_⟩
    · intro count member
      refine settled count ?_
      rcases List.mem_append.1 member with early | late
      · simp at early
      · exact late
    · rw [dialsIn_append, dialed, dialsIn_eq_nil fun d _ => undialed d, List.append_nil]
    · intro d member
      rcases List.mem_append.1 member with early | late
      · obtain ⟨x, x_member, same⟩ := List.mem_map.1 early
        rw [← Event.dialed.inj same]
        exact x_member
      · exact absurd late (undialed d)

/-- What an action means for a round that has begun: it is brought on by the ends of its dials only, and
begins no dial. -/
theorem extend {a : Action} (stage : Stage t dials moments p) (lineup : Lineup t dials)
    (move : RoundMove t now p a es p') : Stage t dials (moments ++ [⟨now, a, es, p, p'⟩]) p' ∧
      (∀ count, Event.finished t (.ok (.live count)) ∈ es →
        Settled dials (eventsOf (moments ++ [⟨now, a, es, p, p'⟩])) p' count) ∧
      dialsIn t es = [] := by
  have untold : ∀ {es : List Event}, (∀ e ∈ es, e.isRound t = false) →
      ∀ count, Event.finished t (.ok (.live count)) ∉ es := by
    intro es quiet count told
    have unconcerned := quiet _ told
    rw [isRound_of_live] at unconcerned
    cases unconcerned
  have seen : ∀ m : Moment, eventsOf (moments ++ [m]) = eventsOf moments ++ m.events := by
    intro m
    rw [eventsOf_append, eventsOf_cons, eventsOf_nil, List.append_nil]
  cases move with
  | bystands h =>
    refine ⟨?_, fun count told => absurd told (untold h.quiet count), dialsIn_of_quiet h.quiet⟩
    cases stage with
    | waits underway waiting =>
      refine .waits ?_ ?_
      · rw [seen]
        exact underway.of_bystands lineup h
      · obtain ⟨d, member, unended⟩ := waiting
        refine ⟨d, member, ?_⟩
        rw [seen, endOf?_append, unended]
        exact endOf?_eq_none_of_quiet (lineup.owner d member) h.quiet
    | returned absent told =>
      exact .returned (absent.of_bystands h) (by rw [seen]; exact List.mem_append_left _ told)
    | dropped absent member cancels =>
      exact .dropped (absent.of_bystands h) (List.mem_append_left _ member) cancels
  | drops absent quiet =>
    exact ⟨.dropped absent (List.mem_append_right _ (List.mem_singleton_self _)) rfl,
      fun count told => absurd told (untold quiet count), dialsIn_of_quiet quiet⟩
  | @concludes _ d r front result member owner ending =>
    have arrived : ∀ e ∈ front, e.isRound t = false :=
      fun e there => Event.isRound_of_arrival (ending.quiet e there) t
    have underway := stage.underway_of_dial member owner
    have rounds : r.rounds = p.rounds := by rw [ending.rest]
    have same_dials : r.dials = p.dials := by rw [ending.rest]
    have entered := underway.of_ended lineup member owner rounds same_dials arrived result
    have undialed : ∀ x, Event.dialed x ∉ ((r.enter t d result).settleRound now t).2 :=
      dialed_not_mem_settleRound _ now _
    rw [conclude_of_round owner]
    cases settles : (r.enter t d result).settleRound now t with
    | mk q told =>
      rw [settles] at undialed
      have all : eventsOf (moments ++ [⟨now, a, front ++ .dialEnded d result :: told, p, q⟩]) =
          eventsOf moments ++ front ++ [.dialEnded d result] ++ told := by
        rw [seen]
        simp
      obtain ⟨stage, settled⟩ := of_settle entered lineup settles all
      refine ⟨stage, ?_, ?_⟩
      · intro count member
        refine settled count ?_
        rcases List.mem_append.1 member with early | late
        · exact absurd early (untold arrived count)
        · simpa using late
      · refine dialsIn_eq_nil fun x _ member => ?_
        rcases List.mem_append.1 member with early | late
        · cases ending.quiet _ early
        · exact undialed x (by simpa using late)

end Stage

end CallPool.Pool
