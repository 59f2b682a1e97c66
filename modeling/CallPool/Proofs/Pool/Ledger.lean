import CallPool.Proofs.Pool.Work
import Mathlib.Data.List.Nodup

/-!
# The ledger of the reconnectors

Every reconnector dials one dial at a time, for its own slot, and goes on after a failure only; so
the dials that it began are those that failed and the one that is under way, if there is one. A slot
that has a reconnector has one that is running. A reconnector that gives up began as many dials as
its schedule has attempts, and all of them failed. `Ledger` says this of what was told and of the
state that was reached. What a pool can do to its reconnectors and dials is one of four things:
it drops some of them (`Ledger.drop`), dials for somebody else (`Ledger.dial`), adds a reconnector
(`Ledger.addReconnector`), or lets one go on (`Ledger.update`).
-/

set_option autoImplicit false

namespace CallPool.Pool

/-- Whether a dial is made for the reconnector with a ticket. -/
def Dial.isOf (t : Ticket) (d : Dial) : Bool := d.owner = .reconnector t

/-- A dial with a reconnector for owner is that of the reconnector. -/
theorem Dial.isOf_owner {d : Dial} {t : Ticket} (owner : d.owner = .reconnector t) : d.isOf t = true :=
  decide_eq_true owner

/-- A dial with a reconnector for owner is that of no other one. -/
theorem Dial.isOf_other {d : Dial} {t u : Ticket} (owner : d.owner = .reconnector t) (other : u ≠ t) :
    d.isOf u = false := by
  apply decide_eq_false
  rw [owner]
  intro same
  exact other (Owner.reconnector.inj same).symm

/-- What gets the next ticket has a ticket of its own, and stays below the counter. -/
theorem nodup_map_append_new {α : Type} {f : α → Ticket} {xs : List α} {x : α} {next : Ticket}
    (once : (xs.map f).Nodup) (below : ∀ y ∈ xs, f y < next) (new : f x = next) :
    ((xs ++ [x]).map f).Nodup ∧ ∀ y ∈ xs ++ [x], f y < next + 1 := by
  constructor
  · have apart : f x ∉ xs.map f := by
      intro member
      obtain ⟨y, y_member, same⟩ := List.mem_map.1 member
      rw [new] at same
      exact Nat.ne_of_lt (below y y_member) same
    rw [List.map_append, List.map_singleton, ← List.concat_eq_append]
    exact once.concat apart
  · intro y member
    rcases List.mem_append.1 member with older | newest
    · exact Nat.lt_succ_of_lt (below y older)
    · rw [List.mem_singleton.1 newest, new]
      exact Nat.lt_succ_self next

/-- The dial of the reconnector with a ticket, if an event tells that it began. -/
def Event.dialBy? (t : Ticket) : Event → Option Dial
  | .dialed d => if d.isOf t then some d else none
  | _ => none

/-- The dial of the reconnector with a ticket, if an event tells that it failed. -/
def Event.failureOf? (t : Ticket) : Event → Option Dial
  | .dialEnded d (.error _) => if d.isOf t then some d else none
  | _ => none

/-- The dials that the reconnector with a ticket began, in order. -/
def dialsBy (t : Ticket) (es : List Event) : List Dial := es.filterMap (Event.dialBy? t)

/-- The dials of the reconnector with a ticket that failed, in order. -/
def failuresOf (t : Ticket) (es : List Event) : List Dial := es.filterMap (Event.failureOf? t)

/-- The dials of a reconnector in one list behind another are those in both, in order. -/
@[simp] theorem dialsBy_append (t : Ticket) (es es' : List Event) :
    dialsBy t (es ++ es') = dialsBy t es ++ dialsBy t es' := by
  simp [dialsBy]

/-- The failures of a reconnector in one list behind another are those in both, in order. -/
@[simp] theorem failuresOf_append (t : Ticket) (es es' : List Event) :
    failuresOf t (es ++ es') = failuresOf t es ++ failuresOf t es' := by
  simp [failuresOf]

/-- A dial that begins counts for the reconnector that it is made for. -/
@[simp] theorem dialsBy_dialed (t : Ticket) (d : Dial) :
    dialsBy t [.dialed d] = if d.isOf t then [d] else [] := by
  unfold dialsBy
  by_cases mine : d.isOf t = true
  · simp [Event.dialBy?, mine]
  · simp [Event.dialBy?, mine]

/-- A dial that begins has not failed. -/
@[simp] theorem failuresOf_dialed (t : Ticket) (d : Dial) : failuresOf t [.dialed d] = [] := rfl

/-- A dial that ends does not begin. -/
@[simp] theorem dialsBy_dialEnded (t : Ticket) (d : Dial) (result : Except Error Unit) :
    dialsBy t [.dialEnded d result] = [] := rfl

/-- A dial that fails counts for the reconnector that it is made for. -/
@[simp] theorem failuresOf_dialEnded (t : Ticket) (d : Dial) (e : Error) :
    failuresOf t [.dialEnded d (.error e)] = if d.isOf t then [d] else [] := by
  unfold failuresOf
  by_cases mine : d.isOf t = true
  · simp [Event.failureOf?, mine]
  · simp [Event.failureOf?, mine]

/-- The start of a reconnector is no dial. -/
@[simp] theorem dialsBy_recovering (t : Ticket) (r : Reconnector) : dialsBy t [.recovering r] = [] := rfl

/-- The start of a reconnector is no failure. -/
@[simp] theorem failuresOf_recovering (t : Ticket) (r : Reconnector) :
    failuresOf t [.recovering r] = [] := rfl

/-- What tells nothing of dials and reconnectors begins no dial. -/
theorem dialsBy_of_aside {es : List Event} (quiet : ∀ e ∈ es, e.isAside = true) (t : Ticket) :
    dialsBy t es = [] := by
  unfold dialsBy
  rw [List.filterMap_eq_nil_iff]
  intro e member
  have kind := quiet e member
  cases e <;> first | rfl | cases kind

/-- What tells nothing of dials and reconnectors tells of no failure. -/
theorem failuresOf_of_aside {es : List Event} (quiet : ∀ e ∈ es, e.isAside = true) (t : Ticket) :
    failuresOf t es = [] := by
  unfold failuresOf
  rw [List.filterMap_eq_nil_iff]
  intro e member
  have kind := quiet e member
  cases e <;> first | rfl | cases kind

/-- What became of the dials of a reconnector. -/
structure Tally (past : List Event) (dials : List Dial) (r : Reconnector) : Prop where
  /-- The dials that it began are those that failed and those that are under way. -/
  begun : dialsBy r.ticket past = failuresOf r.ticket past ++ dials.filter (Dial.isOf r.ticket)
  failed : (failuresOf r.ticket past).length = r.attempt
  slot : ∀ d ∈ dialsBy r.ticket past, d.slot = r.slot
  /-- It has a dial under way exactly if it dials, and then one. -/
  dialing : r.phase = .dialing → ∃ d, dials.filter (Dial.isOf r.ticket) = [d]
  resting : r.phase ≠ .dialing → dials.filter (Dial.isOf r.ticket) = []
  more : r.phase ≠ .spent → r.attempt < r.schedule.attempts
  spent : r.phase = .spent → r.attempt = r.schedule.attempts

/-- What the past of a pool and its state say of its reconnectors. -/
structure Ledger (past : List Event) (p : Pool) : Prop where
  tickets_nodup : (p.reconnectors.map Reconnector.ticket).Nodup
  ticket_lt : ∀ r ∈ p.reconnectors, r.ticket < p.nextTicket
  dials_nodup : (p.dials.map Dial.ticket).Nodup
  dial_lt : ∀ d ∈ p.dials, d.ticket < p.nextTicket
  tally : ∀ r ∈ p.reconnectors, Tally past p.dials r
  /-- A dial that is made for a reconnector is made for one that is there. -/
  owner : ∀ d ∈ p.dials, ∀ t, d.owner = .reconnector t → ∃ r ∈ p.reconnectors, r.ticket = t
  /-- A slot that has a reconnector has one that runs. -/
  entry : ∀ e ∈ p.reconnecting, ∃ r ∈ p.reconnectors, r.owned = true ∧ r.slot = e.1 ∧ r.token = e.2
  owned : ∀ r ∈ p.reconnectors, r.owned = true → r.orphaned = false ∧ r.schedule = p.options.backoff
  /-- Nothing is told of tickets that were not given yet. -/
  unborn : ∀ t, p.nextTicket ≤ t → dialsBy t past = [] ∧ failuresOf t past = []
  /-- A reconnector that gave up is gone, and its budget is spent. -/
  gaveUp : ∀ r, Event.gaveUp r ∈ past → r.ticket < p.nextTicket ∧
    (∀ q ∈ p.reconnectors, q.ticket ≠ r.ticket) ∧
    dialsBy r.ticket past = failuresOf r.ticket past ∧
    (failuresOf r.ticket past).length = r.schedule.attempts ∧
    (∀ d ∈ dialsBy r.ticket past, d.slot = r.slot) ∧
    (r.owned = true → r.schedule = p.options.backoff)

/-- What reconnectors and dials are dropped from a pool, each dial with its reconnector. -/
structure Drops (p : Pool) (es : List Event) (p' : Pool) (keep : Reconnector → Bool)
    (keepDial : Dial → Bool) : Prop where
  options : p'.options = p.options
  nextTicket_le : p.nextTicket ≤ p'.nextTicket
  reconnectors : p'.reconnectors = p.reconnectors.filter keep
  dials : p'.dials = p.dials.filter keepDial
  /-- A slot that still has a reconnector has one that is kept. -/
  entry : ∀ e ∈ p'.reconnecting, e ∈ p.reconnecting ∧
    ∀ r ∈ p.reconnectors, r.owned = true → r.slot = e.1 → r.token = e.2 → keep r = true
  kept : ∀ r ∈ p.reconnectors, keep r = true → ∀ d ∈ p.dials, d.owner = .reconnector r.ticket →
    keepDial d = true
  dropped : ∀ r ∈ p.reconnectors, ∀ d ∈ p.dials, d.owner = .reconnector r.ticket →
    keepDial d = true → keep r = true
  undialed : ∀ t, dialsBy t es = []
  unfailed : ∀ t, failuresOf t es = []
  gaveUp : ∀ r, Event.gaveUp r ∈ es → r ∈ p.reconnectors ∧ r.phase = .spent ∧ keep r = false

/-- A reconnector that goes to sleep, or is spent, has a right account if its dials have all failed and
have been counted. -/
theorem Tally.of_phaseAt {past : List Event} {dials : List Dial} {r : Reconnector} {now : Nat}
    (phase : r.phase = phaseAt r.schedule r.attempt now) (le : r.attempt ≤ r.schedule.attempts)
    (ended : dials.filter (Dial.isOf r.ticket) = [])
    (begun : dialsBy r.ticket past = failuresOf r.ticket past)
    (failed : (failuresOf r.ticket past).length = r.attempt)
    (slot : ∀ d ∈ dialsBy r.ticket past, d.slot = r.slot) : Tally past dials r := by
  have spent_iff := @phaseAt_eq_spent_iff r.schedule r.attempt now
  refine ⟨?_, failed, slot, ?_, fun _ => ended, ?_, ?_⟩
  · rw [ended, begun, List.append_nil]
  · intro dialing
    rw [phase] at dialing
    exact absurd dialing phaseAt_ne_dialing
  · intro unspent
    rw [phase] at unspent
    by_contra none_left
    exact unspent (spent_iff.2 none_left)
  · intro spent
    rw [phase] at spent
    have none_left := spent_iff.1 spent
    omega

/-- An account stays right as long as what it counts stays. -/
theorem Tally.congr {past past' : List Event} {dials dials' : List Dial} {r : Reconnector}
    (tally : Tally past dials r) (begun : dialsBy r.ticket past' = dialsBy r.ticket past)
    (failed : failuresOf r.ticket past' = failuresOf r.ticket past)
    (same : dials'.filter (Dial.isOf r.ticket) = dials.filter (Dial.isOf r.ticket)) :
    Tally past' dials' r := by
  refine ⟨?_, ?_, ?_, ?_, ?_, tally.more, tally.spent⟩
  · rw [begun, failed, same]
    exact tally.begun
  · rw [failed]
    exact tally.failed
  · rw [begun]
    exact tally.slot
  · rw [same]
    exact tally.dialing
  · rw [same]
    exact tally.resting

namespace Ledger

variable {past es : List Event} {p p' : Pool} {now : Nat}

/-- A reconnector is known by its ticket. -/
theorem eq_of_ticket (h : Ledger past p) {r q : Reconnector} (r_member : r ∈ p.reconnectors)
    (q_member : q ∈ p.reconnectors) (same : r.ticket = q.ticket) : r = q :=
  List.inj_on_of_nodup_map h.tickets_nodup r_member q_member same

/-- A reconnector is found under its ticket. -/
theorem find?_ticket (h : Ledger past p) {r : Reconnector} (member : r ∈ p.reconnectors) :
    p.reconnectors.find? (fun x => x.ticket = r.ticket) = some r := by
  cases first : p.reconnectors.find? fun x => x.ticket = r.ticket with
  | none =>
    have other := List.find?_eq_none.1 first r member
    simp at other
  | some x =>
    have ticket : x.ticket = r.ticket := by simpa using List.find?_some first
    rw [h.eq_of_ticket (List.mem_of_find?_eq_some first) member ticket]

/-- The dial of a reconnector is the only one that it has under way. -/
theorem dial_of_member (h : Ledger past p) {d : Dial} {r : Reconnector} (d_member : d ∈ p.dials)
    (r_member : r ∈ p.reconnectors) (owner : d.owner = .reconnector r.ticket) :
    r.phase = .dialing ∧ p.dials.filter (Dial.isOf r.ticket) = [d] := by
  have tally := h.tally r r_member
  have mine : d ∈ p.dials.filter (Dial.isOf r.ticket) :=
    List.mem_filter.2 ⟨d_member, decide_eq_true owner⟩
  by_cases dialing : r.phase = .dialing
  · obtain ⟨only, same⟩ := tally.dialing dialing
    rw [same] at mine
    rw [List.mem_singleton.1 mine]
    exact ⟨dialing, same⟩
  · rw [tally.resting dialing] at mine
    cases mine

/-- A dial that is made for a reconnector is made for its slot. -/
theorem slot_of_dial (h : Ledger past p) {d : Dial} {r : Reconnector} (d_member : d ∈ p.dials)
    (r_member : r ∈ p.reconnectors) (owner : d.owner = .reconnector r.ticket) : d.slot = r.slot := by
  have tally := h.tally r r_member
  apply tally.slot d
  rw [tally.begun, (h.dial_of_member d_member r_member owner).2]
  simp

/-- Reconnectors and dials that are dropped leave the accounts of the others as they are. -/
theorem drop {keep : Reconnector → Bool} {keepDial : Dial → Bool} (h : Ledger past p)
    (drops : Drops p es p' keep keepDial) : Ledger (past ++ es) p' := by
  have left : ∀ {r}, r ∈ p'.reconnectors ↔ r ∈ p.reconnectors ∧ keep r = true := by
    intro r
    rw [drops.reconnectors, List.mem_filter]
  have dial_left : ∀ {d}, d ∈ p'.dials ↔ d ∈ p.dials ∧ keepDial d = true := by
    intro d
    rw [drops.dials, List.mem_filter]
  have begun : ∀ t, dialsBy t (past ++ es) = dialsBy t past := by
    intro t
    rw [dialsBy_append, drops.undialed t, List.append_nil]
  have failed : ∀ t, failuresOf t (past ++ es) = failuresOf t past := by
    intro t
    rw [failuresOf_append, drops.unfailed t, List.append_nil]
  refine ⟨?_, ?_, ?_, ?_, ?_, ?_, ?_, ?_, ?_, ?_⟩
  · rw [drops.reconnectors]
    exact (List.filter_sublist.map _).nodup h.tickets_nodup
  · intro r member
    exact Nat.lt_of_lt_of_le (h.ticket_lt r (left.1 member).1) drops.nextTicket_le
  · rw [drops.dials]
    exact (List.filter_sublist.map _).nodup h.dials_nodup
  · intro d member
    exact Nat.lt_of_lt_of_le (h.dial_lt d (dial_left.1 member).1) drops.nextTicket_le
  · intro r member
    obtain ⟨there, kept⟩ := left.1 member
    refine (h.tally r there).congr (begun _) (failed _) ?_
    rw [drops.dials, List.filter_filter]
    refine List.filter_congr fun d d_member => ?_
    cases mine : d.isOf r.ticket with
    | false => rfl
    | true => exact drops.kept r there kept d d_member (of_decide_eq_true mine)
  · intro d member t owner
    obtain ⟨there, kept⟩ := dial_left.1 member
    obtain ⟨r, r_member, rfl⟩ := h.owner d there t owner
    exact ⟨r, left.2 ⟨r_member, drops.dropped r r_member d there owner kept⟩, rfl⟩
  · intro e member
    obtain ⟨there, kept⟩ := drops.entry e member
    obtain ⟨r, r_member, owned, slot, token⟩ := h.entry e there
    exact ⟨r, left.2 ⟨r_member, kept r r_member owned slot token⟩, owned, slot, token⟩
  · intro r member
    rw [drops.options]
    exact h.owned r (left.1 member).1
  · intro t unborn
    rw [begun, failed]
    exact h.unborn t (Nat.le_trans drops.nextTicket_le unborn)
  · intro r member
    rw [begun, failed, drops.options]
    rcases List.mem_append.1 member with older | newest
    · obtain ⟨below, gone, rest⟩ := h.gaveUp r older
      exact ⟨Nat.lt_of_lt_of_le below drops.nextTicket_le, fun q q_member => gone q (left.1 q_member).1,
        rest⟩
    · obtain ⟨there, spent, unkept⟩ := drops.gaveUp r newest
      have tally := h.tally r there
      -- It has no dial under way, so that all it began have failed, as many as it had attempts.
      have resting := tally.resting (by rw [spent]; exact nofun)
      refine ⟨Nat.lt_of_lt_of_le (h.ticket_lt r there) drops.nextTicket_le, ?_, ?_, ?_, tally.slot,
        fun owned => (h.owned r there owned).2⟩
      · intro q q_member same
        obtain ⟨q_there, q_kept⟩ := left.1 q_member
        rw [h.eq_of_ticket q_there there same, unkept] at q_kept
        cases q_kept
      · rw [tally.begun, resting, List.append_nil]
      · rw [tally.failed]
        exact tally.spent spent

/-- Nothing is dropped, and nothing is told of dials and reconnectors. -/
theorem keep (h : Ledger past p) (options : p'.options = p.options)
    (nextTicket_le : p.nextTicket ≤ p'.nextTicket) (dials : p'.dials = p.dials)
    (reconnectors : p'.reconnectors = p.reconnectors)
    (reconnecting : ∀ e ∈ p'.reconnecting, e ∈ p.reconnecting)
    (quiet : ∀ e ∈ es, e.isAside = true) : Ledger (past ++ es) p' := by
  have drops : Drops p es p' (fun _ => true) fun _ => true := by
    refine ⟨options, nextTicket_le, by simp [reconnectors], by simp [dials],
      fun e member => ⟨reconnecting e member, fun _ _ _ _ _ => rfl⟩, fun _ _ _ _ _ _ => rfl,
      fun _ _ _ _ _ _ => rfl, dialsBy_of_aside quiet, failuresOf_of_aside quiet, ?_⟩
    intro r member
    cases quiet _ member
  exact h.drop drops

/-- What leaves dials and reconnectors alone keeps the accounts. -/
theorem aside (h : Ledger past p) (other : Aside p es p') : Ledger (past ++ es) p' :=
  h.keep other.options other.nextTicket_le other.dials other.reconnectors
    (fun e member => by rw [other.reconnecting] at member; exact member) other.quiet

/-- A dial that is made for a round or a caller is in nobody's account. -/
theorem dial (h : Ledger past p) {slot : Nat} {owner : Owner} (other : ∀ t, owner ≠ .reconnector t) :
    Ledger (past ++ (p.dial now slot owner).2) (p.dial now slot owner).1 := by
  have foreign : ∀ t, Dial.isOf t ⟨p.nextTicket, slot, owner, now⟩ = false :=
    fun t => decide_eq_false (other t)
  have begun : ∀ t, dialsBy t (past ++ (p.dial now slot owner).2) = dialsBy t past := by
    intro t
    simp [Pool.dial, foreign]
  have failed : ∀ t, failuresOf t (past ++ (p.dial now slot owner).2) = failuresOf t past := by
    intro t
    simp [Pool.dial]
  obtain ⟨nodup, below⟩ := nodup_map_append_new (x := ⟨p.nextTicket, slot, owner, now⟩) h.dials_nodup
    h.dial_lt rfl
  refine ⟨h.tickets_nodup, ?_, nodup, below, ?_, ?_, h.entry, h.owned, ?_, ?_⟩
  · intro r member
    exact Nat.lt_succ_of_lt (h.ticket_lt r member)
  · intro r member
    refine (h.tally r member).congr (begun _) (failed _) ?_
    change (p.dials ++ [_]).filter _ = _
    rw [List.filter_append]
    simp [foreign]
  · intro d member t mine
    rcases List.mem_append.1 member with older | newest
    · exact h.owner d older t mine
    · rw [List.mem_singleton.1 newest] at mine
      exact absurd mine (other t)
  · intro t unborn
    rw [begun, failed]
    exact h.unborn t (Nat.le_of_succ_le unborn)
  · intro r member
    rw [begun, failed]
    have older : Event.gaveUp r ∈ past := by simpa [Pool.dial] using member
    obtain ⟨below, rest⟩ := h.gaveUp r older
    exact ⟨Nat.lt_succ_of_lt below, rest⟩

/-- A new reconnector has made no dial. -/
theorem addReconnector (h : Ledger past p) {slot : Nat} {token : Token} {schedule : Backoff}
    {owned orphaned : Bool} {entries : List (Nat × Token)} {nextToken : Token}
    (listed : ∀ e ∈ entries, e ∈ p.reconnecting ∨ owned = true ∧ e = (slot, token))
    (regular : owned = true → orphaned = false ∧ schedule = p.options.backoff) :
    Ledger
      (past ++ ({ p with reconnecting := entries, nextToken := nextToken }.addReconnector now slot
        token schedule owned orphaned).2)
      ({ p with reconnecting := entries, nextToken := nextToken }.addReconnector now slot token
        schedule owned orphaned).1 := by
  have undialed : p.dials.filter (Dial.isOf p.nextTicket) = [] := by
    rw [List.filter_eq_nil_iff]
    intro d member mine
    obtain ⟨r, r_member, same⟩ := h.owner d member _ (of_decide_eq_true mine)
    exact Nat.ne_of_lt (h.ticket_lt r r_member) same
  obtain ⟨none_begun, none_failed⟩ := h.unborn p.nextTicket (Nat.le_refl _)
  obtain ⟨nodup, below⟩ := nodup_map_append_new (f := Reconnector.ticket)
    (x := ⟨p.nextTicket, slot, token, schedule, 0, phaseAt schedule 0 now, owned, orphaned⟩)
    h.tickets_nodup h.ticket_lt rfl
  unfold Pool.addReconnector
  refine ⟨nodup, below, h.dials_nodup, ?_, ?_, ?_, ?_, ?_, ?_, ?_⟩
  · intro d member
    exact Nat.lt_succ_of_lt (h.dial_lt d member)
  · intro r member
    rcases List.mem_append.1 member with older | newest
    · exact (h.tally r older).congr (by simp) (by simp) rfl
    · rw [List.mem_singleton.1 newest]
      apply Tally.of_phaseAt rfl (Nat.zero_le _) undialed
      · simp [none_begun, none_failed]
      · simp [none_failed]
      · simp [none_begun]
  · intro d member t mine
    obtain ⟨r, r_member, same⟩ := h.owner d member t mine
    exact ⟨r, List.mem_append_left _ r_member, same⟩
  · intro e member
    rcases listed e member with there | ⟨owned, rfl⟩
    · obtain ⟨r, r_member, rest⟩ := h.entry e there
      exact ⟨r, List.mem_append_left _ r_member, rest⟩
    · exact ⟨_, List.mem_append_right _ (List.mem_singleton.2 rfl), owned, rfl, rfl⟩
  · intro r member owned
    rcases List.mem_append.1 member with older | newest
    · exact h.owned r older owned
    · rw [List.mem_singleton.1 newest] at owned ⊢
      exact regular owned
  · intro t unborn
    simpa using h.unborn t (Nat.le_of_succ_le unborn)
  · intro r member
    have older : Event.gaveUp r ∈ past := by simpa using member
    obtain ⟨below, gone, rest⟩ := h.gaveUp r older
    simp only [dialsBy_append, dialsBy_recovering, failuresOf_append, failuresOf_recovering,
      List.append_nil]
    refine ⟨Nat.lt_succ_of_lt below, ?_, rest⟩
    intro q q_member
    rcases List.mem_append.1 q_member with there | newest
    · exact gone q there
    · rw [List.mem_singleton.1 newest]
      exact Nat.ne_of_gt below

/-- Every reconnector is still there when one of them has gone on: only its attempt and its phase have
changed. -/
theorem exists_mem_setReconnector (h : Ledger past p) {r q : Reconnector} {next : Reconnector}
    (member : r ∈ p.reconnectors) (q_member : q ∈ p.reconnectors)
    (rest : next = { r with attempt := next.attempt, phase := next.phase }) :
    ∃ q' ∈ (p.setReconnector r.ticket next).reconnectors,
      q' = { q with attempt := q'.attempt, phase := q'.phase } := by
  by_cases same : q.ticket = r.ticket
  · obtain rfl := h.eq_of_ticket q_member member same
    exact ⟨next, mem_setReconnector member, rest⟩
  · exact ⟨q, mem_setReconnector_of_ne q_member same, rfl⟩

/-- A reconnector that goes on keeps the accounts, if its own is right. -/
theorem update (h : Ledger past p) {r : Reconnector} (next : Reconnector) (member : r ∈ p.reconnectors)
    (rest : next = { r with attempt := next.attempt, phase := next.phase })
    (options : p'.options = p.options) (nextTicket_le : p.nextTicket ≤ p'.nextTicket)
    (reconnectors : p'.reconnectors = (p.setReconnector r.ticket next).reconnectors)
    (reconnecting : p'.reconnecting = p.reconnecting)
    (dials_nodup : (p'.dials.map Dial.ticket).Nodup)
    (dial_lt : ∀ d ∈ p'.dials, d.ticket < p'.nextTicket)
    (owner : ∀ d ∈ p'.dials, d ∈ p.dials ∨ d.owner = .reconnector r.ticket)
    (others : ∀ t, t ≠ r.ticket → p'.dials.filter (Dial.isOf t) = p.dials.filter (Dial.isOf t))
    (undialed : ∀ t, t ≠ r.ticket → dialsBy t es = [])
    (unfailed : ∀ t, t ≠ r.ticket → failuresOf t es = [])
    (gaveUp : ∀ q, Event.gaveUp q ∉ es) (tally : Tally (past ++ es) p'.dials next) :
    Ledger (past ++ es) p' := by
  have ticket : next.ticket = r.ticket := by rw [rest]
  have owned : next.owned = r.owned := by rw [rest]
  have begun : ∀ t, t ≠ r.ticket → dialsBy t (past ++ es) = dialsBy t past := by
    intro t other
    rw [dialsBy_append, undialed t other, List.append_nil]
  have failed : ∀ t, t ≠ r.ticket → failuresOf t (past ++ es) = failuresOf t past := by
    intro t other
    rw [failuresOf_append, unfailed t other, List.append_nil]
  have tickets : p'.reconnectors.map Reconnector.ticket = p.reconnectors.map Reconnector.ticket := by
    rw [reconnectors]
    exact tickets_setReconnector ticket
  -- A reconnector that runs now is the one that went on, or another that ran before.
  have origin : ∀ q ∈ p'.reconnectors, q = next ∨ q ∈ p.reconnectors ∧ q.ticket ≠ r.ticket := by
    intro q q_member
    rw [reconnectors] at q_member
    exact of_mem_setReconnector q_member
  have there : next ∈ p'.reconnectors := by
    rw [reconnectors]
    exact mem_setReconnector member
  have stays : ∀ q ∈ p.reconnectors, ∃ q' ∈ p'.reconnectors,
      q' = { q with attempt := q'.attempt, phase := q'.phase } := by
    intro q q_member
    rw [reconnectors]
    exact h.exists_mem_setReconnector member q_member rest
  refine ⟨?_, ?_, dials_nodup, dial_lt, ?_, ?_, ?_, ?_, ?_, ?_⟩
  · rw [tickets]
    exact h.tickets_nodup
  · intro q q_member
    rcases origin q q_member with rfl | ⟨older, _⟩
    · rw [ticket]
      exact Nat.lt_of_lt_of_le (h.ticket_lt r member) nextTicket_le
    · exact Nat.lt_of_lt_of_le (h.ticket_lt q older) nextTicket_le
  · intro q q_member
    rcases origin q q_member with rfl | ⟨older, other⟩
    · exact tally
    · exact (h.tally q older).congr (begun _ other) (failed _ other) (others _ other)
  · intro d d_member t mine
    rcases owner d d_member with older | own
    · obtain ⟨q, q_member, rfl⟩ := h.owner d older t mine
      obtain ⟨q', q'_member, same⟩ := stays q q_member
      exact ⟨q', q'_member, by rw [same]⟩
    · rw [own] at mine
      exact ⟨next, there, ticket.trans (Owner.reconnector.inj mine)⟩
  · intro e e_member
    rw [reconnecting] at e_member
    obtain ⟨q, q_member, q_owned, q_slot, q_token⟩ := h.entry e e_member
    obtain ⟨q', q'_member, same⟩ := stays q q_member
    rw [same] at q'_member
    exact ⟨_, q'_member, q_owned, q_slot, q_token⟩
  · intro q q_member q_owned
    rw [options]
    rcases origin q q_member with rfl | ⟨older, _⟩
    · have regular := h.owned r member (owned.symm.trans q_owned)
      rw [rest]
      exact regular
    · exact h.owned q older q_owned
  · intro t unborn
    have older := Nat.le_trans nextTicket_le unborn
    have other : t ≠ r.ticket := Nat.ne_of_gt (Nat.lt_of_lt_of_le (h.ticket_lt r member) older)
    rw [begun t other, failed t other]
    exact h.unborn t older
  · intro q q_gaveUp
    rcases List.mem_append.1 q_gaveUp with older | newest
    · obtain ⟨below, gone, rest⟩ := h.gaveUp q older
      have other : q.ticket ≠ r.ticket := (gone r member).symm
      rw [begun _ other, failed _ other, options]
      refine ⟨Nat.lt_of_lt_of_le below nextTicket_le, ?_, rest⟩
      intro q' q'_member
      rcases origin q' q'_member with rfl | ⟨older, _⟩
      · rw [ticket]
        exact other.symm
      · exact gone q' older
    · exact absurd newest (gaveUp q)

end Ledger

end CallPool.Pool
