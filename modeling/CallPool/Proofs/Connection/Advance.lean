import CallPool.Proofs.Connection.Account
import CallPool.Proofs.Connection.Dispatch

/-!
# How a party goes on

A party awaits the verdict on its write exactly as long as its frame is on its way out
(`Posted.of_run`), so a verdict is given once and stays. The same holds of its reply. `Advance`
says what one action can do to a party that stays, and `Advance.of_step` that a party behind an
action has gone on so or is new.
-/

set_option autoImplicit false

namespace CallPool.Connection

/-- The tickets of the frames on their way out. -/
def underway (c : Connection) : List Ticket := c.outgoing.map Outgoing.ticket

/-- Who awaits the verdict on its write has a frame on its way out, and no other party has one. -/
structure Posted (c : Connection) : Prop where
  underway_nodup : c.underway.Nodup
  underway_lt : ∀ t ∈ c.underway, t < c.nextTicket
  awaited_iff : ∀ e ∈ c.errands, e.verdict = .awaited ↔ e.ticket ∈ c.underway

/-- Every party has a ticket that has been given. -/
theorem Coherent.party_lt {c : Connection} (h : Coherent c) {p : Party} (member : p ∈ c.parties) :
    p.ticket < c.nextTicket :=
  h.ticket_lt p.wait (List.mem_map_of_mem member)

/-- Every errand has a ticket that has been given. -/
theorem Coherent.errand_lt {c : Connection} (h : Coherent c) {e : Errand} (member : e ∈ c.errands) :
    e.ticket < c.nextTicket := by
  obtain ⟨p, p_member, rfl⟩ := List.mem_map.1 member
  exact h.party_lt p_member

/-- A party is known by its ticket. -/
theorem Coherent.party_unique {c : Connection} (h : Coherent c) {p q : Party} (member : p ∈ c.parties)
    (member' : q ∈ c.parties) (same : p.ticket = q.ticket) : p = q := by
  have tickets : c.waits.map Wait.ticket = c.parties.map Party.ticket := by
    simp [waits, Party.wait]
  have once := h.tickets_nodup
  rw [tickets] at once
  exact List.inj_on_of_nodup_map once member member' same

/-- A frame on its way out was there before, or is that of a party that comes. -/
theorem Dispatch.of_underway {c c' : Connection} {now : Nat} {a : Action} {es : List Event}
    (dispatch : Dispatch c now c' a es) {t : Ticket} (member : t ∈ c'.underway) :
    t ∈ c.underway ∨ t = c.nextTicket ∧ ∃ e ∈ c'.errands, e.ticket = t := by
  unfold underway at member ⊢
  cases dispatch with
  | rests _ outgoing _ => exact .inl (outgoing ▸ member)
  | @queues _ _ item purpose mine _ errands outgoing _ =>
    rw [outgoing, List.map_append] at member
    rcases List.mem_append.1 member with older | last
    · exact .inl older
    · have same : t = c.nextTicket := (List.mem_singleton.1 last).trans mine
      exact .inr ⟨same, ⟨c.nextTicket, purpose, .awaited⟩, by simp [errands], same.symm⟩
  | joins _ _ outgoing _ _ => exact .inl (outgoing ▸ member)
  | leaves _ outgoing _ => exact .inl (outgoing ▸ member)
  | writes front _ =>
    rw [front]
    exact .inl (List.mem_cons_of_mem _ member)
  | fails _ front _ _ =>
    rw [front, List.map_append]
    exact .inl (List.mem_append_right _ member)

namespace Posted

variable {c c' : Connection} {now : Nat} {a : Action} {es : List Event}

/-- A connection that has just been opened has no frame on its way out. -/
theorem opened (slot generation : Nat) (options : Options) (now : Nat) :
    Posted (Connection.opened slot generation options now) where
  underway_nodup := by simp [underway]
  underway_lt := by simp [underway]
  awaited_iff := nofun

/-- The frames in front go, and those who queued them learn why. -/
theorem of_front (h : Posted c) (items : List Outgoing) {verdict : Verdict}
    (front : c.outgoing = items ++ c'.outgoing) (decided : verdict ≠ .awaited)
    (errands : c'.errands = c.errands.map (Errand.judgeIf (items.map Outgoing.ticket) verdict))
    (further : c.nextTicket ≤ c'.nextTicket) : Posted c' := by
  have tickets : c.underway = items.map Outgoing.ticket ++ c'.underway := by
    simp [underway, front]
  have once := h.underway_nodup
  rw [tickets, List.nodup_append] at once
  obtain ⟨-, behind, apart⟩ := once
  refine ⟨behind, ?_, ?_⟩
  · intro t member
    have below := h.underway_lt t (by rw [tickets]; exact List.mem_append_right _ member)
    exact Nat.lt_of_lt_of_le below further
  · intro e' member
    rw [errands] at member
    obtain ⟨e, e_member, rfl⟩ := List.mem_map.1 member
    have before := h.awaited_iff e e_member
    rw [tickets, List.mem_append] at before
    rw [Errand.ticket_judgeIf]
    by_cases gone : e.ticket ∈ items.map Outgoing.ticket
    · rw [Errand.judgeIf_of_mem gone]
      have not_behind : e.ticket ∉ c'.underway := fun later => apart _ gone _ later rfl
      simp [decided, not_behind]
    · rw [Errand.judgeIf_of_not_mem gone, before]
      simp [gone]

/-- No change of the frames and errands leaves a verdict awaited without a frame, or a frame without one.
-/
theorem of_dispatch (h : Posted c) (coherent : Coherent c) (coherent' : Coherent c')
    (further : c.nextTicket ≤ c'.nextTicket) (dispatch : Dispatch c now c' a es) : Posted c' := by
  have later : ∀ t ∈ c.underway, t < c'.nextTicket := fun t member =>
    Nat.lt_of_lt_of_le (h.underway_lt t member) further
  have fresh : c.nextTicket ∉ c.underway := fun member => Nat.lt_irrefl _ (h.underway_lt _ member)
  cases dispatch with
  | rests errands outgoing _ =>
    have same : c'.underway = c.underway := by simp [underway, outgoing]
    exact ⟨same ▸ h.underway_nodup, same ▸ later, by rw [errands, same]; exact h.awaited_iff⟩
  | @queues _ _ item purpose mine _ errands outgoing _ =>
    have tickets : c'.underway = c.underway ++ [c.nextTicket] := by
      simp [underway, outgoing, mine]
    have new : c.nextTicket < c'.nextTicket :=
      coherent'.errand_lt (e := ⟨c.nextTicket, purpose, .awaited⟩) (by rw [errands]; simp)
    refine ⟨?_, ?_, ?_⟩
    · rw [tickets, List.nodup_append]
      refine ⟨h.underway_nodup, List.nodup_singleton _, ?_⟩
      intro t member t' last same
      rw [List.mem_singleton.1 last] at same
      exact fresh (same ▸ member)
    · intro t member
      rw [tickets] at member
      rcases List.mem_append.1 member with older | last
      · exact later t older
      · rw [List.mem_singleton.1 last]
        exact new
    · intro e member
      rw [errands] at member
      rw [tickets, List.mem_append, List.mem_singleton]
      rcases List.mem_append.1 member with older | last
      · have below := coherent.errand_lt older
        rw [h.awaited_iff e older]
        simp [Nat.ne_of_lt below]
      · rw [List.mem_singleton.1 last]
        simp
  | @joins _ _ purpose verdict _ errands outgoing _ how =>
    have same : c'.underway = c.underway := by simp [underway, outgoing]
    refine ⟨same ▸ h.underway_nodup, same ▸ later, ?_⟩
    intro e member
    rw [errands] at member
    rw [same]
    rcases List.mem_append.1 member with older | last
    · exact h.awaited_iff e older
    · have decided : verdict ≠ .awaited := by
        rcases how with ⟨_, rfl⟩ | ⟨_, _, rfl⟩ <;> nofun
      rw [List.mem_singleton.1 last]
      simp [decided, fresh]
  | leaves errands outgoing _ =>
    have same : c'.underway = c.underway := by simp [underway, outgoing]
    refine ⟨same ▸ h.underway_nodup, same ▸ later, ?_⟩
    intro e member
    rw [errands] at member
    rw [same]
    exact h.awaited_iff e (List.mem_filter.1 member).1
  | @writes item front errands =>
    exact h.of_front [item] front (by simp) errands further
  | @fails _ _ items _ _ front errands _ => exact h.of_front items front (by simp) errands further

/-- No action leaves a verdict awaited without a frame, or a frame without one. -/
theorem of_step (h : Posted c) (coherent : Coherent c) (taken : c.step now a = some (c', es)) :
    Posted c' :=
  h.of_dispatch coherent (coherent.of_effect (.of_step taken))
    (Passage.of_step coherent taken).nextTicket_le (.of_step coherent taken)

/-- In every state behind one in which it does, the frames on their way out are those on which a
verdict is awaited. -/
theorem along {began : Nat} {moments : List Moment} (h : Posted c) (coherent : Coherent c)
    (run : Run c began moments now c') : Posted c' :=
  run.induct_moments h fun _ _ _ _ _ _ past (posted : Posted _) taken =>
    posted.of_step (coherent.along past) taken

end Posted

/-! ## What one action does to a party -/

/-- Whether a moment gives the verdict on the write of a party. -/
inductive Judges (m : Moment) (t : Ticket) : Verdict → Prop
  | written {item : Outgoing} (mine : item.ticket = t) (told : Event.wrote item ∈ m.events) :
      Judges m t .written
  /-- The party comes when the writer takes no frame any more. -/
  | refused {purpose : Purpose} (mine : t = m.before.nextTicket)
      (adds : m.action.purpose? m.instant = some purpose) (framed : ∀ id, purpose ≠ .wait id)
      (ended : m.before.writer = .ended) : Judges m t (.failed .loopStopped)
  | failed {items : List Outgoing} {fault : WriteFault}
      (failing : Failing m.before m.instant m.after m.action items fault)
      (mine : t ∈ items.map Outgoing.ticket) : Judges m t (.failed fault)

/-- Whether a moment gives up the reply that a party awaits under an ID. -/
inductive GivesUp (m : Moment) (t : Ticket) (id : CorrelationId) : Prop
  /-- The connection is lost or closed. -/
  | severed (live : m.before.connected = true) (dead : m.after.connected = false)
  | displaced {t' : Ticket} (registered : Event.registered t' id ∈ m.events)
  /-- Another party leaves that has the same ID. -/
  | removed {w : Wait} (member : w ∈ m.before.waits) (other : w.ticket ≠ t)
      (waiting : w.purpose.id? = some id) (drops : Drops m.action m.events w.ticket)

/-- Whether a moment settles what becomes of the reply to a party. -/
inductive Settles (m : Moment) (t : Ticket) (purpose : Purpose) : Reply → Prop
  | delivered {response : Response} (told : Event.delivered t response ∈ m.events) :
      Settles m t purpose (.delivered response)
  | abandoned {id : CorrelationId} (waiting : purpose.id? = some id)
      (entered : (id, t) ∈ m.before.registry.entries) (given_up : GivesUp m t id) :
      Settles m t purpose .abandoned

/-- What a moment does to a party that stays: a verdict or a reply that was awaited may have come. -/
structure Advance (m : Moment) (p p' : Party) : Prop where
  ticket : p'.ticket = p.ticket
  purpose : p'.purpose = p.purpose
  verdict : p'.verdict = p.verdict ∨ p.verdict = .awaited ∧ Judges m p.ticket p'.verdict
  reply : p'.reply = p.reply ∨ p.reply = .awaited ∧ Settles m p.ticket p.purpose p'.reply

/-- How a party is that comes in a moment. -/
structure Arrives (m : Moment) (p : Party) : Prop where
  ticket : p.ticket = m.before.nextTicket
  purpose : m.action.purpose? m.instant = some p.purpose
  reply : p.reply = .awaited
  verdict : p.verdict = .awaited ∨ Judges m p.ticket p.verdict ∨
    (∃ id, p.purpose = .wait id) ∧ p.verdict = .written

section Step

variable {c c' : Connection} {now : Nat} {a : Action} {es : List Event}

/-- A waiter that is abandoned keeps its reply, unless it still awaited one. -/
theorem Wait.reply_abandonIf (ts : List Ticket) (w : Wait) : (w.abandonIf ts).reply = w.reply ∨
    w.reply = .awaited ∧ w.ticket ∈ ts ∧ (w.abandonIf ts).reply = .abandoned := by
  unfold abandonIf
  by_cases held : w.ticket ∈ ts
  · cases reply : w.reply <;> simp [held]
  · simp [held]

/-- A waiter in the registry is there under its own ID, and its connection is live. -/
theorem Coherent.of_mem_tickets (h : Coherent c) {w : Wait} (member : w ∈ c.waits)
    (held : w.ticket ∈ c.registry.tickets) :
    c.connected = true ∧ ∃ id, w.purpose.id? = some id := by
  obtain ⟨⟨id, t⟩, entry, same⟩ := List.mem_map.1 held
  obtain ⟨v, v_member, v_same, waiting, _⟩ := (h.entry_iff id t).1 entry
  obtain rfl := h.wait_unique v_member member (v_same.trans same)
  exact ⟨h.live_of_entry entry, id, waiting⟩

/-- Whatever an action makes of the waiters, a waiter that stays becomes what is made of it. -/
theorem Coherent.eq_image (h : Coherent c) {ws : List Wait} {f : Wait → Wait} {w w' : Wait}
    (waits : c'.waits = ws.map f) (ticket : ∀ v, (f v).ticket = v.ticket)
    (origin : ∀ v ∈ ws, v ∈ c.waits ∨ v.ticket = c.nextTicket) (member : w ∈ c.waits)
    (member' : w' ∈ c'.waits) (same : w'.ticket = w.ticket) : w' = f w := by
  rw [waits] at member'
  obtain ⟨v, v_member, rfl⟩ := List.mem_map.1 member'
  rw [ticket] at same
  rcases origin v v_member with old | new
  · rw [h.wait_unique old member same]
  · exact absurd (same.symm.trans new) (Nat.ne_of_lt (h.ticket_lt w member))

/-- The same of an action that leaves the waiters as they are. -/
theorem Coherent.eq_of_waits (h : Coherent c) {ws : List Wait} {w w' : Wait} (waits : c'.waits = ws)
    (origin : ∀ v ∈ ws, v ∈ c.waits ∨ v.ticket = c.nextTicket) (member : w ∈ c.waits)
    (member' : w' ∈ c'.waits) (same : w'.ticket = w.ticket) : w' = w :=
  h.eq_image (f := id) (by rw [waits, List.map_id]) (fun _ => rfl) origin member member' same

/-- Who waits once a party has joined did so before, or is that party. -/
theorem old_or_new_of_mem_join {purpose : Purpose} {verdict : Verdict} :
    ∀ v ∈ (c.join purpose verdict).waits, v ∈ c.waits ∨ v.ticket = c.nextTicket := by
  intro v member
  rw [waits_join] at member
  rcases List.mem_append.1 member with old | new
  · exact .inl old
  · exact .inr (by rw [List.mem_singleton.1 new])

/-- Those whose wait comes to nothing when a party leaves: who stands under the ID of the party. -/
theorem waits_leave_eq (c : Connection) (p : Party) : (c.leave p).waits =
    (c.waits.filter fun w => w.ticket ≠ p.ticket).map
      (Wait.abandonIf (p.purpose.id?.bind c.registry.find?).toList) := by
  obtain ⟨-, -, rest⟩ := Coherent.waits_leave c p
  cases own : p.purpose.id? with
  | none =>
    simp only [own] at rest
    rw [rest.2, Option.bind_none, Option.toList_none, Wait.map_abandonIf_nil]
  | some id =>
    simp only [own] at rest
    exact rest.2

/-- Who is abandoned in a moment awaited its reply, and the moment gives the reply up. -/
theorem Coherent.reply_of_abandonIf (h : Coherent c) {w : Wait} {ts : List Ticket} (member : w ∈ c.waits)
    (why : w.ticket ∈ ts → ∃ id, w.purpose.id? = some id ∧ GivesUp ⟨now, a, es, c, c'⟩ w.ticket id) :
    (w.abandonIf ts).reply = w.reply ∨ w.reply = .awaited ∧
      Settles ⟨now, a, es, c, c'⟩ w.ticket w.purpose (w.abandonIf ts).reply := by
  refine (w.reply_abandonIf ts).imp_right fun ⟨awaits, held, abandoned⟩ => ?_
  obtain ⟨id, waiting, given_up⟩ := why held
  have entered := (h.entry_iff id w.ticket).2 ⟨w, member, rfl, waiting, awaits⟩
  rw [abandoned]
  exact ⟨awaits, .abandoned waiting entered given_up⟩

/-- A moment behind which the connection is dead gives up the replies of all that stand in the registry. -/
theorem Coherent.givesUp_of_dead (h : Coherent c) {w : Wait} (member : w ∈ c.waits)
    (dead : c'.connected = false) (held : w.ticket ∈ c.registry.tickets) :
    ∃ id, w.purpose.id? = some id ∧ GivesUp ⟨now, a, es, c, c'⟩ w.ticket id := by
  obtain ⟨live, id, waiting⟩ := h.of_mem_tickets member held
  exact ⟨id, waiting, .severed live dead⟩

/-- A response is handed to the waiter that is found under its key, and to no other one. -/
theorem Coherent.reply_of_answer (h : Coherent c) {w : Wait} {id : CorrelationId} {t : Ticket}
    {response : Response} (member : w ∈ c.waits) (waiting : c.registry.find? id = some t)
    (told : Event.delivered t response ∈ es) :
    (w.answer t response).reply = w.reply ∨ w.reply = .awaited ∧
      Settles ⟨now, a, es, c, c'⟩ w.ticket w.purpose (w.answer t response).reply := by
  by_cases mine : w.ticket = t
  · obtain ⟨v, v_member, v_same, _, awaits⟩ := h.wait_of_find? waiting
    obtain rfl := h.wait_unique v_member member (v_same.trans mine.symm)
    have answered : (v.answer t response).reply = .delivered response := by simp [Wait.answer, mine]
    rw [answered, mine]
    exact .inr ⟨awaits, .delivered told⟩
  · left
    simp [Wait.answer, mine]

/-- What an action does to the reply of a waiter that stays. -/
theorem Effect.reply_of_stays (h : Coherent c) (effect : Effect c now c' a es) {w w' : Wait}
    (member : w ∈ c.waits) (member' : w' ∈ c'.waits) (same : w'.ticket = w.ticket) :
    w'.reply = w.reply ∨
      w.reply = .awaited ∧ Settles ⟨now, a, es, c, c'⟩ w.ticket w.purpose w'.reply := by
  have old_only : ∀ v ∈ c.waits, v ∈ c.waits ∨ v.ticket = c.nextTicket := fun v old => .inl old
  have unchanged : w' = w → w'.reply = w.reply ∨ w.reply = .awaited ∧
      Settles ⟨now, a, es, c, c'⟩ w.ticket w.purpose w'.reply := fun becomes => .inl (becomes ▸ rfl)
  cases effect with
  | traffic like _ _ _ => exact unchanged (h.eq_of_waits like.waits old_only member member' same)
  | closed closes =>
    subst closes
    obtain rfl := h.eq_image (waits_sever c) (Wait.ticket_abandonIf _) old_only member member' same
    exact h.reply_of_abandonIf member (h.givesUp_of_dead member rfl)
  | lost _ like _ _ =>
    have waits := like.waits.trans (waits_sever c)
    obtain rfl := h.eq_image waits (Wait.ticket_abandonIf _) old_only member member' same
    exact h.reply_of_abandonIf member (h.givesUp_of_dead member like.connected)
  | @registered _ _ _ _ id _ _ _ entered like _ =>
    obtain ⟨-, -, -, -, parties⟩ := Coherent.waits_of_register? entered
    have waits := like.waits.trans parties
    obtain rfl := h.eq_image waits (Wait.ticket_abandonIf _) old_or_new_of_mem_join member member' same
    refine h.reply_of_abandonIf member fun held => ⟨id, h.id_of_find? member (Option.mem_toList.1 held), ?_⟩
    exact .displaced List.mem_cons_self
  | sent _ like _ => exact unchanged (h.eq_of_waits like.waits old_or_new_of_mem_join member member' same)
  | refused _ like _ _ =>
    exact unchanged (h.eq_of_waits (by rw [like]; rfl) old_only member member' same)
  | @left _ _ p found leaves how =>
    have mine : p.wait ∈ c.waits := List.mem_map_of_mem (List.mem_of_find?_eq_some found)
    have drops : Drops a es p.ticket := by
      rcases how with ⟨rfl, _⟩ | ⟨outcome, _, _, rfl⟩
      · exact .inr rfl
      · exact .inl ⟨outcome, List.mem_singleton_self _⟩
    have other : p.ticket ≠ w.ticket := by
      intro leaving
      have gone := ((Passage.of_effect h (.left found leaves how)).gone p.ticket drops).2
      exact gone w' member' (same.trans leaving.symm)
    have waits : c'.waits = _ := leaves ▸ waits_leave_eq c p
    obtain rfl := h.eq_image waits (Wait.ticket_abandonIf _)
      (fun v kept => .inl (List.mem_filter.1 kept).1) member member' same
    refine h.reply_of_abandonIf member fun held => ?_
    obtain ⟨id, own, stands⟩ := Option.bind_eq_some_iff.1 (Option.mem_toList.1 held)
    exact ⟨id, h.id_of_find? member stands, .removed mine other own drops⟩
  | @delivered _ response id t _ _ waiting like =>
    have waits := like.waits.trans (waits_handOver c id t response)
    obtain rfl := h.eq_image waits (Wait.ticket_answer t response) old_only member member' same
    exact h.reply_of_answer member waiting (List.mem_singleton_self _)

/-- What an action does to the write of an errand that stays. -/
theorem Dispatch.verdict_of_stays (h : Coherent c) (posted : Posted c)
    (dispatch : Dispatch c now c' a es) {e e' : Errand} (member : e ∈ c.errands)
    (member' : e' ∈ c'.errands) (same : e'.ticket = e.ticket) :
    e'.purpose = e.purpose ∧ (e'.verdict = e.verdict ∨
      e.verdict = .awaited ∧ Judges ⟨now, a, es, c, c'⟩ e.ticket e'.verdict) := by
  have unique : ∀ v ∈ c.errands, v.ticket = e.ticket → v = e := by
    intro v v_member same
    obtain ⟨p, p_member, rfl⟩ := List.mem_map.1 v_member
    obtain ⟨q, q_member, rfl⟩ := List.mem_map.1 member
    rw [h.party_unique p_member q_member same]
  have new_only : ∀ {purpose : Purpose} {verdict : Verdict},
      c'.errands = c.errands ++ [⟨c.nextTicket, purpose, verdict⟩] → e' = e := by
    intro purpose verdict errands
    rw [errands] at member'
    rcases List.mem_append.1 member' with old | new
    · exact unique e' old same
    · have below := h.errand_lt member
      rw [List.mem_singleton.1 new] at same
      exact absurd same.symm (Nat.ne_of_lt below)
  have judged : ∀ (items : List Outgoing) {verdict : Verdict},
      c'.errands = c.errands.map (Errand.judgeIf (items.map Outgoing.ticket) verdict) →
      (∀ t ∈ items.map Outgoing.ticket, t ∈ c.underway ∧ Judges ⟨now, a, es, c, c'⟩ t verdict) →
      e'.purpose = e.purpose ∧ (e'.verdict = e.verdict ∨
        e.verdict = .awaited ∧ Judges ⟨now, a, es, c, c'⟩ e.ticket e'.verdict) := by
    intro items verdict errands told
    rw [errands] at member'
    obtain ⟨v, v_member, rfl⟩ := List.mem_map.1 member'
    rw [Errand.ticket_judgeIf] at same
    obtain rfl := unique v v_member same
    refine ⟨Errand.purpose_judgeIf _ _ v, ?_⟩
    by_cases mine : v.ticket ∈ items.map Outgoing.ticket
    · rw [Errand.judgeIf_of_mem mine]
      exact .inr ⟨(posted.awaited_iff v member).2 (told _ mine).1, (told _ mine).2⟩
    · rw [Errand.judgeIf_of_not_mem mine]
      exact .inl rfl
  cases dispatch with
  | rests errands _ _ =>
    rw [errands] at member'
    rw [unique e' member' same]
    exact ⟨rfl, .inl rfl⟩
  | queues _ _ errands _ _ =>
    rw [new_only errands]
    exact ⟨rfl, .inl rfl⟩
  | joins _ errands _ _ _ =>
    rw [new_only errands]
    exact ⟨rfl, .inl rfl⟩
  | leaves errands _ _ =>
    rw [errands] at member'
    rw [unique e' (List.mem_filter.1 member').1 same]
    exact ⟨rfl, .inl rfl⟩
  | @writes item front errands =>
    refine judged [item] errands fun t mine => ?_
    obtain rfl := List.mem_singleton.1 mine
    exact ⟨by simp [underway, front], .written rfl (List.mem_singleton_self _)⟩
  | @fails _ _ items _ failing front errands _ =>
    refine judged items errands fun t mine => ⟨?_, .failed failing mine⟩
    unfold underway
    rw [front, List.map_append]
    exact List.mem_append_left _ mine

/-- An errand behind an action was there before, or is that of a party that comes. -/
theorem Dispatch.origin (dispatch : Dispatch c now c' a es) {e' : Errand}
    (member : e' ∈ c'.errands) : (∃ e ∈ c.errands, e'.ticket = e.ticket) ∨
      e'.ticket = c.nextTicket ∧ a.purpose? now = some e'.purpose ∧
        (e'.verdict = .awaited ∨ Judges ⟨now, a, es, c, c'⟩ e'.ticket e'.verdict ∨
          (∃ id, e'.purpose = .wait id) ∧ e'.verdict = .written) := by
  cases dispatch with
  | rests errands _ _ => exact .inl ⟨e', errands ▸ member, rfl⟩
  | queues _ adds errands _ _ =>
    rw [errands] at member
    rcases List.mem_append.1 member with old | new
    · exact .inl ⟨e', old, rfl⟩
    · rw [List.mem_singleton.1 new]
      exact .inr ⟨rfl, adds, .inl rfl⟩
  | joins adds errands _ _ how =>
    rw [errands] at member
    rcases List.mem_append.1 member with old | new
    · exact .inl ⟨e', old, rfl⟩
    · rw [List.mem_singleton.1 new]
      refine .inr ⟨rfl, adds, .inr ?_⟩
      rcases how with waits | ⟨framed, ended, rfl⟩
      · exact .inr waits
      · exact .inl (.refused rfl adds framed ended)
  | leaves errands _ _ =>
    rw [errands] at member
    exact .inl ⟨e', (List.mem_filter.1 member).1, rfl⟩
  | writes _ errands =>
    rw [errands] at member
    obtain ⟨e, e_member, rfl⟩ := List.mem_map.1 member
    exact .inl ⟨e, e_member, Errand.ticket_judgeIf _ _ e⟩
  | fails _ _ errands _ =>
    rw [errands] at member
    obtain ⟨e, e_member, rfl⟩ := List.mem_map.1 member
    exact .inl ⟨e, e_member, Errand.ticket_judgeIf _ _ e⟩

/-- A party behind an action has gone on through it, or comes with it. -/
theorem Advance.of_step (h : Coherent c) (posted : Posted c) (taken : c.step now a = some (c', es))
    {p' : Party} (member : p' ∈ c'.parties) :
    (∃ p ∈ c.parties, Advance ⟨now, a, es, c, c'⟩ p p') ∨ Arrives ⟨now, a, es, c, c'⟩ p' := by
  have wait_member : p'.wait ∈ c'.waits := List.mem_map_of_mem member
  have errand_member : p'.errand ∈ c'.errands := List.mem_map_of_mem member
  have dispatch := Dispatch.of_step h taken
  rcases dispatch.origin errand_member with ⟨e, e_member, same⟩ | ⟨new, adds, verdict⟩
  · obtain ⟨p, p_member, rfl⟩ := List.mem_map.1 e_member
    obtain ⟨purpose, verdict⟩ := dispatch.verdict_of_stays h posted e_member errand_member same
    have reply := Effect.reply_of_stays h (.of_step taken) (List.mem_map_of_mem p_member)
      wait_member same
    exact .inl ⟨p, p_member, same, purpose, verdict, reply⟩
  · refine .inr ⟨new, adds, ?_, verdict⟩
    rcases (Passage.of_step h taken).origin p'.wait wait_member with
      ⟨w, w_member, same, _⟩ | ⟨_, _, awaits, _⟩
    · exact absurd (same.symm.trans new) (Nat.ne_of_lt (h.ticket_lt w w_member))
    · exact awaits

/-- A party that stays, and whose entry goes without a reply, has its reply given up. -/
theorem abandoned_of_unlisted {p : Party} {id : CorrelationId} (h : Coherent c) (posted : Posted c)
    (taken : c.step now a = some (c', es)) (member : p ∈ c.parties)
    (entered : (id, p.ticket) ∈ c.registry.entries) (unlisted : (id, p.ticket) ∉ c'.registry.entries)
    (stays : ¬ Drops a es p.ticket) (undelivered : ∀ response, .delivered p.ticket response ∉ es) :
    ∃ p' ∈ c'.parties, Advance ⟨now, a, es, c, c'⟩ p p' ∧ p'.reply = .abandoned := by
  obtain ⟨w', w_member, same, _⟩ :=
    ((Passage.of_step h taken).kept p.wait (List.mem_map_of_mem member)).resolve_left stays
  obtain ⟨p', member', rfl⟩ := List.mem_map.1 w_member
  have same_ticket : p'.ticket = p.ticket := same
  rcases Advance.of_step h posted taken member' with ⟨q, q_member, goes_on⟩ | comes
  · obtain rfl := h.party_unique q_member member (goes_on.ticket.symm.trans same_ticket)
    refine ⟨p', member', goes_on, ?_⟩
    obtain ⟨w, w_member, mine, waiting, awaits⟩ := (h.entry_iff id q.ticket).1 entered
    obtain rfl : w = q.wait := h.wait_unique w_member (List.mem_map_of_mem member) mine
    rcases goes_on.reply with unchanged | ⟨_, settles⟩
    · -- Who still awaited a reply would be listed.
      have coherent' : Coherent c' := h.of_effect (.of_step taken)
      have listed := (coherent'.entry_iff id p'.ticket).2 ⟨p'.wait, List.mem_map_of_mem member', rfl,
        by rw [← waiting]; exact congrArg Purpose.id? goes_on.purpose, unchanged.trans awaits⟩
      rw [same_ticket] at listed
      exact absurd listed unlisted
    · cases reply : p'.reply with
      | awaited =>
        rw [reply] at settles
        cases settles
      | abandoned => rfl
      | delivered response =>
        rw [reply] at settles
        cases settles with
        | delivered told => exact absurd told (undelivered response)
  · exact absurd (same_ticket.symm.trans comes.ticket) (Nat.ne_of_lt (h.party_lt member))

end Step

end CallPool.Connection
