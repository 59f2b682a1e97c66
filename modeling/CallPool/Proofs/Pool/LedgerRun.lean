import CallPool.Proofs.Pool.Making
import CallPool.Proofs.Pool.Move

/-!
# The ledger in a run

The accounts of the reconnectors are right in every state of a run (`Ledger.of_run`). Each change of
dials and reconnectors is entered into them by one of the four lemmas about ledgers; a chain of
changes, and so every action, by induction on the chain.
-/

set_option autoImplicit false

namespace CallPool.Pool.Ledger

variable {past es : List Event} {p p' : Pool} {now : Nat}

/-- The end of a reconnector tells of no dial. -/
theorem silent_endReconnector (p : Pool) (r : Reconnector) (filled : Bool) (t : Ticket) :
    dialsBy t (p.endReconnector r filled).2 = [] ∧ failuresOf t (p.endReconnector r filled).2 = [] := by
  constructor
  · apply List.filterMap_eq_nil_iff.2
    intro e member
    rcases mem_endReconnector member with rfl | rfl <;> rfl
  · apply List.filterMap_eq_nil_iff.2
    intro e member
    rcases mem_endReconnector member with rfl | rfl <;> rfl

/-- A reconnector ends, and its dial with it. -/
theorem endReconnector (h : Ledger past p) {r : Reconnector} {filled : Bool} {q : Pool}
    (keepDial : Dial → Bool) (front : List Event) (member : r ∈ p.reconnectors)
    (rest : q = { p with dials := p.dials.filter keepDial })
    (kept : ∀ d ∈ p.dials, keepDial d = !d.isOf r.ticket)
    (released : filled = true → r.owned = true → (r.slot, r.token) ∉ p.reconnecting)
    (undialed : ∀ t, dialsBy t front = []) (unfailed : ∀ t, failuresOf t front = [])
    (gaveUp : ∀ q, Event.gaveUp q ∈ front → q = r ∧ r.phase = .spent) :
    Ledger (past ++ (front ++ (q.endReconnector r filled).2)) (q.endReconnector r filled).1 := by
  have entries : ∀ e, e ∈ (q.endReconnector r filled).1.reconnecting →
      e ∈ p.reconnecting ∧ (filled = false → r.owned = true → e ≠ (r.slot, r.token)) := by
    intro e e_member
    have there := mem_reconnecting_endReconnector.1 e_member
    rw [rest] at there
    exact there
  have silent := silent_endReconnector q r filled
  have after := endReconnector_rest q r filled
  have drops : Drops p (front ++ (q.endReconnector r filled).2) (q.endReconnector r filled).1
      (fun x => x.ticket ≠ r.ticket) keepDial := by
    refine ⟨?_, ?_, ?_, ?_, ?_, ?_, ?_, ?_, ?_, ?_⟩
    · rw [after, rest]
    · exact Nat.le_of_eq (by rw [after, rest])
    · rw [after, rest]
    · rw [after, rest]
    · intro e e_member
      obtain ⟨there, unreleased⟩ := entries e e_member
      refine ⟨there, fun x x_member owned slot token => decide_eq_true fun same => ?_⟩
      obtain rfl := h.eq_of_ticket x_member member same
      have mine : e = (x.slot, x.token) := by rw [slot, token]
      cases filled with
      | true =>
        rw [mine] at there
        exact released rfl owned there
      | false => exact unreleased rfl owned mine
    · intro x x_member x_kept d d_member owner
      rw [kept d d_member, Dial.isOf_other owner (of_decide_eq_true x_kept).symm]
      rfl
    · intro x x_member d d_member owner d_kept
      apply decide_eq_true
      intro same
      rw [same] at owner
      rw [kept d d_member, Dial.isOf_owner owner] at d_kept
      cases d_kept
    · intro t
      rw [dialsBy_append, undialed, (silent t).1]
      rfl
    · intro t
      rw [failuresOf_append, unfailed, (silent t).2]
      rfl
    · intro x x_gaveUp
      rcases List.mem_append.1 x_gaveUp with early | late
      · obtain ⟨rfl, spent⟩ := gaveUp x early
        exact ⟨member, spent, decide_eq_false (not_not_intro rfl)⟩
      · rcases mem_endReconnector late with seen | seen
        · cases seen
        · cases seen
  exact h.drop drops

/-- A reconnector that ends without a dial under way leaves the accounts of the others right. -/
theorem endReconnector_of_resting (h : Ledger past p) {r : Reconnector} (front : List Event)
    (member : r ∈ p.reconnectors) (resting : r.phase ≠ .dialing)
    (undialed : ∀ t, dialsBy t front = []) (unfailed : ∀ t, failuresOf t front = [])
    (gaveUp : ∀ q, Event.gaveUp q ∈ front → q = r ∧ r.phase = .spent) :
    Ledger (past ++ (front ++ (p.endReconnector r false).2)) (p.endReconnector r false).1 := by
  refine h.endReconnector (fun _ => true) front member ?_ ?_ nofun undialed unfailed gaveUp
  · rw [List.filter_true]
  · intro d d_member
    cases mine : d.isOf r.ticket with
    | false => rfl
    | true => exact absurd (h.dial_of_member d_member member (of_decide_eq_true mine)).1 resting

/-- What is told of a dial that is not made for a reconnector concerns no reconnector. -/
theorem silent_of_foreign {d : Dial} (other : ∀ t, d.owner ≠ .reconnector t)
    (result : Except Error Unit) (t : Ticket) :
    dialsBy t [.dialEnded d result] = [] ∧ failuresOf t [.dialEnded d result] = [] := by
  have foreign : d.isOf t = false := decide_eq_false (other t)
  cases result with
  | ok _ => exact ⟨rfl, rfl⟩
  | error e => simp [foreign]

/-- A dial that is made for no reconnector ends without a trace in the accounts. -/
theorem ends (h : Ledger past p) {d : Dial} {result : Except Error Unit} (member : d ∈ p.dials)
    (other : ∀ r ∈ p.reconnectors, d.owner ≠ .reconnector r.ticket) :
    Ledger (past ++ [.dialEnded d result]) (p.dropDial d.ticket) := by
  have foreign : ∀ t, d.owner ≠ .reconnector t := by
    intro t owner
    obtain ⟨r, r_member, rfl⟩ := h.owner d member t owner
    exact other r r_member owner
  have silent := silent_of_foreign foreign result
  have drops : Drops p [.dialEnded d result] (p.dropDial d.ticket) (fun _ => true)
      fun e => e.ticket ≠ d.ticket := by
    refine ⟨rfl, Nat.le_refl _, by simp [dropDial], rfl,
      fun e e_member => ⟨e_member, fun _ _ _ _ _ => rfl⟩, ?_, fun _ _ _ _ _ _ => rfl,
      fun t => (silent t).1, fun t => (silent t).2, by simp⟩
    intro r _ _ e e_member owner
    apply decide_eq_true
    intro same
    rw [List.inj_on_of_nodup_map h.dials_nodup e_member member same] at owner
    exact foreign _ owner
  exact h.drop drops

/-- A reconnector whose dial has ended well leaves the accounts of the others right. -/
theorem fills (h : Ledger past p) {d : Dial} {r : Reconnector} (d_member : d ∈ p.dials)
    (r_member : r ∈ p.reconnectors) (owner : d.owner = .reconnector r.ticket)
    (released : r.owned = true → (r.slot, r.token) ∉ p.reconnecting) :
    Ledger (past ++ (.dialEnded d (.ok ()) :: ((p.dropDial d.ticket).endReconnector r true).2))
      ((p.dropDial d.ticket).endReconnector r true).1 := by
  -- The dial that ends is the only one of the reconnector, so no dial is left without an owner.
  have only := (h.dial_of_member d_member r_member owner).2
  refine h.endReconnector (fun e => e.ticket ≠ d.ticket) [.dialEnded d (.ok ())] r_member rfl
    ?_ (fun _ => released) (fun _ => rfl) (fun _ => rfl) (by simp)
  intro e e_member
  cases mine : e.isOf r.ticket with
  | true =>
    have there : e ∈ p.dials.filter (Dial.isOf r.ticket) := List.mem_filter.2 ⟨e_member, mine⟩
    rw [only] at there
    rw [List.mem_singleton.1 there]
    exact decide_eq_false (not_not_intro rfl)
  | false =>
    apply decide_eq_true
    intro same
    rw [List.inj_on_of_nodup_map h.dials_nodup e_member d_member same] at mine
    exact of_decide_eq_false mine owner

/-- A reconnector that has slept dials: the dial is entered into its account. -/
theorem redials (h : Ledger past p) {r : Reconnector} {due : Nat} (member : r ∈ p.reconnectors)
    (asleep : r.phase = .sleeping due) :
    Ledger
      (past ++ ((p.setReconnector r.ticket r.dialing).dial now r.slot (.reconnector r.ticket)).2)
      ((p.setReconnector r.ticket r.dialing).dial now r.slot (.reconnector r.ticket)).1 := by
  have tally := h.tally r member
  have resting := tally.resting (by simp [asleep])
  let d : Dial := ⟨p.nextTicket, r.slot, .reconnector r.ticket, now⟩
  have own : d.isOf r.ticket = true := Dial.isOf_owner rfl
  have foreign : ∀ t, t ≠ r.ticket → d.isOf t = false := fun t => Dial.isOf_other rfl
  have begun : dialsBy r.ticket (past ++ [.dialed d]) = dialsBy r.ticket past ++ [d] := by
    simp [own]
  have failed : failuresOf r.ticket (past ++ [.dialed d]) = failuresOf r.ticket past := by
    simp
  have under_way : (p.dials ++ [d]).filter (Dial.isOf r.ticket) = [d] := by
    rw [List.filter_append, resting]
    simp [own]
  obtain ⟨nodup, below⟩ := nodup_map_append_new (x := d) h.dials_nodup h.dial_lt rfl
  refine h.update r.dialing member rfl rfl (Nat.le_succ _) rfl rfl nodup below ?_ ?_
    ?_ (fun _ _ => rfl) (by simp [Pool.dial]) ?_
  · intro e e_member
    rcases List.mem_append.1 e_member with older | newest
    · exact .inl older
    · rw [List.mem_singleton.1 newest]
      exact .inr rfl
  · intro t other
    change (p.dials ++ [d]).filter _ = _
    rw [List.filter_append]
    simp [foreign t other]
  · intro t other
    change dialsBy t [.dialed d] = []
    simp [foreign t other]
  · change Tally (past ++ [.dialed d]) (p.dials ++ [d]) r.dialing
    refine ⟨?_, ?_, ?_, fun _ => ⟨d, under_way⟩, fun resting => absurd rfl resting, ?_, ?_⟩
    · change dialsBy r.ticket _ = failuresOf r.ticket _ ++ (p.dials ++ [d]).filter (Dial.isOf r.ticket)
      rw [begun, failed, under_way, tally.begun, resting, List.append_nil]
    · change (failuresOf r.ticket _).length = r.attempt
      rw [failed]
      exact tally.failed
    · change ∀ e ∈ dialsBy r.ticket _, e.slot = r.slot
      rw [begun]
      intro e e_member
      rcases List.mem_append.1 e_member with older | newest
      · exact tally.slot e older
      · rw [List.mem_singleton.1 newest]
    · intro _
      exact tally.more (by simp [asleep])
    · intro spent
      cases spent

/-- The dial of a reconnector fails: the failure is entered into its account. -/
theorem fails (h : Ledger past p) {d : Dial} {r : Reconnector} {error : Error} (d_member : d ∈ p.dials)
    (r_member : r ∈ p.reconnectors) (owner : d.owner = .reconnector r.ticket) :
    Ledger (past ++ [.dialEnded d (.error error)])
      ((p.dropDial d.ticket).setReconnector r.ticket (r.failed now)) := by
  have tally := h.tally r r_member
  obtain ⟨dialing, only⟩ := h.dial_of_member d_member r_member owner
  have more := tally.more (by simp [dialing])
  have own := Dial.isOf_owner owner
  have begun : dialsBy r.ticket (past ++ [.dialEnded d (.error error)]) = dialsBy r.ticket past := by
    simp
  have failed : failuresOf r.ticket (past ++ [.dialEnded d (.error error)]) =
      failuresOf r.ticket past ++ [d] := by
    simp [own]
  have others : ∀ e ∈ p.dials, e ≠ d → e.ticket ≠ d.ticket := by
    intro e e_member different same
    exact different (List.inj_on_of_nodup_map h.dials_nodup e_member d_member same)
  have ended : (p.dropDial d.ticket).dials.filter (Dial.isOf r.ticket) = [] := by
    rw [List.filter_eq_nil_iff]
    intro e e_member mine
    obtain ⟨there, different⟩ := List.mem_filter.1 e_member
    have same : e ∈ p.dials.filter (Dial.isOf r.ticket) := List.mem_filter.2 ⟨there, mine⟩
    rw [only] at same
    rw [List.mem_singleton.1 same] at different
    exact of_decide_eq_true different rfl
  refine h.update (r.failed now) r_member rfl rfl (Nat.le_refl _) rfl rfl ?_ ?_
    ?_ ?_ (fun _ _ => rfl) ?_ (by simp) ?_
  · exact (List.filter_sublist.map _).nodup h.dials_nodup
  · intro e e_member
    exact h.dial_lt e (List.mem_of_mem_filter e_member)
  · intro e e_member
    exact .inl (List.mem_of_mem_filter e_member)
  · intro t other
    change (p.dials.filter _).filter _ = _
    rw [List.filter_filter]
    refine List.filter_congr fun e e_member => ?_
    by_cases same : e = d
    · rw [same, Dial.isOf_other owner other]
      rfl
    · simp [others e e_member same]
  · intro t other
    simp [Dial.isOf_other owner other]
  · have asleep : (r.failed now).phase = phaseAt r.schedule (r.attempt + 1) now := rfl
    apply Tally.of_phaseAt (r := r.failed now) asleep more ended
    · change dialsBy r.ticket _ = failuresOf r.ticket _
      rw [begun, failed, tally.begun, only]
    · change (failuresOf r.ticket _).length = r.attempt + 1
      rw [failed, List.length_append, tally.failed]
      rfl
    · change ∀ e ∈ dialsBy r.ticket _, e.slot = r.slot
      rw [begun]
      exact tally.slot

/-- A reconnector that is started begins with an empty account. -/
theorem starts (h : Ledger past p) {slot : Nat} (isOpen : p.closed = false)
    (free : p.tokenOf? slot = none) :
    Ledger (past ++ (p.recover now slot).2) (p.recover now slot).1 := by
  rw [recover_of_free isOpen free]
  refine h.addReconnector ?_ fun _ => ⟨rfl, rfl⟩
  intro e member
  rcases List.mem_append.1 member with older | newest
  · exact .inl older
  · exact .inr ⟨rfl, List.mem_singleton.1 newest⟩

/-- Every change of dials and reconnectors is entered into the accounts. -/
theorem of_work (h : Ledger past p) (work : Work now p es p') : Ledger (past ++ es) p' := by
  cases work with
  | aside other => exact h.aside other
  | dials other => exact h.dial other
  | ends member other => exact h.ends member other
  | starts isOpen free => exact h.starts isOpen free
  | joins => exact h.addReconnector (fun _ member => .inl member) nofun
  | redials member asleep _ _ => exact h.redials member asleep
  | fails d_member r_member owner => exact h.fails d_member r_member owner
  | fills d_member r_member owner released => exact h.fills d_member r_member owner released
  | @givesUp r member spent =>
    refine h.endReconnector_of_resting [.gaveUp r] member (by simp [spent])
      (fun _ => rfl) (fun _ => rfl) ?_
    intro q q_gaveUp
    exact ⟨Event.gaveUp.inj (List.mem_singleton.1 q_gaveUp), spent⟩
  | stops member asleep _ =>
    exact h.endReconnector_of_resting [] member (by simp [asleep])
      (fun _ => rfl) (fun _ => rfl) nofun

/-- Work keeps the accounts right. -/
theorem of_works (h : Ledger past p) (works : Works now p es p') : Ledger (past ++ es) p' := by
  induction works generalizing past with
  | nil p =>
    rw [List.append_nil]
    exact h
  | cons work _ ih =>
    rw [← List.append_assoc]
    exact ih (h.of_work work)

/-- A caller that is dropped leaves the accounts right, if it owns no reconnector of the pool. -/
theorem cancel (h : Ledger past p) {t : Ticket} (unowned : p.owns t = false) :
    Ledger (past ++ (p.cancel now t).2) (p.cancel now t).1 := by
  have work : Drops p [] (p.dropWork t) (fun r => r.ticket ≠ t) fun d => !d.isFor t := by
    refine ⟨rfl, Nat.le_refl _, rfl, rfl, ?_, ?_, ?_, fun _ => rfl, fun _ => rfl, nofun⟩
    -- An entry belongs to a reconnector of the pool, which no caller can drop.
    · intro e member
      refine ⟨member, fun r r_member owned _ _ => decide_eq_true fun same => ?_⟩
      have owns : p.owns t = true := by
        apply List.any_eq_true.2
        exact ⟨r, r_member, by simp [owned, same]⟩
      rw [unowned] at owns
      cases owns
    · intro r _ other d _ owner
      have different := of_decide_eq_true other
      simp [Dial.isFor, owner, different]
    · intro r _ d _ owner kept
      simpa [Dial.isFor, owner] using kept
  have dropped := (h.drop work).aside (.cancel p now t)
  rw [List.append_nil] at dropped
  exact dropped

/-- Closing a pool leaves the accounts of the reconnectors that go on right. -/
theorem close (h : Ledger past p) : Ledger (past ++ (p.close now).2) (p.close now).1 := by
  have quiet : ∀ e ∈ (p.close now).2, e.isAside = true := by
    intro e member
    rw [mem_close member]
    rfl
  have rest := close_rest p now
  generalize (p.close now).1 = q at rest ⊢
  refine h.drop ⟨by rw [rest], ?_, by rw [rest], by rw [rest], ?_, ?_, ?_, dialsBy_of_aside quiet,
    failuresOf_of_aside quiet, ?_⟩
  · rw [rest]
    exact Nat.le_succ _
  · intro e member
    rw [rest] at member
    cases member
  · intro r r_member kept d _ owner
    rw [Bool.not_eq_true', List.any_eq_false]
    intro t stopped mine
    obtain ⟨q, q_stopped, rfl⟩ := List.mem_map.1 stopped
    obtain ⟨q_member, owned⟩ := List.mem_filter.1 q_stopped
    have same := owner.symm.trans (of_decide_eq_true mine)
    rw [h.eq_of_ticket r_member q_member (Owner.reconnector.inj same), owned] at kept
    cases kept
  · intro r r_member d _ owner kept
    cases owned : r.owned with
    | false => rfl
    | true =>
      rw [Bool.not_eq_true', List.any_eq_false] at kept
      have stopped : r.ticket ∈ (p.reconnectors.filter fun r => r.owned).map Reconnector.ticket :=
        List.mem_map.2 ⟨r, List.mem_filter.2 ⟨r_member, owned⟩, rfl⟩
      exact absurd (decide_eq_true owner) (kept _ stopped)
  · intro r member
    cases quiet _ member

/-- Notices do not matter to the accounts. -/
theorem hear (h : Ledger past p) (notices : List Notice) : Ledger past { p with notices := notices } :=
  ⟨h.tickets_nodup, h.ticket_lt, h.dials_nodup, h.dial_lt, h.tally, h.owner, h.entry, h.owned, h.unborn,
    h.gaveUp⟩

/-- An installation does not matter to the accounts. -/
theorem of_installation {slot g : Nat} {token : Option Token} {result : Except Error Unit}
    (h : Ledger past p) (installation : Installation p slot g token p' result es) :
    Ledger (past ++ es) p' := by
  have rest := installation.rest
  apply h.keep
  · rw [rest]
  · exact Nat.le_of_eq (by rw [rest])
  · rw [rest]
  · rw [rest]
  · exact fun e => installation.mem_reconnecting
  · cases installation <;> simp [Event.isAside]

/-- Every action keeps the accounts right. -/
theorem of_move (h : Ledger past p) (move : Move now p es p') : Ledger (past ++ es) p' := by
  cases move with
  | works works => exact h.of_works works
  | closes => exact h.close
  | drops unowned => exact h.cancel unowned
  | @supervises _ rest _ _ _ _ handled => exact (h.hear rest).of_works (.of_handled handled)
  | installs _ opens _ installation concludes _ =>
    have concluded := ((h.aside opens).of_installation installation).of_works concludes
    simpa only [List.append_assoc] using concluded

/-- A pool that has just been made has no accounts to keep. -/
theorem of_fresh (fresh : Fresh p) : Ledger [] p := by
  refine ⟨?_, ?_, ?_, ?_, ?_, ?_, ?_, ?_, fun _ _ => ⟨rfl, rfl⟩, nofun⟩
  · rw [fresh.reconnectors]
    exact List.nodup_nil
  · rw [fresh.reconnectors]
    exact nofun
  · rw [fresh.dials]
    exact List.nodup_nil
  · rw [fresh.dials]
    exact nofun
  · rw [fresh.reconnectors]
    exact nofun
  · rw [fresh.dials]
    exact nofun
  · rw [fresh.reconnecting]
    exact nofun
  · rw [fresh.reconnectors]
    exact nofun

/-- In every run the accounts of the reconnectors are right. -/
theorem of_run {options : Options} {start : Pool} {began : Nat} {moments : List Moment}
    (made : Pool.new options = .ok start) (run : Run start began moments now p) :
    Ledger (eventsOf moments) p := by
  induction run with
  | start => exact of_fresh (.of_new made)
  | act _ taken ih =>
    rw [eventsOf_append, eventsOf_cons, eventsOf_nil, List.append_nil]
    exact ih.of_move (.of_step ih taken)
  | rest _ _ _ ih => exact ih

end CallPool.Pool.Ledger
