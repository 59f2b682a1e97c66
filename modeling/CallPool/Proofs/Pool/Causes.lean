import CallPool.Proofs.Pool.Timetable

/-!
# Why a slot is dialed

Nothing begins for a slot without a cause: a caller asks for it, the supervisor has heard that the
connection in it was lost, a connection round that dials it has failed, or a reconnector of it has slept
enough (`Cause.of_step`). And what works for a slot has worked for it before, or has just been started
(`stems_of_step`). A reconnector that gives up is not replaced by the same action
(`not_recovering_of_gaveUp`).
-/

set_option autoImplicit false

namespace CallPool.Pool

variable {p p' q : Pool} {now : Nat} {past es : List Event} {a : Action} {e : Event} {s : Nat} {t : Ticket}

/-! ## Beginnings -/

/-- The slot for which a dial begins or a reconnector starts. -/
def Event.begins? : Event → Option Nat
  | .dialed d => some d.slot
  | .recovering r => some r.slot
  | _ => none

/-- What tells nothing of dials and reconnectors begins none. -/
theorem begins?_of_aside (kind : e.isAside = true) : e.begins? = none := by
  cases e <;> first | rfl | cases kind

/-- The end of a reconnector begins nothing. -/
theorem begins?_endReconnector {r : Reconnector} {filled : Bool}
    (member : e ∈ (p.endReconnector r filled).2) : e.begins? = none := by
  rcases mem_endReconnector member with rfl | rfl <;> rfl

/-- Whether a caller asks for a slot: for all that are not live, for one dial, or for a reconnector of
its own. -/
def Action.asksFor (s : Nat) : Action → Bool
  | .connect => true
  | .fill slot _ => slot = s
  | .reconnect slot _ _ _ => slot = s
  | _ => false

/-- The round with a ticket is under way and has dialed a slot. -/
def Covers (p : Pool) (t : Ticket) (s : Nat) : Prop :=
  ∃ R, p.rounds.find? (fun R => R.ticket = t) = some R ∧ s ∈ R.results.map Prod.fst

/-- A round has dialed the same slots when the end of a dial has been entered. -/
theorem Covers.of_enter {u : Ticket} {d : Dial} {result : Except Error Unit}
    (h : (p.enter u d result).Covers t s) : p.Covers t s := by
  obtain ⟨R, found, member⟩ := h
  unfold enter at found
  rw [List.find?_map] at found
  have tickets : ((fun R : Round => decide (R.ticket = t)) ∘ fun R : Round => if R.ticket = u then
      { R with results := R.results.map fun e => if e.1 = d.slot then (e.1, some result) else e }
      else R) = fun R => decide (R.ticket = t) := by
    funext R
    by_cases this : R.ticket = u
    · simp [this]
    · simp [this]
  rw [tickets] at found
  obtain ⟨R₀, there, rfl⟩ := Option.map_eq_some_iff.1 found
  refine ⟨R₀, there, ?_⟩
  split at member
  · have slots : (fun e : Nat × Option (Except Error Unit) =>
        (if e.1 = d.slot then (e.1, some result) else e).1) = Prod.fst := by
      funext e
      by_cases this : e.1 = d.slot
      · simp [this]
      · simp [this]
    rw [List.map_map] at member
    change s ∈ R₀.results.map (fun e => (if e.1 = d.slot then (e.1, some result) else e).1) at member
    rw [slots] at member
    exact member
  · exact member

/-- All that the supervisor does about a loss is to start a reconnector for the slot that still holds the
connection. -/
theorem mem_handleLoss {n : Notice} (member : e ∈ (p.handleLoss now n).2) :
    p.slots[n.slot]? = some (some n.generation) ∧
      ∃ r, e = .recovering r ∧ r.slot = n.slot ∧ r.owned = true := by
  unfold handleLoss at member
  split at member
  · cases member
  · split at member
    · rename_i held
      exact ⟨Option.join_eq_some_iff.1 held, mem_recover member⟩
    · cases member

/-- A round that settles starts reconnectors for slots that it has dialed. -/
theorem covers_of_settleRound {r : Reconnector} (member : Event.recovering r ∈ (p.settleRound now t).2) :
    p.Covers t r.slot := by
  rcases mem_settleRound member with ⟨R, _, found, same, failed⟩ | ⟨_, same⟩
  · obtain rfl := Event.recovering.inj same
    obtain ⟨x, listed, mine⟩ := List.mem_map.1 failed
    exact ⟨R, found, List.mem_map.2 ⟨x, List.mem_of_mem_filter listed, mine⟩⟩
  · cases same

/-- What begins when the owner of a dial is told are reconnectors of the slots of its round. -/
theorem begins_of_conclude {d : Dial} {result : Except Error Unit}
    (member : e ∈ (p.conclude now d result).2) (begins : e.begins? = some s) :
    ∃ t r, d.owner = .round t ∧ e = .recovering r ∧ p.Covers t s := by
  cases owner : d.owner with
  | caller u token =>
    unfold conclude at member
    rw [owner] at member
    dsimp only at member
    rcases List.mem_cons.1 member with rfl | later
    · cases begins
    · rw [List.mem_singleton.1 later] at begins
      cases begins
  | round u =>
    rw [conclude_of_round owner] at member
    rcases List.mem_cons.1 member with rfl | later
    · cases begins
    · rcases mem_settleRound later with ⟨_, r, _, rfl, _⟩ | ⟨_, rfl⟩
      · obtain rfl := Option.some.inj begins
        exact ⟨u, r, rfl, rfl, (covers_of_settleRound later).of_enter⟩
      · cases begins
  | reconnector u =>
    unfold conclude at member
    rw [owner] at member
    dsimp only at member
    split at member
    · rcases List.mem_cons.1 member with rfl | later
      · cases begins
      · unfold advanceReconnector at later
        dsimp only at later
        split at later
        · rw [begins?_endReconnector later] at begins
          cases begins
        · split at later
          · rcases List.mem_cons.1 later with rfl | ended
            · cases begins
            · rw [begins?_endReconnector ended] at begins
              cases begins
          · cases later
    · rw [List.mem_singleton.1 member] at begins
      cases begins

/-- Why a dial begins or a reconnector starts for a slot. -/
inductive Cause (p : Pool) (s : Nat) : Action → Event → Prop
  /-- A caller asks for it. -/
  | asked {a : Action} {e : Event} (asks : a.asksFor s = true) : Cause p s a e
  /-- The supervisor takes the notice of its connection. -/
  | heard {n : Notice} {rest : List Notice} {r : Reconnector} (notices : p.notices = n :: rest)
      (slot : n.slot = s) (held : p.slots[s]? = some (some n.generation)) (owned : r.owned = true) :
      Cause p s .supervise (.recovering r)
  /-- A round that has dialed it ends. -/
  | failed {a : Action} {d : Dial} {t : Ticket} {r : Reconnector} (ends : a.ends? = some d.ticket)
      (member : d ∈ p.dials) (owner : d.owner = .round t) (covers : p.Covers t s) :
      Cause p s a (.recovering r)
  /-- A reconnector of it has slept enough. -/
  | awake {r : Reconnector} {due : Nat} {d : Dial} (member : r ∈ p.reconnectors) (slot : r.slot = s)
      (asleep : r.phase = .sleeping due) : Cause p s (.wakeReconnector r.ticket) (.dialed d)

namespace Cause

/-- A reconnector that is woken begins its own dial only. -/
theorem of_waking {r : Reconnector} (member : r ∈ p.reconnectors) (waking : Waking now p r es p')
    (told : e ∈ es) (begins : e.begins? = some s) : Cause p s (.wakeReconnector r.ticket) e := by
  have unended : e ∉ (p.endReconnector r false).2 := by
    intro ended
    rw [begins?_endReconnector ended] at begins
    cases begins
  cases waking with
  | givesUp _ =>
    rcases List.mem_cons.1 told with rfl | ended
    · cases begins
    · exact absurd ended unended
  | stops _ _ => exact absurd told unended
  | redials asleep _ _ =>
    obtain rfl := List.mem_singleton.1 told
    exact .awake member (Option.some.inj begins) asleep

/-- No action begins a dial or starts a reconnector for a slot without a cause. -/
theorem of_step (seated : Seated p) (taken : p.step now a = some (p', es)) (told : e ∈ es)
    (begins : e.begins? = some s) : Cause p s a e := by
  have aside : (∀ e ∈ es, e.isAside = true) → Cause p s a e := by
    intro quiet
    rw [begins?_of_aside (quiet e told)] at begins
    cases begins
  have ended : ∀ {t : Ticket}, a.ends? = some t → Cause p s a e := by
    intro t ends
    obtain ⟨d, r, front, result, member, rfl, ending, rfl, rfl⟩ := Ending.of_step seated ends taken
    rcases List.mem_append.1 told with early | late
    · rw [begins?_of_aside (ending.aside e early)] at begins
      cases begins
    · obtain ⟨u, x, owner, rfl, R, found, part⟩ := begins_of_conclude late begins
      have rounds : r.rounds = p.rounds := by rw [ending.rest]
      rw [rounds] at found
      exact .failed ends member owner ⟨R, found, part⟩
  cases Takes.of_step taken with
  | connects => exact .asked rfl
  | dials =>
    obtain rfl := List.mem_singleton.1 told
    exact .asked (decide_eq_true (Option.some.inj begins))
  | joins =>
    obtain rfl := List.mem_singleton.1 told
    exact .asked (decide_eq_true (Option.some.inj begins))
  | chooses => cases told
  | refuses _ _ => exact aside (Aside.refuses p _).quiet
  | passes _ _ _ absorbs => exact aside (Aside.passes absorbs).quiet
  | closes => exact aside (Sheds.close p now).quiet
  | @drops t _ => exact aside (Sheds.cancel p now t).quiet
  | acts _ went => exact aside (Aside.stepConnection went).quiet
  | hears _ notices =>
    obtain ⟨held, r, rfl, slot, owned⟩ := mem_handleLoss told
    obtain rfl := Option.some.inj begins
    exact .heard notices slot.symm (by rw [slot]; exact held) owned
  | wakes member waking => exact of_waking member waking told begins
  | opens _ _ _ => exact ended rfl
  | fails _ ends _ => exact ended ends
  | finishes _ stopped => exact aside (Aside.finishes stopped).quiet

end Cause

/-- A reconnector that gives up is not replaced at once. -/
theorem not_recovering_of_gaveUp (seated : Seated p) (taken : p.step now a = some (p', es))
    {r x : Reconnector} (gaveUp : Event.gaveUp r ∈ es) : Event.recovering x ∉ es := by
  intro told
  have unsettled : ∀ (q : Pool) (t : Ticket), Event.gaveUp r ∉ (q.settleRound now t).2 := by
    intro q t member
    rcases mem_settleRound member with ⟨_, _, _, same, _⟩ | ⟨_, same⟩
    · cases same
    · cases same
  cases Cause.of_step seated taken told rfl with
  | asked asks =>
    cases a with
    | connect =>
      obtain ⟨rfl, rfl⟩ := eq_of_taken taken
      cases closed : p.closed with
      | true =>
        have shut : p.takeTicket.2.closed = true := closed
        unfold connect at gaveUp
        dsimp only at gaveUp
        rw [if_pos shut] at gaveUp
        cases List.mem_singleton.1 gaveUp
      | false =>
        rw [connect_eq closed] at gaveUp
        rcases List.mem_append.1 gaveUp with dialed | settles
        · obtain ⟨_, _, same⟩ := List.mem_map.1 dialed
          cases same
        · exact unsettled _ _ settles
    | fill slot token =>
      obtain ⟨rfl, rfl⟩ := eq_of_taken taken
      cases List.mem_singleton.1 gaveUp
    | reconnect slot token schedule orphaned =>
      obtain ⟨rfl, rfl⟩ := eq_of_taken taken
      cases List.mem_singleton.1 gaveUp
    | _ => cases asks
  | heard _ _ _ _ =>
    cases Takes.of_step taken with
    | refuses asks _ => cases asks
    | passes asks _ _ _ => cases asks
    | fails _ ends _ => cases ends
    | hears _ _ =>
      obtain ⟨_, _, same, _⟩ := mem_handleLoss gaveUp
      cases same
  | @failed _ d t _ ends member owner _ =>
    obtain ⟨d', q, front, result, member', same, ending, rfl, rfl⟩ := Ending.of_step seated ends taken
    rcases List.mem_append.1 gaveUp with early | late
    · cases ending.quiet _ early
    · rcases List.mem_append.1 told with early | told
      · cases ending.quiet _ early
      · obtain ⟨u, _, owner, _, _⟩ := begins_of_conclude told rfl
        rw [conclude_of_round owner] at late
        rcases List.mem_cons.1 late with same | settles
        · cases same
        · exact unsettled _ _ settles

/-! ## Where reconnectors come from -/

/-- Two states of one reconnector. -/
def Reconnector.Kin (x y : Reconnector) : Prop := x = { y with attempt := x.attempt, phase := x.phase }

/-- A reconnector was there before, and has rested if it was spent, or it has been started since. -/
def Stems (p : Pool) (es : List Event) (x : Reconnector) : Prop :=
  (∃ y ∈ p.reconnectors, x.Kin y ∧ (y.phase = .spent → x.phase = .spent)) ∨
    ∃ y, Event.recovering y ∈ es ∧ x.Kin y

/-- A reconnector that goes on stems from where it did. -/
theorem Stems.next {x next : Reconnector} (h : Stems p past x) (awake : x.phase ≠ .spent)
    (kin : next = { x with attempt := next.attempt, phase := next.phase }) : Stems p past next := by
  have related : ∀ {y : Reconnector}, x.Kin y → next.Kin y := by
    intro y same
    unfold Reconnector.Kin at same ⊢
    rw [kin, same]
  rcases h with ⟨y, member, same, rested⟩ | ⟨y, told, same⟩
  · exact .inl ⟨y, member, related same, fun spent => absurd (rested spent) awake⟩
  · exact .inr ⟨y, told, related same⟩

/-- Where a reconnector stems from stays so in whatever follows. -/
theorem Stems.append {x : Reconnector} (h : Stems p past x) : Stems p (past ++ es) x := by
  rcases h with older | ⟨y, told, same⟩
  · exact .inl older
  · exact .inr ⟨y, List.mem_append_left _ told, same⟩

/-- Every change leaves reconnectors that stem from somewhere. -/
theorem Work.stems {r : Pool} {told : List Event} (work : Work now q es r) (ledger : Ledger past q)
    (so_far : ∀ x ∈ q.reconnectors, Stems p told x) : ∀ x ∈ r.reconnectors, Stems p (told ++ es) x := by
  have ended : ∀ {u : Pool} {y : Reconnector} {filled : Bool}, u.reconnectors = q.reconnectors →
      ∀ x ∈ (u.endReconnector y filled).1.reconnectors, Stems p (told ++ es) x := by
    intro u y filled same x member
    rw [endReconnector_rest, same] at member
    exact (so_far x (List.mem_of_mem_filter member)).append
  have replaced : ∀ {u : Pool} {y next : Reconnector}, u.reconnectors = q.reconnectors →
      Stems p (told ++ es) next → ∀ x ∈ (u.setReconnector y.ticket next).reconnectors,
        Stems p (told ++ es) x := by
    intro u y next same stems x member
    rcases of_mem_setReconnector member with rfl | ⟨older, _⟩
    · exact stems
    · rw [same] at older
      exact (so_far x older).append
  have same_reconnectors : r.reconnectors = q.reconnectors →
      ∀ x ∈ r.reconnectors, Stems p (told ++ es) x := by
    intro same x member
    rw [same] at member
    exact (so_far x member).append
  by_cases starts : ∃ y, Event.recovering y ∈ es
  · obtain ⟨y, told_y⟩ := starts
    obtain ⟨_, _, _, _, reconnectors, _⟩ := work.started told_y
    intro x member
    rw [reconnectors] at member
    rcases List.mem_append.1 member with older | newest
    · exact (so_far x older).append
    · rw [List.mem_singleton.1 newest]
      exact .inr ⟨y, List.mem_append_right _ told_y, rfl⟩
  · cases work with
    | aside other => exact same_reconnectors other.reconnectors
    | dials _ => exact same_reconnectors rfl
    | ends _ _ => exact same_reconnectors rfl
    | starts isOpen free =>
      rw [recover_of_free isOpen free] at starts
      exact absurd ⟨_, List.mem_singleton_self _⟩ starts
    | joins => exact absurd ⟨_, List.mem_singleton_self _⟩ starts
    | @redials y due member asleep _ _ =>
      have stems : Stems p told y.dialing := (so_far y member).next (by simp [asleep]) rfl
      exact replaced rfl stems.append
    | @fails d y error d_member member owner =>
      have dialing := (ledger.dial_of_member d_member member owner).1
      have stems : Stems p told (y.failed now) := (so_far y member).next (by simp [dialing]) rfl
      exact replaced rfl stems.append
    | @fills d _ _ _ _ _ => exact ended (u := q.dropDial d.ticket) rfl
    | givesUp _ _ => exact ended rfl
    | stops _ _ _ => exact ended rfl

/-- After an action every reconnector was there before, or has been started by it. -/
theorem stems_of_step (ledger : Ledger past p) (seated : Seated p)
    (taken : p.step now a = some (p', es)) : ∀ x ∈ p'.reconnectors, Stems p es x := by
  refine carry_of_step (P := fun es q => ∀ x ∈ q.reconnectors, Stems p es x) ledger seated ?_ ?_ taken
  · intro es q sheds x member
    exact .inl ⟨x, sheds.reconnectors x member, rfl, id⟩
  · intro told q es q' accounts so_far work
    exact work.stems accounts so_far

end CallPool.Pool
