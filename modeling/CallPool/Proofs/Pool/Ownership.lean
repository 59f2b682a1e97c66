import CallPool.Proofs.Pool.Tokens
import CallPool.Proofs.Pool.Watching

/-!
# Who holds the entry of a slot

A pool keeps an entry for each slot that has a reconnector, with the token of that reconnector. While
the pool is open the entries are those of the reconnectors that it has started and that have not ended
(`Ownership`), one for a slot at most. What a pool does to its books is a chain of work, or the relief
of a reconnector whose dial has filled the slot, or it drops what a caller had under way, or closes
the pool (`Shift.of_step`). None of these takes an entry from a reconnector that goes on, provided
that callers present no token that the pool has given out.
-/

set_option autoImplicit false

namespace CallPool.Pool

/-- What a reconnector holds: its slot, under its token. -/
def Reconnector.entry (r : Reconnector) : Nat × Token := (r.slot, r.token)

/-- By what a reconnector is known as long as it runs. -/
def Reconnector.badge (r : Reconnector) : Ticket × Nat × Token := (r.ticket, r.entry)

/-- The reconnectors that a pool has started and that run. -/
def team (p : Pool) : List Reconnector := p.reconnectors.filter Reconnector.owned

/-! ## The reconnectors that run, by what is told -/

/-- The reconnector of the pool, if an event tells that it starts. -/
def Event.started? : Event → Option Reconnector
  | .recovering r => if r.owned then some r else none
  | _ => none

/-- The ticket of a reconnector, if an event tells that it ends. -/
def Event.ended? : Event → Option Ticket
  | .recovered r _ => some r.ticket
  | _ => none

/-- The reconnectors of the pool that some events tell to start, in order. -/
def startedIn (es : List Event) : List Reconnector := es.filterMap Event.started?

/-- The tickets of the reconnectors that some events tell to end, in order. -/
def endedIn (es : List Event) : List Ticket := es.filterMap Event.ended?

/-- The reconnectors that the pool has started and that have not ended. -/
def runningIn (es : List Event) : List Reconnector :=
  (startedIn es).filter fun r => decide (r.ticket ∉ endedIn es)

/-- Those who start in one list behind another are those who start in both, in order. -/
@[simp] theorem startedIn_append (es es' : List Event) :
    startedIn (es ++ es') = startedIn es ++ startedIn es' := by
  simp [startedIn]

/-- Those who end in one list behind another are those who end in both, in order. -/
@[simp] theorem endedIn_append (es es' : List Event) :
    endedIn (es ++ es') = endedIn es ++ endedIn es' := by
  simp [endedIn]

/-- What tells nothing of dials and reconnectors starts none. -/
theorem startedIn_of_aside {es : List Event} (quiet : ∀ e ∈ es, e.isAside = true) :
    startedIn es = [] := by
  apply List.filterMap_eq_nil_iff.2
  intro e member
  have kind := quiet e member
  cases e with
  | recovering _ => cases kind
  | _ => rfl

/-- What tells nothing of dials and reconnectors ends none. -/
theorem endedIn_of_aside {es : List Event} (quiet : ∀ e ∈ es, e.isAside = true) : endedIn es = [] := by
  apply List.filterMap_eq_nil_iff.2
  intro e member
  have kind := quiet e member
  cases e with
  | recovered _ _ => cases kind
  | _ => rfl

/-- Where nobody starts those still run who have not ended. -/
theorem runningIn_append {past es : List Event} (started : startedIn es = []) :
    runningIn (past ++ es) = (runningIn past).filter fun r => decide (r.ticket ∉ endedIn es) := by
  unfold runningIn
  rw [startedIn_append, started, List.append_nil, endedIn_append, List.filter_filter]
  refine List.filter_congr fun r _ => ?_
  simp [Bool.and_comm]

/-- A reconnector that starts runs. -/
theorem runningIn_append_recovering {past : List Event} {r : Reconnector} (owned : r.owned = true)
    (unended : r.ticket ∉ endedIn past) :
    runningIn (past ++ [.recovering r]) = runningIn past ++ [r] := by
  have started : startedIn [.recovering r] = [r] := by simp [startedIn, Event.started?, owned]
  have ended : endedIn [.recovering r] = [] := rfl
  unfold runningIn
  rw [startedIn_append, endedIn_append, started, ended, List.append_nil, List.filter_append]
  simp [unended]

variable {p p' q : Pool} {now : Nat} {past es : List Event}

/-! ## Every entry has its reconnector, and every reconnector its entry -/

/-- The entries of an open pool are held by the reconnectors that it has started and that have not
ended, and no slot has two. Their tokens are the pool's own, and those of callers are not. -/
structure Ownership (past : List Event) (p : Pool) : Prop where
  entries : p.reconnecting = p.team.map Reconnector.entry
  once : (p.reconnecting.map Prod.fst).Nodup
  running : p.closed = false → p.team.map Reconnector.badge = (runningIn past).map Reconnector.badge
  ended_lt : ∀ t ∈ endedIn past, t < p.nextTicket
  issued : ∀ e ∈ p.reconnecting, 0 < e.2
  issues : 0 < p.nextToken
  foreign : ∀ r ∈ p.reconnectors, r.owned = false → r.token = 0
  callers : ∀ d ∈ p.dials, ∀ t token, d.owner = .caller t (some token) → token = 0

/-- Reconnectors with the same badges hold the same. -/
theorem entries_eq_of_badges {rs rs' : List Reconnector}
    (same : rs.map Reconnector.badge = rs'.map Reconnector.badge) :
    rs.map Reconnector.entry = rs'.map Reconnector.entry := by
  have parts := congrArg (List.map Prod.snd) same
  rwa [List.map_map, List.map_map] at parts

namespace Ownership

/-- Where the entries and their holders stay as they are, ownership does. -/
theorem keep (h : Ownership past p) (entries : p'.reconnecting = p.reconnecting)
    (team : p'.team.map Reconnector.badge = p.team.map Reconnector.badge)
    (isOpen : p'.closed = false → p.closed = false)
    (nextTicket_le : p.nextTicket ≤ p'.nextTicket) (nextToken_le : p.nextToken ≤ p'.nextToken)
    (foreign : ∀ r ∈ p'.reconnectors, r.owned = false → r.token = 0)
    (callers : ∀ d ∈ p'.dials, ∀ t token, d.owner = .caller t (some token) → token = 0)
    (started : startedIn es = []) (ended : endedIn es = []) : Ownership (past ++ es) p' where
  entries := by rw [entries, h.entries, entries_eq_of_badges team]
  once := by rw [entries]; exact h.once
  running := by
    intro still_open
    rw [team, h.running (isOpen still_open), runningIn_append started, ended]
    simp
  ended_lt := by
    intro t member
    rw [endedIn_append, ended, List.append_nil] at member
    exact Nat.lt_of_lt_of_le (h.ended_lt t member) nextTicket_le
  issued := by rw [entries]; exact h.issued
  issues := Nat.lt_of_lt_of_le h.issues nextToken_le
  foreign := foreign
  callers := callers

/-- What leaves dials and reconnectors alone keeps the ownership. -/
theorem aside (h : Ownership past p) (other : Aside p es p') : Ownership (past ++ es) p' := by
  refine h.keep other.reconnecting ?_ (by rw [other.watch.closed]; exact id) other.nextTicket_le
    other.nextToken_le ?_ ?_ (startedIn_of_aside other.quiet) (endedIn_of_aside other.quiet)
  · unfold Pool.team
    rw [other.reconnectors]
  · rw [other.reconnectors]
    exact h.foreign
  · rw [other.dials]
    exact h.callers

/-- The entry of a reconnector of the pool is its own only. -/
theorem eq_of_entry (h : Ownership past p) {r x : Reconnector} (r_member : r ∈ p.team)
    (x_member : x ∈ p.team) (same : r.slot = x.slot) : r = x := by
  have slots : (p.team.map Reconnector.slot).Nodup := by
    have once := h.once
    rwa [h.entries, List.map_map] at once
  exact List.inj_on_of_nodup_map slots r_member x_member same

/-- A reconnector ends, and what it held is released. -/
theorem release (h : Ownership past p) (ledger : Ledger past p) {r : Reconnector}
    (member : r ∈ p.reconnectors)
    (reconnectors : p'.reconnectors = p.reconnectors.filter fun x => x.ticket ≠ r.ticket)
    (entries : p'.reconnecting =
      if r.owned then p.reconnecting.filter fun e => e ≠ r.entry else p.reconnecting)
    (isOpen : p'.closed = false → p.closed = false)
    (nextTicket_le : p.nextTicket ≤ p'.nextTicket) (nextToken_le : p.nextToken ≤ p'.nextToken)
    (dials : ∀ d ∈ p'.dials, d ∈ p.dials) (started : startedIn es = [])
    (ended : endedIn es = [r.ticket]) : Ownership (past ++ es) p' := by
  have team : p'.team = p.team.filter fun x => x.ticket ≠ r.ticket := by
    unfold Pool.team
    rw [reconnectors, List.filter_filter, List.filter_filter]
    exact List.filter_congr fun _ _ => Bool.and_comm _ _
  have part : p'.reconnecting.Sublist p.reconnecting := by
    rw [entries]
    split
    · exact List.filter_sublist
    · exact List.Sublist.refl _
  refine ⟨?_, (part.map _).nodup h.once, ?_, ?_, fun e e_member => h.issued e (part.subset e_member),
    Nat.lt_of_lt_of_le h.issues nextToken_le, ?_, fun d d_member => h.callers d (dials d d_member)⟩
  · rw [entries, team]
    by_cases owned : r.owned = true
    -- The other reconnectors of the pool have other slots, and so other entries.
    · have mine : r ∈ p.team := List.mem_filter.2 ⟨member, owned⟩
      rw [if_pos owned, h.entries, List.filter_map]
      congr 1
      refine List.filter_congr fun x x_member => ?_
      have there : x ∈ p.reconnectors := List.mem_of_mem_filter x_member
      apply decide_eq_decide.2
      constructor
      · intro other same
        rw [ledger.eq_of_ticket there member same] at other
        exact other rfl
      · intro other same
        rw [h.eq_of_entry x_member mine (congrArg Prod.fst same)] at other
        exact other rfl
    · have apart : p.team.filter (fun x => x.ticket ≠ r.ticket) = p.team := by
        refine List.filter_eq_self.2 fun x x_member => decide_eq_true fun same => ?_
        obtain ⟨there, x_owned⟩ := List.mem_filter.1 x_member
        rw [ledger.eq_of_ticket there member same] at x_owned
        exact owned x_owned
      rw [if_neg owned, apart, h.entries]
  · intro still_open
    have ticket : (fun b : Ticket × Nat × Token => decide (b.1 ≠ r.ticket)) ∘ Reconnector.badge =
        fun x => decide (x.ticket ≠ r.ticket) := rfl
    have badges := congrArg (List.filter fun b => decide (b.1 ≠ r.ticket)) (h.running (isOpen still_open))
    rw [List.filter_map, List.filter_map, ticket] at badges
    rw [team, runningIn_append started, ended, badges]
    simp
  · intro t t_member
    rw [endedIn_append, ended] at t_member
    rcases List.mem_append.1 t_member with older | newest
    · exact Nat.lt_of_lt_of_le (h.ended_lt t older) nextTicket_le
    · rw [List.mem_singleton.1 newest]
      exact Nat.lt_of_lt_of_le (ledger.ticket_lt r member) nextTicket_le
  · intro x x_member
    rw [reconnectors] at x_member
    exact h.foreign x (List.mem_of_mem_filter x_member)

/-- A reconnector that goes on keeps its place in the team. -/
theorem team_setReconnector (ledger : Ledger past p) {r next : Reconnector} (member : r ∈ p.reconnectors)
    (badge : next.badge = r.badge) (owned : next.owned = r.owned) :
    (p.setReconnector r.ticket next).team.map Reconnector.badge = p.team.map Reconnector.badge := by
  have same : ∀ x ∈ p.reconnectors, x.ticket = r.ticket → x = r :=
    fun x x_member => ledger.eq_of_ticket x_member member
  unfold Pool.team setReconnector
  dsimp only
  rw [List.filter_map, List.map_map]
  have kept : p.reconnectors.filter
      (Reconnector.owned ∘ fun x => if x.ticket = r.ticket then next else x) =
        p.reconnectors.filter Reconnector.owned := by
    refine List.filter_congr fun x x_member => ?_
    by_cases mine : x.ticket = r.ticket
    · simp [same x x_member mine, owned]
    · simp [mine]
  rw [kept]
  refine List.map_congr_left fun x x_member => ?_
  by_cases mine : x.ticket = r.ticket
  · simp [same x (List.mem_of_mem_filter x_member) mine, badge]
  · simp [mine]

/-- A dial that begins presents no token of the pool's, if no caller does. -/
theorem callers_append (h : Ownership past p) {d : Dial}
    (honest : ∀ t, (Event.dialed d).presented? = some t → t = 0) :
    ∀ x ∈ p.dials ++ [d], ∀ t token, x.owner = .caller t (some token) → token = 0 := by
  intro x member t token owner
  rcases List.mem_append.1 member with older | newest
  · exact h.callers x older t token owner
  · apply honest
    rw [← List.mem_singleton.1 newest]
    simp only [Event.presented?, owner]

/-- A reconnector that goes on keeps what it holds. -/
theorem keep_setReconnector (h : Ownership past p) (ledger : Ledger past p) {r : Reconnector}
    (next : Reconnector) (member : r ∈ p.reconnectors) (badge : next.badge = r.badge)
    (owned : next.owned = r.owned)
    (reconnectors : p'.reconnectors = (p.setReconnector r.ticket next).reconnectors)
    (entries : p'.reconnecting = p.reconnecting) (closed : p'.closed = p.closed)
    (nextTicket_le : p.nextTicket ≤ p'.nextTicket) (nextToken : p'.nextToken = p.nextToken)
    (callers : ∀ d ∈ p'.dials, ∀ t token, d.owner = .caller t (some token) → token = 0)
    (started : startedIn es = []) (ended : endedIn es = []) : Ownership (past ++ es) p' := by
  refine h.keep entries ?_ (by rw [closed]; exact id) nextTicket_le (Nat.le_of_eq nextToken.symm) ?_
    callers started ended
  · rw [← team_setReconnector ledger member badge owned]
    unfold Pool.team
    rw [reconnectors]
  · intro x x_member foreign
    rw [reconnectors] at x_member
    rcases of_mem_setReconnector x_member with rfl | ⟨older, _⟩
    · have token : x.token = r.token := congrArg (fun b => b.2.2) badge
      rw [token]
      exact h.foreign r member (owned.symm.trans foreign)
    · exact h.foreign x older foreign

/-- A slot that has no reconnector gets one, and an entry for it. -/
theorem starts (h : Ownership past p) {slot : Nat} (isOpen : p.closed = false)
    (free : p.tokenOf? slot = none) :
    Ownership (past ++ (p.recover now slot).2) (p.recover now slot).1 := by
  have unlisted : slot ∉ p.reconnecting.map Prod.fst := by
    intro listed
    obtain ⟨e, member, rfl⟩ := List.mem_map.1 listed
    have none_found := List.find?_eq_none.1 (Option.map_eq_none_iff.1 free) e member
    simp at none_found
  rw [recover_of_free isOpen free]
  refine ⟨?_, ?_, ?_, ?_, ?_, Nat.succ_pos _, ?_, h.callers⟩
  · change p.reconnecting ++ [_] = List.map _ (List.filter _ (p.reconnectors ++ [_]))
    rw [List.filter_append, List.map_append, h.entries]
    rfl
  · change ((p.reconnecting ++ [_]).map Prod.fst).Nodup
    rw [List.map_append, List.map_singleton, ← List.concat_eq_append]
    exact h.once.concat unlisted
  · intro still_open
    -- The ticket of the new reconnector has not been that of one that has ended.
    have unended : p.nextTicket ∉ endedIn past := fun member => Nat.lt_irrefl _ (h.ended_lt _ member)
    have running := runningIn_append_recovering (r := ⟨p.nextTicket, slot, p.nextToken, p.options.backoff, 0,
      phaseAt p.options.backoff 0 now, true, false⟩) rfl unended
    unfold addReconnector enlist
    rw [running, List.map_append, ← h.running still_open, ← List.map_append]
    unfold Pool.team
    rw [List.filter_append]
    rfl
  · intro t member
    have older : t ∈ endedIn past := by simpa [addReconnector, endedIn, Event.ended?] using member
    exact Nat.lt_succ_of_lt (h.ended_lt t older)
  · intro e member
    rcases List.mem_append.1 member with older | newest
    · exact h.issued e older
    · rw [List.mem_singleton.1 newest]
      exact h.issues
  · intro r member foreign
    rcases List.mem_append.1 member with older | newest
    · exact h.foreign r older foreign
    · rw [List.mem_singleton.1 newest] at foreign
      cases foreign

/-- A caller starts a reconnector of its own, which is none of the pool's. -/
theorem joins (h : Ownership past p) {slot : Nat} {token : Token} {schedule : Backoff} {orphaned : Bool}
    (honest : token = 0) :
    Ownership (past ++ (p.addReconnector now slot token schedule false orphaned).2)
      (p.addReconnector now slot token schedule false orphaned).1 := by
  refine h.keep rfl ?_ id (Nat.le_succ _) (Nat.le_refl _) ?_ h.callers rfl rfl
  · change List.map _ (List.filter _ (p.reconnectors ++ [_])) = _
    rw [List.filter_append, List.map_append]
    exact List.append_nil _
  · intro r member foreign
    rcases List.mem_append.1 member with older | newest
    · exact h.foreign r older foreign
    · rw [List.mem_singleton.1 newest]
      exact honest

/-- A reconnector that has not filled its slot, or is none of the pool's, ends. -/
theorem endReconnector (h : Ownership past p) (ledger : Ledger past p) {r : Reconnector} {filled : Bool}
    (front : List Event) (keepDial : Dial → Bool) (member : r ∈ p.reconnectors)
    (releases : filled = true → r.owned = false) (rest : q = { p with dials := p.dials.filter keepDial })
    (started : startedIn front = []) (ended : endedIn front = []) :
    Ownership (past ++ (front ++ (q.endReconnector r filled).2)) (q.endReconnector r filled).1 := by
  have after := endReconnector_rest q r filled
  refine h.release ledger member (by rw [after, rest]) ?_ ?_ ?_ ?_ ?_ ?_ ?_
  · rw [rest]
    unfold Pool.endReconnector
    dsimp only
    by_cases owned : r.owned = true
    · have unfilled : filled = false := by
        cases filled with
        | false => rfl
        | true => rw [releases rfl] at owned; cases owned
      rw [if_pos owned, if_pos owned, unfilled]
      rfl
    · rw [if_neg owned, if_neg owned]
  · rw [after, rest]
    exact id
  · exact Nat.le_of_eq (by rw [after, rest])
  · exact Nat.le_of_eq (by rw [after, rest])
  · intro d d_member
    rw [after, rest] at d_member
    exact List.mem_of_mem_filter d_member
  · rw [startedIn_append, started]
    unfold Pool.endReconnector
    dsimp only
    split <;> rfl
  · rw [endedIn_append, ended]
    unfold Pool.endReconnector
    dsimp only
    split <;> rfl

/-- A reconnector that runs without an entry is none of the pool's. -/
theorem unowned_of_released (h : Ownership past p) {r : Reconnector} (member : r ∈ p.reconnectors)
    (released : r.owned = true → (r.slot, r.token) ∉ p.reconnecting) : r.owned = false := by
  cases owned : r.owned with
  | false => rfl
  | true =>
    have listed : r.entry ∈ p.reconnecting := by
      rw [h.entries]
      exact List.mem_map_of_mem (List.mem_filter.2 ⟨member, owned⟩)
    exact absurd listed (released owned)

/-- Every change of dials and reconnectors leaves the entries with their owners, if callers present no
token of the pool's. -/
theorem of_work (h : Ownership past p) (ledger : Ledger past p) (work : Work now p es p')
    (honest : ∀ e ∈ es, ∀ t, e.presented? = some t → t = 0) : Ownership (past ++ es) p' := by
  cases work with
  | aside other => exact h.aside other
  | dials other =>
    exact h.keep rfl rfl id (Nat.le_succ _) (Nat.le_refl _) h.foreign
      (h.callers_append (honest _ (List.mem_singleton_self _))) rfl rfl
  | ends member other =>
    exact h.keep rfl rfl id (Nat.le_refl _) (Nat.le_refl _) h.foreign
      (fun d d_member => h.callers d (List.mem_of_mem_filter d_member)) rfl rfl
  | starts isOpen free => exact h.starts isOpen free
  | joins => exact h.joins (honest _ (List.mem_singleton_self _) _ rfl)
  | @redials r due member _ _ _ =>
    exact h.keep_setReconnector ledger r.dialing member rfl rfl rfl rfl rfl (Nat.le_succ _) rfl
      (h.callers_append (honest _ (List.mem_singleton_self _))) rfl rfl
  | @fails d r error _ member _ =>
    exact h.keep_setReconnector ledger (r.failed now) member rfl rfl rfl rfl rfl (Nat.le_refl _) rfl
      (fun x x_member => h.callers x (List.mem_of_mem_filter x_member)) rfl rfl
  | @fills d r _ member _ released =>
    exact h.endReconnector ledger [.dialEnded d (.ok ())] _ member
      (fun _ => h.unowned_of_released member released) rfl rfl rfl
  | @givesUp r member _ =>
    exact h.endReconnector ledger [.gaveUp r] (fun _ => true) member nofun
      (by rw [List.filter_true]) rfl rfl
  | stops member _ _ =>
    exact h.endReconnector ledger [] (fun _ => true) member nofun
      (by rw [List.filter_true]) rfl rfl

/-- Work keeps the ownership, unless a caller presents a token. -/
theorem of_works (h : Ownership past p) (ledger : Ledger past p) (works : Works now p es p')
    (honest : ∀ e ∈ es, ∀ t, e.presented? = some t → t = 0) : Ownership (past ++ es) p' := by
  induction works generalizing past with
  | nil p =>
    rw [List.append_nil]
    exact h
  | cons work _ ih =>
    have first := h.of_work ledger work fun e member => honest e (List.mem_append_left _ member)
    rw [← List.append_assoc]
    exact ih first (ledger.of_work work) fun e member => honest e (List.mem_append_right _ member)

end Ownership

end CallPool.Pool
