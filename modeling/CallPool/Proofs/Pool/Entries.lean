import CallPool.Proofs.Pool.Ownership
import CallPool.Proofs.Pool.RetryBudget

/-!
# One reconnector for a slot

Whatever overlaps in an open pool, its entries are those of the reconnectors that it has started and
that have not ended, one for a slot at most (`entries_of_running_reconnectors`). A reconnector has
ended when its slot was live, or got its connection, or it had no attempt left; and an entry goes only
with the reconnector that holds it. An action does what a chain of work does, or relieves a
reconnector whose dial has filled the slot, or closes the pool, or drops a caller (`Shift.of_step`).
-/

set_option autoImplicit false

namespace CallPool.Pool

variable {p p' q : Pool} {now : Nat} {past es : List Event}

/-! ## What becomes of the entries -/

/-- Something changes that is neither a dial nor a reconnector, such as a slot or a connection. -/
structure Prepared (p : Pool) (es : List Event) (q : Pool) : Prop where
  reconnectors : q.reconnectors = p.reconnectors
  dials : q.dials = p.dials
  closed : q.closed = p.closed
  nextTicket_le : p.nextTicket ≤ q.nextTicket
  nextToken_le : p.nextToken ≤ q.nextToken
  quiet : ∀ e ∈ es, e.isAside = true

/-- A pool is prepared as it is. -/
theorem Prepared.refl (p : Pool) : Prepared p [] p :=
  ⟨rfl, rfl, rfl, Nat.le_refl _, Nat.le_refl _, by simp⟩

/-- A pool in which a connection has been installed is prepared. -/
theorem Prepared.of_installation {r : Pool} {slot g : Nat} {token : Option Token}
    {result : Except Error Unit} {noticed placed : List Event} (opens : Aside p noticed q)
    (installation : Installation q slot g token r result placed) : Prepared p (noticed ++ placed) r := by
  have rest := installation.rest
  refine ⟨?_, ?_, ?_, ?_, ?_, ?_⟩
  · rw [rest]
    exact opens.reconnectors
  · rw [rest]
    exact opens.dials
  · rw [rest]
    exact opens.watch.closed
  · rw [rest]
    exact opens.nextTicket_le
  · rw [rest]
    exact opens.nextToken_le
  · intro e member
    rcases List.mem_append.1 member with early | late
    · exact opens.quiet e early
    · cases installation <;> rw [List.mem_singleton.1 late] <;> rfl

/-- What an action does to the reconnectors of a pool and to their entries. -/
inductive Shift (now : Nat) (past : List Event) (p : Pool) : List Event → Pool → Prop
  | works {q p' : Pool} {front told : List Event} (prepared : Prepared p front q)
      (entries : q.reconnecting = p.reconnecting) (ledger : Ledger (past ++ front) q)
      (works : Works now q told p') : Shift now past p (front ++ told) p'
  /-- The dial of a reconnector of the pool has filled its slot, and released its entry: it ends. -/
  | relieves {q : Pool} {d : Dial} {r : Reconnector} {front : List Event} (prepared : Prepared p front q)
      (entries : q.reconnecting = p.reconnecting.filter fun e => e ≠ r.entry)
      (member : r ∈ p.reconnectors) (owned : r.owned = true)
      (filled : p.isLive r.slot = true ∨ ∃ g, Event.installed r.slot g ∈ front) :
      Shift now past p (front ++ [.dialEnded d (.ok ()), .recovered r true])
        ((q.dropDial d.ticket).endReconnector r true).1
  | closes : Shift now past p (p.close now).2 (p.close now).1
  | drops {t : Ticket} (unowned : p.owns t = false) :
      Shift now past p (p.cancel now t).2 (p.cancel now t).1

namespace Shift

/-- A dial that has filled its slot for a reconnector ends it. -/
theorem conclude_eq {d : Dial} {r : Reconnector} (owner : d.owner = .reconnector r.ticket)
    (found : p.reconnectors.find? (fun x => x.ticket = r.ticket) = some r) (owned : r.owned = true) :
    p.conclude now d (.ok ()) =
      (((p.dropDial d.ticket).endReconnector r true).1, [.dialEnded d (.ok ()), .recovered r true]) := by
  unfold conclude
  rw [owner]
  dsimp only
  rw [found]
  simp [advanceReconnector, endReconnector, owned, dropDial]

/-- A dial that is not made for a reconnector of the pool presents no token under which a slot has an
entry. -/
theorem unlisted_of_foreign (h : Ownership past p) (ledger : Ledger past p) {d : Dial} (member : d ∈ p.dials)
    (foreign : ∀ r ∈ p.reconnectors, r.owned = true → d.owner ≠ .reconnector r.ticket) :
    ∀ t, p.tokenOfDial? d = some t → (d.slot, t) ∉ p.reconnecting := by
  intro t token listed
  have issued : 0 < t := h.issued _ listed
  have unissued : t = 0 := by
    unfold tokenOfDial? at token
    cases owner : d.owner with
    | caller u brought =>
      rw [owner] at token
      dsimp only at token
      rw [token] at owner
      exact h.callers d member u t owner
    | round u =>
      rw [owner] at token
      cases token
    | reconnector u =>
      obtain ⟨r, r_member, rfl⟩ := ledger.owner d member u owner
      rw [owner] at token
      dsimp only at token
      rw [ledger.find?_ticket r_member] at token
      obtain rfl := Option.some.inj token
      refine h.foreign r r_member ?_
      rw [Bool.eq_false_iff]
      exact fun owned => foreign r r_member owned owner
  rw [unissued] at issued
  exact Nat.lt_irrefl 0 issued

/-- A connection that is opened for nobody's entry leaves the entries as they are. -/
theorem entries_of_installation {r : Pool} {slot g : Nat} {token : Option Token}
    {result : Except Error Unit} {noticed : List Event} (opens : Aside p noticed q)
    (installation : Installation q slot g token r result es)
    (unlisted : result = .ok () → ∀ t, token = some t → (slot, t) ∉ p.reconnecting) :
    r.reconnecting = p.reconnecting := by
  rw [← opens.reconnecting] at unlisted ⊢
  by_cases filled : result = .ok ()
  · exact installation.reconnecting_of_unlisted (unlisted filled)
  · cases installation with
    | refused => rw [modifyConnection_rest]
    | served _ _ _ => exact absurd rfl filled
    | placed => exact absurd rfl filled

/-- A connection that is opened for a slot finds it live, or is installed. -/
theorem live_or_installed {t : Option Token} {g : Nat} {c : Connection} {slot : Nat} {r : Pool}
    (seated : Seated p) (slots : q.slots = p.slots) (connections : q.connections = p.connections ++ [c])
    (installation : Installation q slot g t r (.ok ()) es) :
    p.isLive slot = true ∨ Event.installed slot g ∈ es := by
  cases installation with
  | served _ _ live =>
    obtain ⟨g, c, held, there, connected⟩ := isLive_iff.1 live
    rw [slots] at held
    obtain ⟨_, found, _⟩ := seated.seated slot g held
    obtain ⟨older, _⟩ := List.getElem?_eq_some_iff.1 found
    rw [connections, List.getElem?_append_left older] at there
    exact .inl (isLive_iff.2 ⟨g, c, held, there, connected⟩)
  | placed => exact .inr (List.mem_singleton_self _)

/-- A dial that succeeds relieves the reconnector that dialed, if its slot has been filled. -/
theorem of_opening (h : Ownership past p) (ledger : Ledger past p) (seated : Seated p) {d : Dial}
    {lost : Bool} (d_member : d ∈ p.dials) (opening : Opening p now d lost q es p') :
    Shift now past p es p' := by
  obtain ⟨⟨noticed, absorbs, rfl⟩, rfl⟩ := opening
  have opens := Aside.opens absorbs
  have token : q.tokenOfDial? d = p.tokenOfDial? d := by
    unfold tokenOfDial?
    rw [opens.reconnectors]
  have installation := Installation.of_install q d.slot p.connections.length (q.tokenOfDial? d)
  rw [token] at installation ⊢
  generalize q.install d.slot p.connections.length (p.tokenOfDial? d) = installed at installation ⊢
  obtain ⟨r, result, placed⟩ := installed
  dsimp only at installation ⊢
  have prepared := Prepared.of_installation opens installation
  by_cases relieved : result = .ok () ∧
      ∃ x ∈ p.reconnectors, x.owned = true ∧ d.owner = .reconnector x.ticket
  · obtain ⟨rfl, x, member, owned, owner⟩ := relieved
    have slot : d.slot = x.slot := ledger.slot_of_dial d_member member owner
    have first := ledger.find?_ticket member
    have presents : p.tokenOfDial? d = some x.token := by
      unfold tokenOfDial?
      rw [owner]
      dsimp only
      rw [first]
      rfl
    rw [presents] at installation
    rw [← prepared.reconnectors] at first
    rw [conclude_eq owner first owned]
    refine .relieves prepared ?_ member owned ?_
    · rw [installation.reconnecting_of_ok, opens.reconnecting, slot]
      rfl
    · rw [← slot]
      rcases live_or_installed seated opens.watch.slots absorbs.connections installation with
        live | installed
      · exact .inl live
      · exact .inr ⟨_, List.mem_append_right _ installed⟩
  · have entries := entries_of_installation opens installation fun filled =>
      unlisted_of_foreign h ledger d_member fun x member owned owner =>
        relieved ⟨filled, x, member, owned, owner⟩
    have accounts := (ledger.aside opens).of_installation installation
    rw [List.append_assoc] at accounts
    refine .works prepared entries accounts (.conclude (by rw [prepared.dials]; exact d_member) result ?_)
    intro filled x member owner owned
    rw [prepared.reconnectors] at member
    exact absurd ⟨filled, x, member, owned, owner⟩ relieved

/-- Whatever an action does to reconnectors and entries is a shift. -/
theorem of_step (h : Ownership past p) (ledger : Ledger past p) (seated : Seated p) {a : Action}
    (taken : p.step now a = some (p', es)) : Shift now past p es p' := by
  have accounts : Ledger (past ++ []) p := by rw [List.append_nil]; exact ledger
  cases Change.of_step taken with
  | works works => exact .works (.refl p) rfl accounts works
  | closes => exact .closes
  | drops unowned => exact .drops unowned
  | @hears n rest _ _ =>
    have heard : Prepared p [] { p with notices := rest } :=
      ⟨rfl, rfl, rfl, Nat.le_refl _, Nat.le_refl _, by simp⟩
    exact .works heard rfl (accounts.hear rest) (.of_handled rfl)
  | opens member opening => exact of_opening h ledger seated member opening

end Shift

/-! ## Entries stay with their owners -/

namespace Ownership

/-- What is prepared without a change of the entries keeps the ownership. -/
theorem prepare (h : Ownership past p) (prepared : Prepared p es q)
    (entries : q.reconnecting = p.reconnecting) : Ownership (past ++ es) q := by
  refine h.keep entries ?_ (by rw [prepared.closed]; exact id) prepared.nextTicket_le
    prepared.nextToken_le ?_ ?_ (startedIn_of_aside prepared.quiet) (endedIn_of_aside prepared.quiet)
  · unfold team
    rw [prepared.reconnectors]
  · rw [prepared.reconnectors]
    exact h.foreign
  · rw [prepared.dials]
    exact h.callers

/-- A pool that is closed has stopped its reconnectors, and has no entries. -/
theorem close (h : Ownership past p) : Ownership (past ++ (p.close now).2) (p.close now).1 := by
  have quiet : ∀ e ∈ (p.close now).2, e.isAside = true := by
    intro e member
    rw [mem_close member]
    rfl
  have rest := close_rest p now
  have entries : (p.close now).1.reconnecting = [] := by rw [rest]
  have reconnectors : (p.close now).1.reconnectors = p.reconnectors.filter fun r => !r.owned := by rw [rest]
  refine ⟨?_, by simp [entries], ?_, ?_, by simp [entries], ?_, ?_, ?_⟩
  · unfold team
    rw [entries, reconnectors, List.filter_filter]
    simp
  · rw [(closed_close p now).1]
    exact nofun
  · intro t member
    rw [endedIn_append, endedIn_of_aside quiet, List.append_nil] at member
    rw [rest]
    exact Nat.lt_succ_of_lt (h.ended_lt t member)
  · rw [rest]
    exact h.issues
  · intro r member
    rw [reconnectors] at member
    exact h.foreign r (List.mem_of_mem_filter member)
  · intro d member
    rw [rest] at member
    exact h.callers d (List.mem_of_mem_filter member)

/-- A caller that is dropped without a reconnector of the pool leaves the ownership. -/
theorem cancel (h : Ownership past p) {t : Ticket} (unowned : p.owns t = false) :
    Ownership (past ++ (p.cancel now t).2) (p.cancel now t).1 := by
  have team : (p.dropWork t).team = p.team := by
    unfold Pool.team dropWork
    rw [List.filter_filter]
    refine List.filter_congr fun r member => ?_
    have other : ¬ (r.owned && r.ticket = t) = true := List.any_eq_false.1 unowned r member
    cases owned : r.owned with
    | false => rfl
    | true => simpa [owned] using other
  have dropped : Ownership (past ++ []) (p.dropWork t) :=
    h.keep rfl (by rw [team]) id (Nat.le_refl _) (Nat.le_refl _)
      (fun r member => h.foreign r (List.mem_of_mem_filter member))
      (fun d member => h.callers d (List.mem_of_mem_filter member)) rfl rfl
  rw [List.append_nil] at dropped
  exact dropped.aside (.cancel p now t)

/-- Every shift keeps the ownership, unless a caller presents a token. -/
theorem of_shift (h : Ownership past p) (ledger : Ledger past p) (shift : Shift now past p es p')
    (honest : ∀ e ∈ es, ∀ t, e.presented? = some t → t = 0) : Ownership (past ++ es) p' := by
  cases shift with
  | works prepared entries accounts works =>
    rw [← List.append_assoc]
    exact (h.prepare prepared entries).of_works accounts works fun e member =>
      honest e (List.mem_append_right _ member)
  | @relieves q d r front prepared entries member owned _ =>
    have after := endReconnector_rest (q.dropDial d.ticket) r true
    refine h.release ledger member ?_ ?_ ?_ ?_ ?_ ?_ ?_ ?_
    · rw [after, ← prepared.reconnectors]
      rfl
    · rw [if_pos owned, ← entries]
      simp [Pool.endReconnector, owned, dropDial]
    · rw [after, ← prepared.closed]
      exact id
    · rw [after]
      exact prepared.nextTicket_le
    · rw [after]
      exact prepared.nextToken_le
    · intro x x_member
      rw [after] at x_member
      rw [← prepared.dials]
      exact List.mem_of_mem_filter x_member
    · rw [startedIn_append, startedIn_of_aside prepared.quiet]
      rfl
    · rw [endedIn_append, endedIn_of_aside prepared.quiet]
      rfl
  | closes => exact h.close
  | drops unowned => exact h.cancel unowned

/-- A pool that has just been made owns nothing. -/
theorem of_fresh (fresh : Fresh p) (issues : 0 < p.nextToken) : Ownership [] p := by
  have team : p.team = [] := by
    unfold Pool.team
    rw [fresh.reconnectors]
    rfl
  refine ⟨?_, ?_, ?_, nofun, ?_, issues, ?_, ?_⟩
  · rw [fresh.reconnecting, team]
    rfl
  · rw [fresh.reconnecting]
    exact List.nodup_nil
  · rw [team]
    exact fun _ => rfl
  · rw [fresh.reconnecting]
    exact nofun
  · rw [fresh.reconnectors]
    exact nofun
  · rw [fresh.dials]
    exact nofun

/-- In every run in which callers present no token that the pool gives out, the entries stay with their
owners. -/
theorem of_run {options : Options} {start : Pool} {began : Nat} {moments : List Moment}
    (made : Pool.new options = .ok start) (run : Run start began moments now p)
    (honest : ∀ m ∈ moments, ∀ t, m.action.presented? = some t → t = 0) :
    Ownership (eventsOf moments) p := by
  induction run with
  | start =>
    refine of_fresh (.of_new made) ?_
    rw [(Made.of_new made).nextToken]
    exact Nat.one_pos
  | act past taken ih =>
    have older := ih fun m member => honest m (List.mem_append_left _ member)
    have accounts := Ledger.of_run made past
    rw [eventsOf_append, eventsOf_cons, eventsOf_nil, List.append_nil]
    refine older.of_shift accounts (.of_step older accounts (.of_run made past) taken) ?_
    intro e member t presented
    have brought := presented_of_step taken member presented
    exact honest _ (List.mem_append_right _ (List.mem_singleton_self _)) t brought
  | rest _ _ _ ih => exact ih honest

end Ownership

/-! ## How reconnectors end -/

/-- A reconnector of the pool ends, and what it held with it. -/
def Cedes (e : Nat × Token) (es : List Event) : Prop :=
  ∃ r filled, Event.recovered r filled ∈ es ∧ r.owned = true ∧ r.entry = e

/-- An entry that is ceded is so with more behind it. -/
theorem Cedes.append_left {e : Nat × Token} (h : Cedes e es) (es' : List Event) : Cedes e (es ++ es') := by
  obtain ⟨r, filled, told, mine⟩ := h
  exact ⟨r, filled, List.mem_append_left _ told, mine⟩

/-- An entry that is ceded is so with more in front of it. -/
theorem Cedes.append_right {e : Nat × Token} (h : Cedes e es) (es' : List Event) : Cedes e (es' ++ es) := by
  obtain ⟨r, filled, told, mine⟩ := h
  exact ⟨r, filled, List.mem_append_right _ told, mine⟩

/-- The end of a reconnector tells whether it has filled its slot. -/
theorem told_endReconnector (p : Pool) (r : Reconnector) (filled : Bool) :
    Event.recovered r filled ∈ (p.endReconnector r filled).2 := by
  unfold endReconnector
  dsimp only
  split
  · exact List.mem_singleton_self _
  · exact List.mem_cons_self

/-- An entry goes only with the reconnector that holds it. -/
theorem Work.kept_or_cedes (work : Work now p es p') {e : Nat × Token} (member : e ∈ p.reconnecting) :
    e ∈ p'.reconnecting ∨ Cedes e es := by
  have ends : ∀ (q : Pool) (r : Reconnector) (filled : Bool), e ∈ q.reconnecting →
      e ∈ (q.endReconnector r filled).1.reconnecting ∨ Cedes e (q.endReconnector r filled).2 := by
    intro q r filled there
    by_cases mine : r.owned = true ∧ r.entry = e
    · exact .inr ⟨r, filled, told_endReconnector q r filled, mine⟩
    · left
      apply mem_reconnecting_endReconnector.2
      exact ⟨there, fun _ owned same => mine ⟨owned, same.symm⟩⟩
  cases work with
  | aside other =>
    rw [other.reconnecting]
    exact .inl member
  | starts _ _ => exact .inl (mem_reconnecting_recover member)
  | @fills d r _ _ _ _ =>
    rcases ends (p.dropDial d.ticket) r true member with kept | cedes
    · exact .inl kept
    · exact .inr (cedes.append_right [_])
  | @givesUp r _ _ =>
    rcases ends p r false member with kept | cedes
    · exact .inl kept
    · exact .inr (cedes.append_right [_])
  | @stops r _ _ _ _ => exact ends p r false member
  | dials _ => exact .inl member
  | ends _ _ => exact .inl member
  | joins => exact .inl member
  | redials _ _ _ _ => exact .inl member
  | fails _ _ _ => exact .inl member

/-- An entry is kept by a work, or ceded in it. -/
theorem Works.kept_or_cedes (works : Works now p es p') {e : Nat × Token} (member : e ∈ p.reconnecting) :
    e ∈ p'.reconnecting ∨ Cedes e es := by
  induction works with
  | nil p => exact .inl member
  | @cons p q p' es es' work _ ih =>
    rcases work.kept_or_cedes member with there | cedes
    · rcases ih there with kept | cedes
      · exact .inl kept
      · exact .inr (cedes.append_right es)
    · exact .inr (cedes.append_left es')

/-- In a pool that stays open an entry goes only with the reconnector that holds it. -/
theorem Shift.kept_or_cedes (shift : Shift now past p es p') (isOpen : p'.closed = false)
    {e : Nat × Token} (member : e ∈ p.reconnecting) : e ∈ p'.reconnecting ∨ Cedes e es := by
  cases shift with
  | works _ entries _ works =>
    rw [← entries] at member
    rcases works.kept_or_cedes member with kept | cedes
    · exact .inl kept
    · exact .inr (cedes.append_right _)
  | @relieves q d r front _ entries _ owned _ =>
    by_cases mine : r.entry = e
    · exact .inr ⟨r, true, List.mem_append_right _ (by simp), owned, mine⟩
    · left
      apply mem_reconnecting_endReconnector.2
      refine ⟨?_, nofun⟩
      change e ∈ q.reconnecting
      rw [entries]
      exact List.mem_filter.2 ⟨member, decide_eq_true fun same => mine same.symm⟩
  | closes =>
    rw [(closed_close p now).1] at isOpen
    cases isOpen
  | @drops t _ =>
    rw [(Aside.cancel p now t).reconnecting]
    exact .inl member

/-- In an open pool a reconnector of the pool that ends in the course of work has no attempt left. -/
theorem Work.gaveUp_of_recovered (work : Work now p es p') (h : Ownership past p) (ledger : Ledger past p)
    (isOpen : p.closed = false) {r : Reconnector} {filled : Bool}
    (told : Event.recovered r filled ∈ es) (owned : r.owned = true) :
    filled = false ∧ Event.gaveUp r ∈ es := by
  have ended : ∀ {q : Pool} {x : Reconnector} {filled' : Bool},
      Event.recovered r filled ∈ (q.endReconnector x filled').2 → x = r ∧ filled' = filled := by
    intro q x filled' member
    rcases mem_endReconnector member with same | same
    · cases same
      exact ⟨rfl, rfl⟩
    · cases same
  cases work with
  | aside other => cases other.quiet _ told
  | starts isOpen free =>
    rw [recover_of_free isOpen free] at told
    simp [addReconnector] at told
  | @fills d x _ member _ released =>
    rcases List.mem_cons.1 told with same | told
    · cases same
    · obtain ⟨rfl, _⟩ := ended told
      rw [h.unowned_of_released member released] at owned
      cases owned
  | @givesUp x _ _ =>
    rcases List.mem_cons.1 told with same | told
    · cases same
    · obtain ⟨rfl, rfl⟩ := ended told
      exact ⟨rfl, List.mem_cons_self⟩
  | @stops x _ member _ why =>
    obtain ⟨rfl, _⟩ := ended told
    rcases why with orphaned | closed
    · rw [(ledger.owned x member owned).1] at orphaned
      cases orphaned
    · rw [isOpen] at closed
      cases closed
  | dials _ => simp [dial] at told
  | ends _ _ => simp at told
  | joins => simp [addReconnector] at told
  | redials _ _ _ _ => simp [dial] at told
  | fails _ _ _ => simp at told

/-- In an open pool a reconnector of its own that ends in a work has given up. -/
theorem Works.gaveUp_of_recovered (works : Works now p es p') (h : Ownership past p)
    (ledger : Ledger past p) (isOpen : p.closed = false)
    (honest : ∀ e ∈ es, ∀ t, e.presented? = some t → t = 0) {r : Reconnector} {filled : Bool}
    (told : Event.recovered r filled ∈ es) (owned : r.owned = true) :
    filled = false ∧ Event.gaveUp r ∈ es := by
  induction works generalizing past with
  | nil p => cases told
  | @cons p q p' es es' work _ ih =>
    rcases List.mem_append.1 told with now_told | later
    · obtain ⟨unfilled, gaveUp⟩ := work.gaveUp_of_recovered h ledger isOpen now_told owned
      exact ⟨unfilled, List.mem_append_left _ gaveUp⟩
    · have first := h.of_work ledger work fun e member => honest e (List.mem_append_left _ member)
      have still_open : q.closed = false := by
        rw [work.watch.closed]
        exact isOpen
      obtain ⟨unfilled, gaveUp⟩ := ih first (ledger.of_work work) still_open
        (fun e member => honest e (List.mem_append_right _ member)) later
      exact ⟨unfilled, List.mem_append_right _ gaveUp⟩

/-- A reconnector of a pool that stays open ends because its slot is live, or gets its connection, or
because it has no attempt left. -/
theorem Shift.cause_of_recovered (shift : Shift now past p es p') (h : Ownership past p)
    (isOpen : p'.closed = false) (honest : ∀ e ∈ es, ∀ t, e.presented? = some t → t = 0)
    {r : Reconnector} {filled : Bool} (told : Event.recovered r filled ∈ es) (owned : r.owned = true) :
    (filled = false ∧ Event.gaveUp r ∈ es) ∨
      filled = true ∧ (p.isLive r.slot = true ∨ ∃ g, Event.installed r.slot g ∈ es) := by
  cases shift with
  | @works q _ front told' prepared entries accounts works =>
    rcases List.mem_append.1 told with early | late
    · cases prepared.quiet _ early
    · have was_open : q.closed = false := by
        rw [← works.watch.closed]
        exact isOpen
      obtain ⟨unfilled, gaveUp⟩ := works.gaveUp_of_recovered (h.prepare prepared entries) accounts
        was_open (fun e member => honest e (List.mem_append_right _ member)) late owned
      exact .inl ⟨unfilled, List.mem_append_right _ gaveUp⟩
  | @relieves q d x front prepared _ _ _ served =>
    rcases List.mem_append.1 told with early | late
    · cases prepared.quiet _ early
    · have same : r = x ∧ filled = true := by simpa using late
      obtain ⟨rfl, rfl⟩ := same
      right
      refine ⟨rfl, ?_⟩
      rcases served with live | ⟨g, installed⟩
      · exact .inl live
      · exact .inr ⟨g, List.mem_append_left _ installed⟩
  | closes =>
    rw [(closed_close p now).1] at isOpen
    cases isOpen
  | @drops t _ => cases (Aside.cancel p now t).quiet _ told

/-! ## Connections that are installed without a token -/

/-- Starting reconnectors keeps the entries that there are. -/
theorem mem_reconnecting_recoverAll {slots : List Nat} {e : Nat × Token} (member : e ∈ p.reconnecting) :
    e ∈ (p.recoverAll now slots).1.reconnecting := by
  induction slots generalizing p with
  | nil => exact member
  | cons slot rest ih => exact ih (mem_reconnecting_recover member)

/-- No slot loses its reconnector when a round settles. -/
theorem mem_reconnecting_settleRound {t : Ticket} {e : Nat × Token} (member : e ∈ p.reconnecting) :
    e ∈ (p.settleRound now t).1.reconnecting := by
  cases settled : p.settleRound now t with
  | mk q es =>
    cases Settles.of_settleRound settled with
    | waits => exact member
    | settles _ => exact mem_reconnecting_recoverAll (p := p.dropRound t) member

/-- The end of a dial that is not made for a reconnector releases no slot. -/
theorem mem_reconnecting_conclude {d : Dial} {result : Except Error Unit} {e : Nat × Token}
    (other : ∀ t, d.owner ≠ .reconnector t) (member : e ∈ p.reconnecting) :
    e ∈ (p.conclude now d result).1.reconnecting := by
  unfold conclude
  cases owner : d.owner with
  | caller _ _ => exact member
  | round t => exact mem_reconnecting_settleRound (p := { p.dropDial d.ticket with rounds := _ }) member
  | reconnector t => exact absurd owner (other t)

/-- A dial that succeeds and is not made for a reconnector takes no entry away. -/
theorem Ownership.kept_of_dialSucceeds (h : Ownership past p) (ledger : Ledger past p) {t : Ticket}
    {lost : Bool} (other : ∀ d ∈ p.dials, d.ticket = t → ∀ u, d.owner ≠ .reconnector u)
    (taken : p.dialSucceeds now t lost = some (p', es)) {e : Nat × Token}
    (member : e ∈ p.reconnecting) : e ∈ p'.reconnecting := by
  obtain ⟨d, q, found, ⟨noticed, absorbs, rfl⟩, rfl⟩ := Opening.of_dialSucceeds taken
  have d_member : d ∈ p.dials := List.mem_of_find?_eq_some found
  have ticket : d.ticket = t := by simpa using List.find?_some found
  have opens := Aside.opens absorbs
  have token : q.tokenOfDial? d = p.tokenOfDial? d := by
    unfold tokenOfDial?
    rw [opens.reconnectors]
  have unlisted := Shift.unlisted_of_foreign h ledger d_member fun _ _ _ => other d d_member ticket _
  have installation := Installation.of_install q d.slot p.connections.length (q.tokenOfDial? d)
  rw [token] at installation ⊢
  apply mem_reconnecting_conclude (other d d_member ticket)
  rw [Shift.entries_of_installation opens installation fun _ => unlisted]
  exact member

/-! ## The entries of an open pool -/

/-- A pool that is closed at a moment of a run is closed at its end. -/
theorem closed_of_run {options : Options} {start : Pool} {began : Nat} {moments : List Moment}
    (made : Pool.new options = .ok start) (run : Run start began moments now p) :
    ∀ m ∈ moments, m.after.closed = true → p.closed = true := by
  induction run with
  | start =>
    intro m member
    cases member
  | @act _ now p p' _ es past taken ih =>
    have move : Move now p es p' := .of_step (Ledger.of_run made past) taken
    intro m member closed
    rcases List.mem_append.1 member with older | last
    · exact closed_of_move move (ih m older closed)
    · rw [List.mem_singleton.1 last] at closed
      exact closed
  | rest _ _ _ ih => exact ih

/-- In every run of a pool that is open, in which callers present no token that the pool gives out: the
entries of the pool are those of the reconnectors that it has started and that have not ended, and those
are the ones that run. No slot has two of them, each slot is under the token of its own, and they are
counted. A reconnector has ended because its slot was live, or got its connection, or because it had no
attempt left. An entry goes only with the reconnector that holds it, and never with a dial that succeeds
for somebody else. -/
theorem entries_of_running_reconnectors {options : Options} {start : Pool} {began : Nat}
    {moments : List Moment} (made : Pool.new options = .ok start)
    (run : Run start began moments now p) (isOpen : p.closed = false)
    (honest : ∀ m ∈ moments, ∀ t, m.action.presented? = some t → t = 0) :
    p.reconnecting = (runningIn (eventsOf moments)).map Reconnector.entry ∧
    p.team.map Reconnector.badge = (runningIn (eventsOf moments)).map Reconnector.badge ∧
    ((runningIn (eventsOf moments)).map Reconnector.slot).Nodup ∧
    (∀ r ∈ runningIn (eventsOf moments), p.tokenOf? r.slot = some r.token) ∧
    p.reconnectingCount = (runningIn (eventsOf moments)).length ∧
    (∀ m ∈ moments, ∀ r filled, Event.recovered r filled ∈ m.events → r.owned = true →
      (filled = false ∧ Event.gaveUp r ∈ m.events) ∨
        filled = true ∧ (m.before.isLive r.slot = true ∨ ∃ g, Event.installed r.slot g ∈ m.events)) ∧
    (∀ m ∈ moments, ∀ e ∈ m.before.reconnecting, e ∈ m.after.reconnecting ∨
      ∃ r filled, Event.recovered r filled ∈ m.events ∧ r.owned = true ∧ r.entry = e) ∧
    (∀ m ∈ moments, ∀ t lost, m.action = .dialSucceeds t lost →
      (∀ d ∈ m.before.dials, d.ticket = t → ∀ u, d.owner ≠ .reconnector u) →
        ∀ e ∈ m.before.reconnecting, e ∈ m.after.reconnecting) := by
  have owns := Ownership.of_run made run honest
  have running := owns.running isOpen
  have entries : p.reconnecting = (runningIn (eventsOf moments)).map Reconnector.entry := by
    rw [owns.entries, entries_eq_of_badges running]
  have slots : ((runningIn (eventsOf moments)).map Reconnector.slot).Nodup := by
    have once := owns.once
    rwa [entries, List.map_map] at once
  have stays_open : ∀ m ∈ moments, m.after.closed = false := by
    intro m member
    rw [Bool.eq_false_iff]
    intro closed
    rw [closed_of_run made run m member closed] at isOpen
    cases isOpen
  -- What is known of the pool before a moment of the run, and of the step from there.
  have shifts : ∀ m ∈ moments, ∃ past, Ownership past m.before ∧ Ledger past m.before ∧
      Shift m.instant past m.before m.events m.after ∧
      (∀ e ∈ m.events, ∀ t, e.presented? = some t → t = 0) ∧
      m.before.step m.instant m.action = some (m.after, m.events) := by
    intro m member
    obtain ⟨older, newer, rfl⟩ := List.append_of_mem member
    obtain ⟨past, taken, _⟩ := run.at_moment
    have older_owns := Ownership.of_run made past fun m member =>
      honest m (List.mem_append_left _ member)
    have accounts := Ledger.of_run made past
    exact ⟨_, older_owns, accounts, .of_step older_owns accounts (.of_run made past) taken,
      fun e seen t presented => honest m member t (presented_of_step taken seen presented), taken⟩
  refine ⟨entries, running, slots, ?_, ?_, ?_, ?_, ?_⟩
  · intro r member
    have listed : r.entry ∈ p.reconnecting := by
      rw [entries]
      exact List.mem_map_of_mem member
    unfold tokenOf?
    cases found : p.reconnecting.find? fun e => e.1 = r.slot with
    | none =>
      have other := List.find?_eq_none.1 found r.entry listed
      simp [Reconnector.entry] at other
    | some e =>
      have slot : e.1 = r.slot := by simpa using List.find?_some found
      rw [List.inj_on_of_nodup_map owns.once (List.mem_of_find?_eq_some found) listed slot]
      rfl
  · unfold reconnectingCount
    rw [entries, List.length_map]
  · intro m member r filled told owned
    obtain ⟨_, owns, _, shift, honest, _⟩ := shifts m member
    exact shift.cause_of_recovered owns (stays_open m member) honest told owned
  · intro m member e listed
    obtain ⟨_, _, _, shift, _⟩ := shifts m member
    exact shift.kept_or_cedes (stays_open m member) listed
  · intro m member t lost action other e listed
    obtain ⟨_, owns, accounts, _, _, taken⟩ := shifts m member
    rw [action] at taken
    exact owns.kept_of_dialSucceeds accounts other taken listed

/-- Two connection rounds that overlap in a pool of one slot: the dial of the first one fails, so that
the slot gets a reconnector, and then the dial of the second one succeeds. -/
def filledBeside : List (Nat × Action) := [
  (0, .connect), (0, .connect), (1, .dialFails 1 (.described "refused")), (2, .dialSucceeds 3 false)]

/-- The connection of the second round is in the slot, and the reconnector of the first one still runs
and holds its entry. -/
theorem entry_stays_of_filledBeside : ∃ start moments now p, Pool.new oneAttempt = .ok start ∧
    Run start 0 moments now p ∧ p.closed = false ∧ p.isLive 0 = true ∧ p.reconnecting = [(0, 1)] ∧
      ∃ r, runningIn (eventsOf moments) = [r] ∧ r.entry = (0, 1) ∧ p.tokenOf? 0 = some r.token := by
  have played : (Pool.new oneAttempt).toOption.bind (fun start =>
      (History.play step start filledBeside).map fun r => decide (
        (r.1.all fun m => m.action.presented?.isNone) = true ∧ r.2.closed = false ∧
        r.2.isLive 0 = true ∧ r.2.reconnecting = [(0, 1)])) = some true := by decide
  have ordered : History.inOrder 0 filledBeside = true := by decide
  obtain ⟨start, moments, p, made, run, computed⟩ := exists_run_of_script played ordered
  obtain ⟨none_presented, isOpen, live, listed⟩ := of_decide_eq_true computed
  have honest : ∀ m ∈ moments, ∀ t, m.action.presented? = some t → t = 0 := by
    intro m member t presented
    have absent := List.all_eq_true.1 none_presented m member
    rw [presented] at absent
    cases absent
  obtain ⟨entries, _, _, tokens, count, _⟩ := entries_of_running_reconnectors made run isOpen honest
  have single : (runningIn (eventsOf moments)).length = 1 := by
    rw [← count]
    unfold reconnectingCount
    rw [listed]
    rfl
  obtain ⟨r, only⟩ := List.length_eq_one_iff.1 single
  rw [only, listed] at entries
  have entry : r.entry = (0, 1) := (List.singleton_inj.1 entries).symm
  have slot : r.slot = 0 := congrArg Prod.fst entry
  have token := tokens r (by rw [only]; exact List.mem_singleton_self r)
  rw [slot] at token
  exact ⟨start, moments, _, p, made, run, isOpen, live, listed, r, only, entry, token⟩

end CallPool.Pool
