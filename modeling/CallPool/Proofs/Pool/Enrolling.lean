import CallPool.Proofs.Pool.Entries

/-!
# Where the entries of a pool come from

A slot that has a reconnector either had it before, or has got a new one since: one that the pool has
started and that has its whole budget (`Enrolls`). So it is for a change of the books (`Work.enrolls`),
for a move (`Move.enrolls`) and for a run (`enrolls_of_run`).
-/

set_option autoImplicit false

namespace CallPool.Pool

/-- A reconnector of the pool has not dialed yet, and may dial as often as the options say. -/
structure Reconnector.Fresh (r : Reconnector) (options : Options) : Prop where
  owned : r.owned = true
  attempt : r.attempt = 0
  schedule : r.schedule = options.backoff

/-- The entries that are new are those of fresh reconnectors. -/
def Enrolls (p : Pool) (es : List Event) (p' : Pool) : Prop :=
  ∀ e ∈ p'.reconnecting, e ∈ p.reconnecting ∨
    ∃ r, Event.recovering r ∈ es ∧ r.entry = e ∧ r.Fresh p.options

variable {p p' p'' q : Pool} {now : Nat} {es es' : List Event}

namespace Enrolls

/-- Nobody is enrolled where every entry was there before. -/
theorem of_subset (kept : ∀ e ∈ p'.reconnecting, e ∈ p.reconnecting) : Enrolls p es p' :=
  fun e member => .inl (kept e member)

/-- Nobody is enrolled where the entries stay. -/
theorem of_same (same : p'.reconnecting = p.reconnecting) : Enrolls p es p' := by
  refine of_subset fun e member => ?_
  rw [same] at member
  exact member

/-- Who is enrolled by two changes is enrolled by one of them. -/
theorem trans (first : Enrolls p es q) (second : Enrolls q es' p') (options : q.options = p.options) :
    Enrolls p (es ++ es') p' := by
  intro e member
  rcases second e member with there | ⟨r, told, mine, fresh⟩
  · rcases first e there with older | ⟨r, told, mine, fresh⟩
    · exact .inl older
    · exact .inr ⟨r, List.mem_append_left _ told, mine, fresh⟩
  · rw [options] at fresh
    exact .inr ⟨r, List.mem_append_right _ told, mine, fresh⟩

end Enrolls

/-- No change of the books changes the options. -/
theorem Work.options (work : Work now p es p') : p'.options = p.options := by
  rcases work.aside_or_books with other | books
  · exact other.options
  · exact books.options

/-- Of the changes of the books only the start of a reconnector of the pool brings an entry. -/
theorem Work.enrolls (work : Work now p es p') : Enrolls p es p' := by
  have ended : ∀ (q : Pool) (r : Reconnector) (filled : Bool),
      ∀ e ∈ (q.endReconnector r filled).1.reconnecting, e ∈ q.reconnecting :=
    fun _ _ _ _ member => (mem_reconnecting_endReconnector.1 member).1
  cases work with
  | aside h => exact .of_same h.reconnecting
  | starts isOpen free =>
    rw [recover_of_free isOpen free]
    intro e member
    rcases List.mem_append.1 member with older | newest
    · exact .inl older
    · exact .inr ⟨_, List.mem_singleton_self _, (List.mem_singleton.1 newest).symm, rfl, rfl, rfl⟩
  | @fills d r _ _ _ _ => exact .of_subset (ended (p.dropDial d.ticket) r true)
  | givesUp _ _ => exact .of_subset (ended _ _ _)
  | stops _ _ _ => exact .of_subset (ended _ _ _)
  | _ => exact .of_same rfl

/-- Who has an entry behind a work had it before, or has been started by it. -/
theorem Works.enrolls (works : Works now p es p') : Enrolls p es p' := by
  induction works with
  | nil p => exact .of_same rfl
  | cons work _ ih => exact work.enrolls.trans ih work.options

/-- Who has an entry behind a move had it before, or has been started by it. -/
theorem Move.enrolls (move : Move now p es p') : Enrolls p es p' := by
  cases move with
  | works works => exact works.enrolls
  | closes =>
    refine .of_subset fun e member => ?_
    rw [close_rest] at member
    cases member
  | @drops t _ =>
    refine .of_same ?_
    rw [(Aside.cancel p now t).reconnecting]
    rfl
  | supervises _ _ handled => exact (Works.of_handled handled).enrolls
  | @installs d noticed placed told q r p' token result born opens before installation concludes after =>
    have arrived : Enrolls p (noticed ++ placed) r := by
      refine .of_subset fun e member => ?_
      have there := installation.mem_reconnecting member
      rw [opens.reconnecting] at there
      exact there
    refine arrived.trans concludes.enrolls ?_
    rw [installation.rest]
    exact opens.options

/-- Who has an entry behind a run had it before, or has been started in it. -/
theorem enrolls_of_run {options : Options} {start middle : Pool} {began since : Nat}
    {older newer : List Moment} (made : Pool.new options = .ok start)
    (past : Run start began older since middle) (run : Run middle since newer now p) :
    Enrolls middle (eventsOf newer) p := by
  induction run with
  | start => exact .of_same rfl
  | act upto taken ih =>
    have move := Move.of_step (Ledger.of_run made (past.append upto)) taken
    rw [eventsOf_append, eventsOf_cons, eventsOf_nil, List.append_nil]
    exact ih.trans move.enrolls (Follows.of_run upto).options
  | rest _ _ _ ih => exact ih

end CallPool.Pool
