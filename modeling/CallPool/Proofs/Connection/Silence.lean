import CallPool.Proofs.Connection.Account

/-!
# What a connection does without a word

A connection can be closed, its tasks can be stopped by force, and a party can be dropped, all without
its server, its socket or its clock. Once it is dead nobody hears of any of this. To let go of a
connection is to close it and to stop its tasks, so that it ends dead, and silently
(`Silently.discard`).
-/

set_option autoImplicit false

namespace CallPool.Connection

/-- Whether a pool takes an action of a connection without being asked for it. -/
def Action.IsSelfMade : Action → Prop
  | .close => True
  | .abortReader => True
  | .abortWriter => True
  | .cancel _ => True
  | _ => False

/-- A connection comes to be another one at an instant, by what a pool does by itself, and nobody
notices. -/
def Silently (now : Nat) (c c' : Connection) : Prop :=
  ∃ moments, Run c now moments now c' ∧ eventsOf moments = [] ∧
    ∀ m ∈ moments, m.action.IsSelfMade

namespace Silently

variable {now : Nat} {c c' c'' : Connection}

/-- Nothing happens silently. -/
theorem refl (now : Nat) (c : Connection) : Silently now c c := ⟨[], .start, rfl, by simp⟩

/-- What happens silently twice happens silently. -/
theorem trans (first : Silently now c c') (second : Silently now c' c'') : Silently now c c'' := by
  obtain ⟨moments, run, quiet, own⟩ := first
  obtain ⟨moments', run', quiet', own'⟩ := second
  refine ⟨moments ++ moments', run.append run', ?_, ?_⟩
  · rw [eventsOf_append, quiet, quiet', List.append_nil]
  · intro m member
    rcases List.mem_append.1 member with earlier | later
    · exact own m earlier
    · exact own' m later

/-- An action of its own of which a connection tells nothing happens silently. -/
theorem of_step {a : Action} (own : a.IsSelfMade) (taken : c.step now a = some (c', [])) :
    Silently now c c' :=
  ⟨[⟨now, a, [], c, c'⟩], .act .start taken, rfl, by simpa using own⟩

/-- A connection is severed silently. -/
theorem sever (now : Nat) (c : Connection) : Silently now c c.sever := of_step (a := .close) trivial rfl

/-- The reader of a dead connection ends silently. -/
theorem endReader (now : Nat) (dead : c.connected = false) : Silently now c c.endReader.1 := by
  have stopped : c.endReader = ({ c with reader := .ended }, []) := by
    unfold Connection.endReader lose
    rw [if_neg (by simp [dead])]
  cases reads : c.reader with
  | listening since =>
    apply of_step (a := .abortReader) trivial
    simp only [step, reads, stopped]
  | ended =>
    have same : { c with reader := .ended } = c := by rw [← reads]
    rw [stopped, same]
    exact refl now c

/-- The writer of a dead connection is stopped silently. -/
theorem abortWriter (now : Nat) (dead : c.connected = false) :
    Silently now c (c.abortWriter.elim c Prod.fst) := by
  have ends : ∀ d : Connection, d.connected = false → (d.endWriter .loopStopped).2 = [] := by
    intro d dead
    have judged := SameWaits.judgeAll d d.queue (.failed .loopStopped)
    unfold endWriter lose
    rw [if_neg (by simp [judged.connected, dead])]
  have told : ∀ r, c.abortWriter = some r → r.2 = [] := by
    intro r taken
    unfold Connection.abortWriter at taken
    split at taken
    · cases taken
    · rename_i item _ _
      cases taken
      have judged := SameWaits.judge c item.ticket (.failed .loopStopped)
      exact ends _ (judged.connected.trans dead)
    · cases taken
      exact ends c dead
  cases taken : c.abortWriter with
  | none => exact refl now c
  | some r =>
    obtain ⟨c', es⟩ := r
    obtain rfl : es = [] := told _ taken
    exact of_step (a := .abortWriter) trivial taken

/-- A connection is discarded silently. -/
theorem discard (now : Nat) (c : Connection) : Silently now c c.discard := by
  have severed := sever now c
  have unread : Silently now c.sever c.sever.endReader.1 := endReader now rfl
  have dead : c.sever.endReader.1.connected = false := by
    obtain ⟨_, run, _⟩ := unread
    exact (dead_of_run run rfl).2
  exact (severed.trans unread).trans (abortWriter now dead)

end Silently

/-- A connection that nobody holds any more is dead. -/
theorem connected_discard (c : Connection) : c.discard.connected = false := by
  have dead_of_silently : ∀ {c c' : Connection}, Silently 0 c c' → c.connected = false →
      c'.connected = false := by
    rintro c c' ⟨_, run, _⟩ dead
    exact (dead_of_run run dead).2
  have stopped : c.sever.endReader.1.connected = false :=
    dead_of_silently (Silently.endReader 0 rfl) rfl
  exact dead_of_silently (Silently.abortWriter 0 stopped) stopped

end CallPool.Connection
