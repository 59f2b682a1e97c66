import CallPool.Proofs.Pool.RoundLife

/-!
# What a connection round leaves alone

What a round does reaches the slots that it dials only. A slot that it does not dial is left with what
it holds, with its reconnector and with all dials of it (`Untouched`); and of the slots that it dials,
the end of a dial changes what is in its own slot only, and not even that if the dial fails
(`Ending.slot_eq`).
-/

set_option autoImplicit false

namespace CallPool.Pool

/-- A slot holds what it held, has the reconnector that it had, and is dialed as it was. -/
structure Untouched (s : Nat) (p p' : Pool) : Prop where
  slot : p'.slots[s]? = p.slots[s]?
  connection : p'.slotConnection? s = p.slotConnection? s
  token : p'.tokenOf? s = p.tokenOf? s
  reconnectors : p'.reconnectors.filter (fun r => r.slot = s) = p.reconnectors.filter fun r => r.slot = s
  dials : p'.dials.filter (fun d => d.slot = s) = p.dials.filter fun d => d.slot = s

variable {s : Nat} {p p' q r : Pool} {now : Nat}

/-- A slot that holds the same connection as before, which has not changed, is as it was. -/
theorem slotConnection?_congr (slots : p'.slots[s]? = p.slots[s]?)
    (kept : ∀ g : Nat, p.slots[s]? = some (some g) → p'.connections[g]? = p.connections[g]?) :
    p'.slotConnection? s = p.slotConnection? s := by
  unfold slotConnection?
  rw [slots]
  cases held : p.slots[s]? with
  | none => rfl
  | some x =>
    cases x with
    | none => rfl
    | some g => exact kept g held

/-! ## The end of a dial -/

/-- The end of a dial changes no slot but its own, and not even that if the dial fails. -/
theorem Ending.slot_eq {a : Action} {d : Dial} {front : List Event} {result : Except Error Unit}
    (ending : Ending p d a r front result) (seated : Seated p)
    (apart : s ≠ d.slot ∨ result.isOk = false) :
    r.slots[s]? = p.slots[s]? ∧ r.slotConnection? s = p.slotConnection? s := by
  have housed : ∀ g : Nat, p.slots[s]? = some (some g) → g < p.connections.length := by
    intro g held
    obtain ⟨c, found, _⟩ := seated.seated s g held
    exact (List.getElem?_eq_some_iff.1 found).1
  cases ending with
  | fails _ _ => exact ⟨rfl, rfl⟩
  | lands landing =>
    cases landing.arrival with
    | placed _ _ _ _ _ slots _ _ others =>
      have other : s ≠ d.slot := apart.resolve_right (by simp [Except.isOk, Except.toBool])
      have same : r.slots[s]? = p.slots[s]? := by rw [slots, List.getElem?_set_ne other.symm]
      refine ⟨same, slotConnection?_congr same fun g held => ?_⟩
      refine others g (housed g held) fun there => other ?_
      -- A connection is in the slot that it was opened for, and in no other.
      obtain ⟨c, found, notice⟩ := seated.seated s g held
      obtain ⟨c', found', notice'⟩ := seated.seated d.slot g there
      obtain rfl := Option.some.inj (found.symm.trans found')
      exact congrArg Notice.slot (notice.symm.trans notice')
    | spare _ _ _ _ slots _ _ others =>
      have same : r.slots[s]? = p.slots[s]? := by rw [slots]
      exact ⟨same, slotConnection?_congr same fun g held => others g (housed g held)⟩
    | refused _ _ slots _ _ others =>
      have same : r.slots[s]? = p.slots[s]? := by rw [slots]
      exact ⟨same, slotConnection?_congr same fun g held => others g (housed g held)⟩

/-- A round that settles leaves all dials under way. -/
theorem dials_settleRound (p : Pool) (now : Nat) (t : Ticket) :
    (p.settleRound now t).1.dials = p.dials := by
  cases settled : p.settleRound now t with
  | mk q es =>
    cases Settles.of_settleRound settled with
    | waits => rfl
    | settles _ =>
      rw [recoverAll_rest]
      rfl

/-! ## Slots that are not dialed -/

namespace Untouched

/-- Where nothing happens a slot is untouched. -/
theorem refl (s : Nat) (p : Pool) : Untouched s p p := ⟨rfl, rfl, rfl, rfl, rfl⟩

/-- A slot that is left untouched twice is untouched. -/
theorem trans (first : Untouched s p q) (second : Untouched s q r) : Untouched s p r where
  slot := second.slot.trans first.slot
  connection := second.connection.trans first.connection
  token := second.token.trans first.token
  reconnectors := second.reconnectors.trans first.reconnectors
  dials := second.dials.trans first.dials

/-- The first part of the end of a dial leaves the other slots untouched. -/
theorem of_ending {a : Action} {d : Dial} {front : List Event} {result : Except Error Unit} {t : Ticket}
    (ending : Ending p d a r front result) (owner : d.owner = .round t) (seated : Seated p)
    (apart : s ≠ d.slot) : Untouched s p r := by
  obtain ⟨slot, connection⟩ := ending.slot_eq seated (.inl apart)
  have entries : r.reconnecting = p.reconnecting := by
    cases ending with
    | fails _ _ => rfl
    | lands landing =>
      have token : p.tokenOfDial? d = none := by
        unfold tokenOfDial?
        rw [owner]
      rw [landing.released, token]
      exact ite_self _
  refine ⟨slot, connection, ?_, by rw [ending.rest], by rw [ending.rest]⟩
  unfold tokenOf?
  rw [entries]

/-- A reconnector that is started leaves the other slots untouched. -/
theorem of_recover {slot : Nat} (apart : s ≠ slot) : Untouched s p (p.recover now slot).1 := by
  cases recovered : p.recover now slot with
  | mk q es =>
    cases Recovers.of_recover recovered with
    | shut _ => exact refl s p
    | held _ _ => exact ⟨rfl, rfl, rfl, rfl, rfl⟩
    | starts _ _ =>
      refine ⟨rfl, rfl, ?_, ?_, rfl⟩
      · unfold tokenOf?
        change ((p.reconnecting ++ [_]).find? _).map _ = _
        rw [List.find?_append]
        simp [Ne.symm apart]
      · change (p.reconnectors ++ [_]).filter _ = _
        rw [List.filter_append]
        simp [Ne.symm apart]

/-- Reconnectors that are started leave the other slots untouched. -/
theorem of_recoverAll {slots : List Nat} (apart : s ∉ slots) : Untouched s p (p.recoverAll now slots).1 := by
  induction slots generalizing p with
  | nil => exact refl s p
  | cons slot rest ih =>
    obtain ⟨other, others⟩ := not_or.1 (mt List.mem_cons.2 apart)
    exact (of_recover other).trans (ih others)

/-- A round that settles starts reconnectors for slots that it has dialed. -/
theorem of_settleRound {t : Ticket} {dials : List Dial} {past : List Event}
    (underway : Underway t dials past p) (apart : s ∉ dials.map Dial.slot) :
    Untouched s p (p.settleRound now t).1 := by
  by_cases waiting : ∃ d ∈ dials, endOf? d past = none
  · rw [underway.settleRound_of_waits waiting]
    exact refl s p
  · have ended : ∀ d ∈ dials, (endOf? d past).isSome = true := by
      intro d member
      rw [Option.isSome_iff_ne_none]
      exact fun unended => waiting ⟨d, member, unended⟩
    have unfailed : s ∉ failedSlots dials past := by
      intro member
      obtain ⟨d, failed, same⟩ := List.mem_map.1 member
      exact apart (List.mem_map.2 ⟨d, List.mem_of_mem_filter failed, same⟩)
    have left : Untouched s p { p with rounds := p.rounds.filter fun r => r.ticket ≠ t } :=
      ⟨rfl, rfl, rfl, rfl, rfl⟩
    rw [underway.settleRound_of_ended ended]
    exact left.trans (of_recoverAll unfailed)

/-- The end of a dial is entered without a change for the other slots. -/
theorem of_enter {t : Ticket} {d : Dial} {result : Except Error Unit}
    (tickets : (p.dials.map Dial.ticket).Nodup) (member : d ∈ p.dials) (apart : s ≠ d.slot) :
    Untouched s p (p.enter t d result) := by
  refine ⟨rfl, rfl, rfl, rfl, ?_⟩
  change (p.dials.filter _).filter _ = _
  rw [List.filter_filter]
  refine List.filter_congr fun e e_member => ?_
  by_cases mine : e.slot = s
  · have other : e.ticket ≠ d.ticket := by
      intro same
      rw [List.inj_on_of_nodup_map tickets e_member member same] at mine
      exact apart mine.symm
    simp [mine, other]
  · simp [mine]

/-- The end of a dial of a round touches slots that the round has dialed only. -/
theorem of_ended {a : Action} {t : Ticket} {d : Dial} {dials : List Dial} {past front : List Event}
    {result : Except Error Unit} (underway : Underway t dials past p) (lineup : Lineup t dials)
    (seated : Seated p) (tickets : (p.dials.map Dial.ticket).Nodup) (member : d ∈ p.dials)
    (owner : d.owner = .round t) (ending : Ending p d a r front result)
    (apart : s ∉ dials.map Dial.slot) : Untouched s p (r.conclude now d result).1 := by
  obtain ⟨mine, _⟩ := underway.mem_dials member owner
  have other : s ≠ d.slot := by
    rintro rfl
    exact apart (List.mem_map_of_mem mine)
  have rounds : r.rounds = p.rounds := by rw [ending.rest]
  have same_dials : r.dials = p.dials := by rw [ending.rest]
  have arrived : ∀ e ∈ front, e.isRound t = false :=
    fun e there => Event.isRound_of_arrival (ending.quiet e there) t
  have entered := underway.of_ended lineup member owner rounds same_dials arrived result
  rw [← same_dials] at tickets member
  rw [conclude_of_round owner]
  exact ((of_ending ending owner seated other).trans (of_enter tickets member other)).trans
    (of_settleRound entered apart)

/-- A round that begins touches the slots that it dials only. -/
theorem of_beginRound (apart : s ∉ (p.roundDials now).map Dial.slot) :
    Untouched s p (p.beginRound now) := by
  refine ⟨rfl, rfl, rfl, rfl, ?_⟩
  unfold beginRound
  rw [List.filter_append]
  have none_here : (p.roundDials now).filter (fun d => d.slot = s) = [] := by
    refine List.filter_eq_nil_iff.2 fun d member => ?_
    simp only [decide_eq_true_eq]
    exact fun same => apart (List.mem_map.2 ⟨d, member, same⟩)
  rw [none_here, List.append_nil]

end Untouched

end CallPool.Pool
