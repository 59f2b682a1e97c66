import CallPool.Proofs.Connection.Account

/-!
# The first response that answers

A response answers an ID if that is its own, or if it is the one it replies to and its own belongs
to nobody who waits. A response that is handed to a party comes in while the party waits and
answers the ID under which it does (`Delivery.of_run`), and none that came in before, since the
party was registered, answered that ID (`unanswered_of_run`). IDs need not differ for it.
-/

set_option autoImplicit false

namespace CallPool

/-- Whether a response answers an ID, given who waits. An empty ID is none. -/
def Response.Answers (response : Response) (registry : Registry) (id : CorrelationId) : Prop :=
  id.text ≠ "" ∧ (response.id = some id ∨ response.replyTo = some id ∧
    ∀ own, response.id = some own → own.text ≠ "" → registry.find? own = none)

/-- The first key of a response under which somebody waits is the ID that it answers. -/
theorem Response.firstOf?_correlationKeys_eq_some_iff {response : Response} {registry : Registry}
    {id : CorrelationId} : registry.firstOf? response.correlationKeys = some id ↔
      response.Answers registry id ∧ (registry.find? id).isSome = true := by
  have single : ∀ (x : Option CorrelationId) (y : CorrelationId),
      x.toList.find? (fun k => decide ((!k.text.isEmpty) = true ∧ (registry.find? k).isSome = true)) =
        some y ↔ x = some y ∧ y.text ≠ "" ∧ (registry.find? y).isSome = true := by
    intro x y
    cases x with
    | none => simp
    | some x =>
      rw [Option.toList_some, List.find?_singleton]
      simp only [Bool.not_eq_true', String.isEmpty_eq_false_iff, ne_eq, decide_eq_true_eq,
        Option.ite_none_right_eq_some, Option.some.injEq]
      constructor
      · rintro ⟨usable, rfl⟩
        exact ⟨rfl, usable⟩
      · rintro ⟨rfl, usable⟩
        exact ⟨usable, rfl⟩
  unfold Registry.firstOf? correlationKeys Answers
  rw [List.find?_filter, List.find?_append, Option.or_eq_some_iff, single, single]
  have unused : (response.id.toList.find? fun k =>
      decide ((!k.text.isEmpty) = true ∧ (registry.find? k).isSome = true)) = none ↔
        ∀ own, response.id = some own → own.text ≠ "" → registry.find? own = none := by
    cases own : response.id with
    | none => simp
    | some x => simp [List.find?_singleton]
  rw [unused]
  constructor
  · rintro (⟨same, nonempty, held⟩ | ⟨free, same, nonempty, held⟩)
    · exact ⟨⟨nonempty, .inl same⟩, held⟩
    · exact ⟨⟨nonempty, .inr ⟨same, free⟩⟩, held⟩
  · rintro ⟨⟨nonempty, same | ⟨same, free⟩⟩, held⟩
    · exact .inl ⟨same, nonempty, held⟩
    · exact .inr ⟨free, same, nonempty, held⟩

namespace Connection

variable {c c' : Connection} {now : Nat}

/-- A response that comes in goes to whoever waits under the ID that it answers. -/
theorem delivered_of_receive {inbound : Inbound} {response : Response} {id : CorrelationId}
    {t : Ticket} {es : List Event} (taken : c.step now (.receive inbound) = some (c', es))
    (read : inbound.response? = some response) (answers : response.Answers c.registry id)
    (waiting : c.registry.find? id = some t) : es = [.delivered t response] := by
  have key : c.registry.firstOf? response.correlationKeys = some id :=
    Response.firstOf?_correlationKeys_eq_some_iff.2 ⟨answers, by rw [waiting]; rfl⟩
  cases Takes.of_step taken with
  | delivers read' key' waiting' =>
    obtain rfl := Option.some.inj (read.symm.trans read')
    obtain rfl := Option.some.inj (key.symm.trans key')
    obtain rfl := Option.some.inj (waiting.symm.trans waiting')
    rfl
  | hears unmatched =>
    rw [unmatched response read] at key
    cases key
  | endsReader how =>
    rw [how.spares.1 inbound rfl] at read
    cases read
  | endsWriter how =>
    rw [how.spares.1 inbound rfl] at read
    cases read
  | fails _ how =>
    rw [how.spares.1 inbound rfl] at read
    cases read
  | refuses _ asks =>
    rcases asks with ⟨_, _, _, same⟩ | ⟨_, same⟩
    · cases same
    · cases same

/-- As long as a party waits, no response has come in that answers it. -/
theorem unanswered_of_run {slot generation began : Nat} {options : Options}
    {before between : List Moment} {m : Moment} {inbound : Inbound} {response : Response}
    {id : CorrelationId} {w : Wait}
    (run : Run (Connection.opened slot generation options began) began (before ++ m :: between) now c)
    (registered : Event.registered w.ticket id ∈ eventsOf before) (receives : m.action = .receive inbound)
    (read : inbound.response? = some response) (member : w ∈ c.waits) (awaits : w.reply = .awaited) :
    ¬ response.Answers m.before.registry id := by
  intro answers
  have account := Account.of_run run
  obtain ⟨past, taken, middle, -, behind⟩ := run.at_moment
  have coherent := Coherent.of_run past
  have account' := Account.of_run past
  have undelivered : ∀ response', Event.delivered w.ticket response' ∉ eventsOf (before ++ m :: between) := by
    intro response' told
    rw [(account.reply w member response').2 told] at awaits
    cases awaits
  obtain ⟨below, dropped | ⟨w', w_member', same, waiting'⟩⟩ := account'.present _ _ registered
  · exact (account.gone w.ticket (dropped_append.2 (.inl dropped))).2 w member rfl
  cases reply : w'.reply with
  | delivered earlier =>
    have told := (account'.reply w' w_member' earlier).1 reply
    rw [same] at told
    apply undelivered earlier
    rw [eventsOf_append]
    exact List.mem_append_left _ told
  | abandoned =>
    -- A reply that is given up at this point is still given up in the end.
    have settled : Settled m.before w.ticket := by
      refine ⟨below, ?_⟩
      intro other other_member mine
      rw [coherent.wait_unique other_member w_member' (mine.trans same.symm), reply]
      nofun
    have settled_at_end := settled_of_run behind (coherent.of_effect (.of_step taken))
      (settled_of_step coherent taken settled)
    exact settled_at_end.2 w member rfl awaits
  | awaited =>
    have found := coherent.find?_of_wait w_member' waiting' reply
    rw [receives] at taken
    have handed := delivered_of_receive taken read answers found
    rw [same] at handed
    apply undelivered response
    rw [eventsOf_append, eventsOf_cons, handed]
    simp

/-- How a response came to be handed to a party, given what was before. -/
structure Delivery (older : List Moment) (c : Connection) (a : Action) (es : List Event) (t : Ticket)
    (response : Response) (id : CorrelationId) : Prop where
  /-- The response comes in, and nothing else happens. -/
  read : ∃ inbound, a = .receive inbound ∧ inbound.response? = some response
  only : es = [.delivered t response]
  /-- The party was registered before, is still there and waits. -/
  registered : Event.registered t id ∈ eventsOf older
  waiting : ∃ p ∈ c.parties, p.ticket = t ∧ p.purpose.id? = some id ∧ p.reply = .awaited
  undelivered : ∀ response', Event.delivered t response' ∉ eventsOf older
  answers : response.Answers c.registry id

/-- A response that is handed to a party answers the ID under which the party waits. -/
theorem Delivery.of_run {slot generation began : Nat} {options : Options} {older : List Moment}
    {a : Action} {es : List Event} {t : Ticket} {response : Response}
    (past : Run (Connection.opened slot generation options began) began older now c)
    (taken : c.step now a = some (c', es)) (told : Event.delivered t response ∈ es) :
    ∃ id, Delivery older c a es t response id := by
  have coherent := Coherent.of_run past
  have account := Account.of_run past
  obtain ⟨only, inbound, id, receives, read, key, found⟩ :=
    (Passage.of_step coherent taken).delivered t response told
  obtain ⟨w, member, rfl, waiting, awaits⟩ := coherent.wait_of_find? found
  refine ⟨id, ⟨inbound, receives, read⟩, only, account.registered w member id waiting, ?_, ?_,
    (Response.firstOf?_correlationKeys_eq_some_iff.1 key).1⟩
  · obtain ⟨p, p_member, rfl⟩ := List.mem_map.1 member
    exact ⟨p, p_member, rfl, waiting, awaits⟩
  · intro response' told'
    rw [(account.reply w member response').2 told'] at awaits
    cases awaits

/-- What a connection tells besides traffic, and when it does. -/
theorem Effect.telling {a : Action} {es : List Event} {e : Event} (effect : Effect c now c' a es)
    (told : e ∈ es) (other : e.isTraffic = false) :
    e = .lost c.notice ∨ (∃ id, e = .registered c.nextTicket id) ∨ e = .refused c.nextTicket ∨
      e = .finished c.nextTicket (.error .noConnectionAvailable) ∨
      (∃ p outcome, c.party? p.ticket = some p ∧ p.ending? c.slot now = some outcome ∧
        e = .finished p.ticket outcome) ∨
      ∃ inbound t response, a = .receive inbound ∧ e = .delivered t response := by
  have loud : ∀ {quiet : List Event}, (∀ e ∈ quiet, e.isTraffic = true) → e ∉ quiet :=
    fun quiet => not_mem_of_isTraffic quiet other
  cases effect with
  | traffic _ quiet _ _ => exact absurd told (loud quiet)
  | closed _ => cases told
  | lost _ _ quiet _ =>
    rcases List.mem_append.1 told with told | told
    · exact absurd told (loud quiet)
    · exact .inl (List.mem_singleton.1 told)
  | registered _ _ _ _ quiet =>
    rcases List.mem_cons.1 told with same | told
    · exact .inr (.inl ⟨_, same⟩)
    · exact absurd told (loud quiet)
  | sent _ _ quiet => exact absurd told (loud quiet)
  | refused _ _ which _ =>
    rw [List.mem_singleton.1 told]
    rcases which with finished | refused
    · exact .inr (.inr (.inr (.inl finished)))
    · exact .inr (.inr (.inl refused))
  | left found _ how =>
    rcases how with ⟨_, rfl⟩ | ⟨outcome, _, ends, rfl⟩
    · cases told
    · exact .inr (.inr (.inr (.inr (.inl ⟨_, outcome, found, ends, List.mem_singleton.1 told⟩))))
  | delivered _ _ _ _ =>
    exact .inr (.inr (.inr (.inr (.inr ⟨_, _, _, rfl, List.mem_singleton.1 told⟩))))

/-- A response is delivered only by what the reader takes in. -/
theorem receives_of_delivered {a : Action} {es : List Event} {t : Ticket} {response : Response}
    (taken : c.step now a = some (c', es)) (told : Event.delivered t response ∈ es) :
    ∃ inbound, a = .receive inbound := by
  rcases (Effect.of_step taken).telling told rfl with
    same | ⟨_, same⟩ | same | same | ⟨_, _, _, _, same⟩ | ⟨inbound, _, _, receives, _⟩
  · cases same
  · cases same
  · cases same
  · cases same
  · cases same
  · exact ⟨inbound, receives⟩

/-- A call that ends with a response has been delivered that response. -/
theorem Party.reply_of_ending? {p : Party} {slot : Nat} {response : Response}
    (ends : p.ending? slot now = some (.ok (.reply response))) : p.reply = .delivered response := by
  have learnt : p.outcome? slot = some (.ok (.reply response)) := by
    unfold ending? at ends
    cases known : p.outcome? slot with
    | some outcome =>
      rw [known] at ends
      exact ends
    | none =>
      simp only [known] at ends
      split at ends
      · split at ends
        · unfold surrender? at ends
          split at ends <;> cases ends
        · cases ends
      · cases ends
  unfold outcome? at learnt
  split at learnt
  · cases learnt
  · cases learnt
  · split at learnt
    · cases learnt
    · split at learnt
      · cases learnt
      · rename_i delivered
        cases learnt
        exact delivered
      · cases learnt

/-- A party that ends with a response has been handed it. -/
theorem delivered_of_finished {slot generation began : Nat} {options : Options} {older : List Moment}
    {a : Action} {es : List Event} {t : Ticket} {response : Response}
    (past : Run (Connection.opened slot generation options began) began older now c)
    (taken : c.step now a = some (c', es))
    (told : Event.finished t (.ok (.reply response)) ∈ es) :
    Event.delivered t response ∈ eventsOf older := by
  rcases (Effect.of_step taken).telling told rfl with
    same | ⟨_, same⟩ | same | same | ⟨p, _, found, ends, same⟩ | ⟨_, _, _, _, same⟩
  · cases same
  · cases same
  · cases same
  · cases same
  · obtain ⟨rfl, rfl⟩ := Event.finished.inj same
    have member : p.wait ∈ c.waits := List.mem_map_of_mem (List.mem_of_find?_eq_some found)
    exact ((Account.of_run past).reply p.wait member response).1 (Party.reply_of_ending? ends)
  · cases same

end Connection

end CallPool
