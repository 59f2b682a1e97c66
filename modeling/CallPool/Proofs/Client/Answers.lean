import CallPool.Client.Ask

/-!
# What a reply says

A reply is a refusal if it carries an error that is not empty, and nothing else makes it one
(`Response.accepted_cases`). A typed call takes its answer out of a reply that is none, and adds one
error of its own: that the payload is not what was asked for (`Ask.conclude_eq_error_iff`).
-/

set_option autoImplicit false

namespace CallPool

namespace Response

/-- A reply that carries no error. -/
def Accepts (r : Response) : Prop := r.error = none ∨ r.error = some ""

/-- A reply that refuses its call with a code, in words that are its message or else the code. -/
structure Refuses (r : Response) (code message : String) : Prop where
  error : r.error = some code
  code_ne_empty : code ≠ ""
  words : r.message = some message ∧ message ≠ "" ∨
    (r.message = none ∨ r.message = some "") ∧ message = code

/-- The message of a refusal is never empty, for the code stands in for an empty one. -/
theorem Refuses.message_ne_empty {r : Response} {code message : String} (h : r.Refuses code message) :
    message ≠ "" := by
  rcases h.words with ⟨_, worded⟩ | ⟨_, rfl⟩
  · exact worded
  · exact h.code_ne_empty

/-- The words of a refusal are determined. -/
theorem Refuses.unique {r : Response} {code code' message message' : String} (h : r.Refuses code message)
    (h' : r.Refuses code' message') : code' = code ∧ message' = message := by
  obtain rfl : code' = code := Option.some.inj (h'.error.symm.trans h.error)
  refine ⟨rfl, ?_⟩
  rcases h.words with ⟨worded, filled⟩ | ⟨silent, rfl⟩
  · rcases h'.words with ⟨worded', _⟩ | ⟨silent', _⟩
    · exact Option.some.inj (worded'.symm.trans worded)
    · rw [worded] at silent'
      rcases silent' with none_there | empty
      · cases none_there
      · exact absurd (Option.some.inj empty) filled
  · rcases h'.words with ⟨worded', filled'⟩ | ⟨_, rfl⟩
    · rw [worded'] at silent
      rcases silent with none_there | empty
      · cases none_there
      · exact absurd (Option.some.inj empty) filled'
    · rfl

/-- A response that is accepted is no refusal. -/
theorem Accepts.not_refuses {r : Response} {code message : String} (accepts : r.Accepts) :
    ¬ r.Refuses code message := by
  intro refuses
  rcases accepts with none_there | empty
  · rw [refuses.error] at none_there
    cases none_there
  · rw [refuses.error] at empty
    exact refuses.code_ne_empty (Option.some.inj empty)

/-- A reply carries no error and is taken as it is, or refuses its call and becomes an error. -/
theorem accepted_cases (r : Response) : r.Accepts ∧ r.accepted = .ok r ∨
    ∃ code message, r.Refuses code message ∧ r.accepted = .error (.remote code message) := by
  unfold accepted isError
  cases error : r.error with
  | none => exact .inl ⟨.inl error, rfl⟩
  | some code =>
    by_cases empty : code = ""
    · subst empty
      exact .inl ⟨.inr error, rfl⟩
    · have refused : (!code.isEmpty) = true := by simpa using empty
      simp only [refused, if_true, Option.getD_some]
      cases message : r.message with
      | none => exact .inr ⟨code, code, ⟨error, empty, .inr ⟨.inl message, rfl⟩⟩, rfl⟩
      | some words =>
        by_cases silent : words = ""
        · subst silent
          exact .inr ⟨code, code, ⟨error, empty, .inr ⟨.inr message, rfl⟩⟩, rfl⟩
        · refine .inr ⟨code, words, ⟨error, empty, .inl ⟨message, silent⟩⟩, ?_⟩
          have worded : words.isEmpty = false := by simpa using silent
          simp [worded]

/-- A response that is accepted comes through as it is. -/
theorem Accepts.accepted_eq {r : Response} (accepts : r.Accepts) : r.accepted = .ok r := by
  rcases r.accepted_cases with ⟨_, taken⟩ | ⟨_, _, refuses, _⟩
  · exact taken
  · exact absurd refuses accepts.not_refuses

end Response

namespace Client

/-- A payload that is not what was asked for, and why. Only reservations and policies are read: a
payload that comes back is taken as it is, and that of a record is not looked at. -/
inductive Undecodable : Ask → Response → Json.Error → Prop
  | allocation {request : AllocationRequest} {r : Response} {e : Json.Error}
      (failed : AllocationResponse.record.reader.decode r.payload = .error e) :
      Undecodable (.allocate request) r e
  | policies {r : Response} {e : Json.Error}
      (failed : PolicyResponse.record.reader.decode r.payload = .error e) : Undecodable .policies r e

/-- An accepted response is answered by an error exactly if its payload cannot be decoded, and then by
that fault. -/
theorem answer_eq_error_iff {a : Ask} {r : Response} {e : Error} (taken : r.accepted = .ok r) :
    a.answer r = .error e ↔ ∃ j, Undecodable a r j ∧ e = .json j := by
  have decoded : ∀ {α : Type} (reader : Json.Reader α) (f : α → Answer),
      (r.decode reader).map f = .error e ↔ ∃ j, reader.decode r.payload = .error j ∧ e = .json j := by
    intro α reader f
    unfold Response.decode Response.result
    rw [taken]
    change ((reader.decode r.payload).mapError Error.json).map f = .error e ↔ _
    cases read : reader.decode r.payload with
    | error j =>
      change Except.error (Error.json j) = .error e ↔ _
      simp [eq_comm]
    | ok x =>
      change Except.ok (f x) = .error e ↔ _
      simp
  cases a with
  | raw command => exact ⟨nofun, fun ⟨_, undecodable, _⟩ => nomatch undecodable⟩
  | echo payload =>
    unfold Ask.answer Response.result
    rw [taken]
    exact ⟨nofun, fun ⟨_, undecodable, _⟩ => nomatch undecodable⟩
  | use request => exact ⟨nofun, fun ⟨_, undecodable, _⟩ => nomatch undecodable⟩
  | allocate request =>
    refine (decoded _ _).trans ⟨?_, ?_⟩
    · rintro ⟨j, failed, same⟩
      exact ⟨j, .allocation failed, same⟩
    · rintro ⟨j, undecodable, same⟩
      cases undecodable with
      | allocation failed => exact ⟨j, failed, same⟩
  | policies =>
    refine (decoded _ _).trans ⟨?_, ?_⟩
    · rintro ⟨j, failed, same⟩
      exact ⟨j, .policies failed, same⟩
    · rintro ⟨j, undecodable, same⟩
      cases undecodable with
      | policies failed => exact ⟨j, failed, same⟩

/-- A typed call fails as its call does, or because the payload of a reply that carries no error is
not what was asked for. -/
theorem Ask.conclude_eq_error_iff (a : Ask) {outcome : Pool.Outcome} {e : Error}
    (taken : ∀ r, outcome = .ok (.reply r) → r.accepted = .ok r) :
    a.conclude outcome = .error e ↔ outcome = .error e ∨
      ∃ r j, outcome = .ok (.reply r) ∧ Undecodable a r j ∧ e = .json j := by
  cases outcome with
  | error e' => simp [conclude]
  | ok value =>
    cases value with
    | reply r =>
      refine (answer_eq_error_iff (taken r rfl)).trans ⟨?_, ?_⟩
      · rintro ⟨j, undecodable, same⟩
        exact .inr ⟨r, j, rfl, undecodable, same⟩
      · rintro (failed | ⟨r', j, same_reply, undecodable, same⟩)
        · cases failed
        · obtain rfl := Pool.Value.reply.inj (Except.ok.inj same_reply)
          exact ⟨j, undecodable, same⟩
    | _ => simp [conclude]

end Client

end CallPool
