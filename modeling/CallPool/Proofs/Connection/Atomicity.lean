import CallPool.Proofs.Connection.FirstReply
import CallPool.Proofs.Json.Meaning
import Mathlib.Data.List.Find
import Mathlib.Data.List.Nodup

/-!
# A frame is taken as a whole or not at all

Whatever bytes come in, a connection either passes them over and stays as it is, or hands the response
that they hold to one party: the one that waits under the first of its keys. Then the entry of that party
goes, the party has its reply, and nothing else changes (`HandsOver`). Who is to have a frame depends on
the registry at the keys of the frame alone (`addressee?_congr`), so frames that share no key can come in
either order.

Main statement: `frames_are_taken_whole`.
-/

set_option autoImplicit false

namespace CallPool

/-- The other elements of a list in which no two have one key have other keys. -/
theorem key_ne_of_nodup {α β : Type} {key : α → β} {front back : List α} {a : α}
    (once : ((front ++ a :: back).map key).Nodup) : ∀ b ∈ front ++ back, key b ≠ key a := by
  rw [List.map_append, List.map_cons, List.nodup_middle, List.nodup_cons, ← List.map_append] at once
  exact fun b member same => once.1 (same ▸ List.mem_map_of_mem member)

namespace Registry

/-- Removing an ID does not matter to the others. -/
theorem find?_erase_of_ne (r : Registry) {id id' : CorrelationId} (other : id' ≠ id) :
    (r.erase id).find? id' = r.find? id' := by
  unfold find? erase
  rw [List.find?_filter]
  congr 2
  funext e
  by_cases same : e.1 = id' <;> simp [same, other]

/-- It does not matter in which order two IDs are removed. -/
theorem erase_comm (r : Registry) (id id' : CorrelationId) :
    (r.erase id).erase id' = (r.erase id').erase id := by
  unfold erase
  rw [Registry.mk.injEq, List.filter_comm]

/-- An entry that is removed leaves all others, in their order. -/
theorem entries_erase {r : Registry} (once : r.ids.Nodup) {id : CorrelationId} {t : Ticket}
    {front back : List (CorrelationId × Ticket)} (shape : r.entries = front ++ (id, t) :: back) :
    (r.erase id).entries = front ++ back := by
  unfold ids at once
  rw [shape] at once
  have kept : ∀ e ∈ front ++ back, decide (e.1 ≠ id) = true := fun e member =>
    decide_eq_true (key_ne_of_nodup once e member)
  have removed : (r.erase id).entries = (front ++ back).filter fun e => e.1 ≠ id := by
    unfold erase
    simp [shape]
  rw [removed, List.filter_eq_self.2 kept]

end Registry

namespace Connection

/-- Whether an ID is a key of what a frame holds: it is not empty, and the frame holds a response with
that ID, or in reply to it. -/
def Keyed (content : List UInt8) (id : CorrelationId) : Prop :=
  id.text ≠ "" ∧ ∃ response, Response.parse content = .ok response ∧
    (response.id = some id ∨ response.replyTo = some id)

/-- What a connection is like that hands a response to the party that waits under an ID, and what it
tells. -/
structure HandsOver (c : Connection) (response : Response) (id : CorrelationId) (p : Party)
    (c' : Connection) (es : List Event) : Prop where
  answers : response.Answers c.registry id
  waiting : p.purpose.id? = some id ∧ p.reply = .awaited
  /-- Its entry goes, and all others stay. -/
  entry : ∃ front back, c.registry.entries = front ++ (id, p.ticket) :: back ∧
    c'.registry.entries = front ++ back
  held : ∀ key, c'.registry.find? key = if key = id then none else c.registry.find? key
  /-- It has the response, and no other party changes. -/
  party : ∃ front back, c.parties = front ++ p :: back ∧
    c'.parties = front ++ { p with reply := .delivered response } :: back
  rest : c' = { c with registry := c'.registry, parties := c'.parties }
  told : es = [.delivered p.ticket response]

/-- Who is to have what a frame holds: the first of its keys under which somebody waits decides. -/
def addressee? (registry : Registry) (content : List UInt8) :
    Option (CorrelationId × Ticket × Response) :=
  match Response.parse content with
  | .error _ => none
  | .ok response => (registry.firstOf? response.correlationKeys).bind fun id =>
      (registry.find? id).map fun t => (id, t, response)

/-- Hands a response over, if there is somebody to have it. -/
def settle (c : Connection) : Option (CorrelationId × Ticket × Response) → Connection × List Event
  | none => (c, [])
  | some (id, t, response) => (c.handOver id t response, [.delivered t response])

variable {c : Connection} {content content' : List UInt8}

/-- A frame does nothing but hand its response to its addressee, if it has one. -/
theorem take_eq (c : Connection) (content : List UInt8) :
    c.take content = c.settle (addressee? c.registry content) := by
  unfold take addressee?
  cases Response.parse content with
  | error _ => rfl
  | ok response =>
    dsimp only
    unfold deliver
    cases c.registry.firstOf? response.correlationKeys with
    | none => rfl
    | some id =>
      dsimp only [Option.bind_some]
      cases c.registry.find? id with
      | none => rfl
      | some t => rfl

/-- The keys of a response are its ID and the one it replies to, as far as they are not empty. -/
theorem mem_correlationKeys {response : Response} {id : CorrelationId} :
    id ∈ response.correlationKeys ↔
      id.text ≠ "" ∧ (response.id = some id ∨ response.replyTo = some id) := by
  unfold Response.correlationKeys
  rw [List.mem_filter, List.mem_append, Option.mem_toList, Option.mem_toList, and_comm]
  simp [String.isEmpty_eq_false_iff]

/-- The keys of a frame are read off the two IDs that its response gives. -/
theorem keyed_iff_of_parse {own replyTo : Option CorrelationId}
    (reads : (Response.parse content).toOption.map (fun r => (r.id, r.replyTo)) = some (own, replyTo))
    {id : CorrelationId} : Keyed content id ↔ id.text ≠ "" ∧ (own = some id ∨ replyTo = some id) := by
  obtain ⟨response, parsed, same⟩ := Option.map_eq_some_iff.1 reads
  obtain ⟨rfl, rfl⟩ := Prod.mk.inj same
  have parsed := Json.toOption_eq_some_iff.1 parsed
  constructor
  · rintro ⟨nonempty, response', parsed', named⟩
    obtain rfl := Except.ok.inj (parsed.symm.trans parsed')
    exact ⟨nonempty, named⟩
  · rintro ⟨nonempty, named⟩
    exact ⟨nonempty, response, parsed, named⟩

/-- Who is to have a frame depends on who waits under its keys only. -/
theorem addressee?_congr {r r' : Registry} (agree : ∀ id, Keyed content id → r.find? id = r'.find? id) :
    addressee? r content = addressee? r' content := by
  unfold addressee?
  cases parsed : Response.parse content with
  | error _ => rfl
  | ok response =>
    have keyed : ∀ id ∈ response.correlationKeys, r.find? id = r'.find? id := fun id member =>
      agree id ⟨(mem_correlationKeys.1 member).1, response, parsed, (mem_correlationKeys.1 member).2⟩
    have first : r.firstOf? response.correlationKeys = r'.firstOf? response.correlationKeys :=
      List.find?_congr fun id member => by rw [keyed id member]
    dsimp only
    rw [first]
    cases found : r'.firstOf? response.correlationKeys with
    | none => rfl
    | some id =>
      rw [Option.bind_some, Option.bind_some, keyed id (List.mem_of_find?_eq_some found)]

/-- An addressee stands under the first key of the response that is registered. -/
theorem addressee?_eq_some {r : Registry} {id : CorrelationId} {t : Ticket} {response : Response}
    (found : addressee? r content = some (id, t, response)) :
    Response.parse content = .ok response ∧ response.Answers r id ∧ r.find? id = some t := by
  unfold addressee? at found
  cases parsed : Response.parse content with
  | error _ =>
    rw [parsed] at found
    cases found
  | ok response' =>
    simp only [parsed, Option.bind_eq_some_iff, Option.map_eq_some_iff] at found
    obtain ⟨_, first, _, waiting, same⟩ := found
    cases same
    exact ⟨rfl, (Response.firstOf?_correlationKeys_eq_some_iff.1 first).1, waiting⟩

/-- A frame that has an addressee carries its ID. -/
theorem keyed_of_addressee? {r : Registry} {id : CorrelationId} {t : Ticket} {response : Response}
    (found : addressee? r content = some (id, t, response)) : Keyed content id := by
  obtain ⟨parsed, ⟨nonempty, named⟩, _⟩ := addressee?_eq_some found
  exact ⟨nonempty, response, parsed, named.imp_right And.left⟩

/-- A frame is for nobody exactly if nobody waits under a key of it. -/
theorem addressee?_eq_none_iff {r : Registry} :
    addressee? r content = none ↔ ∀ id, Keyed content id → r.find? id = none := by
  constructor
  · rintro nobody id ⟨nonempty, response, parsed, named⟩
    simp only [addressee?, parsed, Option.bind_eq_none_iff, Option.map_eq_none_iff] at nobody
    have unheld : r.firstOf? response.correlationKeys = none := by
      cases first : r.firstOf? response.correlationKeys with
      | none => rfl
      | some key =>
        obtain ⟨t, waiting⟩ := exists_find?_of_firstOf? first
        rw [nobody key first] at waiting
        cases waiting
    have absent := List.find?_eq_none.1 unheld id (mem_correlationKeys.2 ⟨nonempty, named⟩)
    simpa using absent
  · intro unheld
    cases found : addressee? r content with
    | none => rfl
    | some addressee =>
      obtain ⟨id, t, response⟩ := addressee
      have waiting := (addressee?_eq_some found).2.2
      rw [unheld id (keyed_of_addressee? found)] at waiting
      cases waiting

/-- What a response is handed over to changes under its own ID only. -/
theorem settle_find? (c : Connection) (content : List UInt8) {key : CorrelationId}
    (other : ¬ Keyed content key) :
    (c.settle (addressee? c.registry content)).1.registry.find? key = c.registry.find? key := by
  cases found : addressee? c.registry content with
  | none => rfl
  | some addressee =>
    obtain ⟨id, t, response⟩ := addressee
    refine Registry.find?_erase_of_ne _ ?_
    rintro rfl
    exact other (keyed_of_addressee? found)

/-- A change of one party leaves all others as they are. -/
theorem parties_update {older newer : List Party} {p : Party} (once : (c.parties.map Party.ticket).Nodup)
    (shape : c.parties = older ++ p :: newer) (f : Party → Party) :
    (c.update p.ticket f).parties = older ++ f p :: newer := by
  rw [shape] at once
  have kept : ∀ q ∈ older ++ newer, (if q.ticket = p.ticket then f q else q) = q := fun q member =>
    if_neg (key_ne_of_nodup once q member)
  have older_kept := List.map_congr_left fun q member => kept q (List.mem_append_left newer member)
  have newer_kept := List.map_congr_left fun q member => kept q (List.mem_append_right older member)
  show c.parties.map _ = _
  rw [shape, List.map_append, List.map_cons, if_pos rfl, older_kept, newer_kept, List.map_id',
    List.map_id']

/-- Changes of two parties that leave them their tickets can be made in either order. -/
theorem update_comm (c : Connection) {t t' : Ticket} (apart : t ≠ t') {f g : Party → Party}
    (kept : ∀ p, (f p).ticket = p.ticket) (kept' : ∀ p, (g p).ticket = p.ticket) :
    (c.update t f).update t' g = (c.update t' g).update t f := by
  unfold update
  simp only [List.map_map, Connection.mk.injEq, true_and, and_true]
  apply List.map_congr_left
  intro p _
  by_cases mine : p.ticket = t
  · have other : p.ticket ≠ t' := fun same => apart (mine.symm.trans same)
    simp [mine, apart, kept]
  · by_cases other : p.ticket = t' <;> simp [mine, other, kept', apart.symm]

/-- Responses to two different parties can be handed over in either order. -/
theorem handOver_comm (c : Connection) {id id' : CorrelationId} {t t' : Ticket} (apart : t ≠ t')
    (response response' : Response) : (c.handOver id t response).handOver id' t' response' =
      (c.handOver id' t' response').handOver id t response := by
  have parties := congrArg Connection.parties (c.update_comm apart
    (f := fun p => { p with reply := .delivered response })
    (g := fun p => { p with reply := .delivered response' }) (fun _ => rfl) fun _ => rfl)
  have entries := c.registry.erase_comm id id'
  unfold handOver update at *
  simp only [Connection.mk.injEq, true_and, and_true]
  exact ⟨entries, parties⟩

/-- Where the registry agrees with the parties, handing over changes one entry and one party. -/
theorem handsOver_of_answers (coherent : Coherent c) {response : Response} {id : CorrelationId} {t : Ticket}
    (answers : response.Answers c.registry id) (waiting : c.registry.find? id = some t) :
    ∃ p, HandsOver c response id p (c.handOver id t response) [.delivered t response] := by
  obtain ⟨w, w_member, rfl, own, awaits⟩ := coherent.wait_of_find? waiting
  obtain ⟨p, member, rfl⟩ := List.mem_map.1 w_member
  obtain ⟨front, back, entries⟩ := List.append_of_mem
    ((Registry.find?_eq_some_iff coherent.ids_nodup).1 waiting)
  obtain ⟨older, newer, parties⟩ := List.append_of_mem member
  have once : (c.parties.map Party.ticket).Nodup := by
    have tickets := coherent.tickets_nodup
    rw [waits, List.map_map] at tickets
    exact tickets
  refine ⟨p, answers, ⟨own, awaits⟩, ⟨front, back, entries, ?_⟩, ?_, ⟨older, newer, parties, ?_⟩, rfl, rfl⟩
  · exact Registry.entries_erase coherent.ids_nodup entries
  · intro key
    show (c.registry.erase id).find? key = _
    split
    · rename_i same
      rw [same, Registry.find?_erase_self]
    · rename_i other
      exact Registry.find?_erase_of_ne _ other
  · exact parties_update once parties _

/-- A frame is passed over, or handed over as a whole. -/
theorem take_cases (coherent : Coherent c) (content : List UInt8) :
    ((∀ id, Keyed content id → c.registry.find? id = none) ∧ c.take content = (c, [])) ∨
      ∃ response id p, Response.parse content = .ok response ∧
        HandsOver c response id p (c.take content).1 (c.take content).2 := by
  rw [take_eq]
  cases found : addressee? c.registry content with
  | none => exact .inl ⟨addressee?_eq_none_iff.1 found, rfl⟩
  | some addressee =>
    obtain ⟨id, t, response⟩ := addressee
    obtain ⟨parsed, answers, waiting⟩ := addressee?_eq_some found
    obtain ⟨p, hands⟩ := handsOver_of_answers coherent answers waiting
    exact .inr ⟨response, id, p, parsed, hands⟩

/-- Frames that share no key make the same of a connection in either order, and each is for the same
party with the same response. -/
theorem take_comm (coherent : Coherent c) (disjoint : ∀ id, Keyed content id → ¬ Keyed content' id) :
    ((c.take content).1.take content').1 = ((c.take content').1.take content).1 ∧
      ((c.take content).1.take content').2 = (c.take content').2 ∧
      ((c.take content').1.take content).2 = (c.take content).2 := by
  have behind : addressee? (c.take content).1.registry content' = addressee? c.registry content' :=
    addressee?_congr fun id keyed => by
      rw [take_eq]
      exact c.settle_find? content fun mine => disjoint id mine keyed
  have before : addressee? (c.take content').1.registry content = addressee? c.registry content :=
    addressee?_congr fun id keyed => by
      rw [take_eq]
      exact c.settle_find? content' (disjoint id keyed)
  rw [take_eq (c.take content).1, take_eq (c.take content').1, behind, before, take_eq c, take_eq c]
  cases found : addressee? c.registry content with
  | none =>
    cases found' : addressee? c.registry content' with
    | none => exact ⟨rfl, rfl, rfl⟩
    | some addressee => exact ⟨rfl, rfl, rfl⟩
  | some addressee =>
    obtain ⟨id, t, response⟩ := addressee
    cases found' : addressee? c.registry content' with
    | none => exact ⟨rfl, rfl, rfl⟩
    | some addressee' =>
      obtain ⟨id', t', response'⟩ := addressee'
      have apart : t ≠ t' := by
        rintro rfl
        obtain ⟨w, member, rfl, waiting, _⟩ := coherent.wait_of_find? (addressee?_eq_some found).2.2
        have waiting' := coherent.id_of_find? member (addressee?_eq_some found').2.2
        obtain rfl := Option.some.inj (waiting.symm.trans waiting')
        exact disjoint id (keyed_of_addressee? found) (keyed_of_addressee? found')
      exact ⟨c.handOver_comm apart response response', rfl, rfl⟩

/-- That a frame has come in is noted beside, and makes no difference to what is made of it. -/
theorem take_heard (c : Connection) (reader : Reader) (content : List UInt8) :
    ({ c with reader := reader } : Connection).take content =
      ({ (c.take content).1 with reader := reader }, (c.take content).2) := by
  rw [take_eq, take_eq c]
  cases addressee? c.registry content with
  | none => rfl
  | some addressee => rfl

/-- A message with content is taken whole, and counts as a sign of life. -/
theorem receive_of_content? {inbound : Inbound} (carries : inbound.content? = some content)
    (c : Connection) (now : Nat) : c.receive now inbound =
      ({ (c.take content).1 with reader := .listening now }, (c.take content).2) := by
  rw [← take_heard]
  cases inbound with
  | text _ =>
    obtain rfl := Option.some.inj carries
    rfl
  | binary _ =>
    obtain rfl := Option.some.inj carries
    rfl
  | _ => cases carries

/-- In every state of a run and for whatever bytes: if nobody waits under a key of them they are passed
over, and the connection stays as it is; otherwise they hold a response, which is handed over as a whole
to the party under the first of its keys that is held, and nothing else changes. No connection is lost by
it, and none is told to be. A listening reader makes just that of each text and binary frame, and notes
when it came in. Frames that share no key can be taken in either order. -/
theorem frames_are_taken_whole {slot generation began now : Nat} {options : Options}
    {moments : List Moment} {c : Connection}
    (run : Run (Connection.opened slot generation options began) began moments now c) :
    (∀ content,
      (((∀ id, Keyed content id → c.registry.find? id = none) ∧ c.take content = (c, [])) ∨
        ∃ response id p, Response.parse content = .ok response ∧
          HandsOver c response id p (c.take content).1 (c.take content).2) ∧
      (c.take content).1.connected = c.connected ∧
      (∀ notice, Event.lost notice ∉ (c.take content).2) ∧
      ∀ inbound since later, inbound.content? = some content → c.reader = .listening since →
        c.step later (.receive inbound) =
          some ({ (c.take content).1 with reader := .listening later }, (c.take content).2)) ∧
    ∀ content content', (∀ id, Keyed content id → ¬ Keyed content' id) →
      ((c.take content).1.take content').1 = ((c.take content').1.take content).1 ∧
        ((c.take content).1.take content').2 = (c.take content').2 ∧
        ((c.take content').1.take content).2 = (c.take content).2 := by
  have coherent := Coherent.of_run run
  refine ⟨fun content => ?_, fun content content' => take_comm coherent⟩
  have handled := take_cases coherent content
  have quiet : (c.take content).1.connected = c.connected ∧
      ∀ notice, Event.lost notice ∉ (c.take content).2 := by
    rcases handled with ⟨_, passed⟩ | ⟨_, _, _, _, hands⟩
    · simp [passed]
    · rw [hands.rest, hands.told]
      simp
  refine ⟨handled, quiet.1, quiet.2, fun inbound since later carries listening => ?_⟩
  rw [step, listening]
  exact congrArg some (receive_of_content? carries c later)

/-- A frame that one party is waited for under its own ID, and another under the one it replies to. -/
def bothKeys : List UInt8 := "\x7b\"id\":\"a\",\"replyTo\":\"b\"\x7d".toUTF8.data.toList

/-- A frame for a third party. -/
def thirdKey : List UInt8 := "\x7b\"replyTo\":\"c\"\x7d".toUTF8.data.toList

/-- The first frame goes to the first party alone, and may as well come behind the frame for the third. -/
theorem handsOver_of_bothKeys : ∃ moments now c,
    Run (Connection.opened 0 0 .default 0) 0 moments now c ∧
      c.registry.entries = [(⟨"a"⟩, 0), (⟨"b"⟩, 1), (⟨"c"⟩, 2)] ∧
      (∃ response p, HandsOver c response ⟨"a"⟩ p (c.take bothKeys).1 (c.take bothKeys).2) ∧
      ((c.take bothKeys).1.take thirdKey).1 = ((c.take thirdKey).1.take bothKeys).1 := by
  have played : ((History.play step (Connection.opened 0 0 .default 0)
      [(0, .wait ⟨"a"⟩), (0, .wait ⟨"b"⟩), (0, .wait ⟨"c"⟩)]).map fun r => r.2.registry.entries) =
        some [(⟨"a"⟩, 0), (⟨"b"⟩, 1), (⟨"c"⟩, 2)] := by decide
  obtain ⟨⟨moments, c⟩, run, entries⟩ := Option.map_eq_some_iff.1 played
  have history := History.of_play run (show History.inOrder 0 _ = true by decide)
  obtain ⟨whole, either⟩ := frames_are_taken_whole history
  have both : (Response.parse bothKeys).toOption.map (fun r => (r.id, r.replyTo)) =
      some (some ⟨"a"⟩, some ⟨"b"⟩) := by decide
  have third : (Response.parse thirdKey).toOption.map (fun r => (r.id, r.replyTo)) =
      some (none, some ⟨"c"⟩) := by decide
  have first_held : c.registry.find? ⟨"a"⟩ = some 0 := by rw [Registry.find?, entries]; decide
  refine ⟨moments, _, c, history, entries, ?_, (either _ _ ?_).1⟩
  · rcases (whole bothKeys).1 with ⟨unheld, _⟩ | ⟨response, id, p, parsed, hands⟩
    · have free := unheld ⟨"a"⟩ ((keyed_iff_of_parse both).2 ⟨by decide, .inl rfl⟩)
      rw [first_held] at free
      cases free
    · have own : response.id = some ⟨"a"⟩ := by
        rw [parsed] at both
        exact (Prod.mk.inj (Option.some.inj both)).1
      obtain ⟨_, same | ⟨_, free⟩⟩ := hands.answers
      · obtain rfl := Option.some.inj (own.symm.trans same)
        exact ⟨response, p, hands⟩
      · rw [free _ own (by decide)] at first_held
        cases first_held
  · intro id keyed keyed'
    rw [keyed_iff_of_parse both] at keyed
    rw [keyed_iff_of_parse third] at keyed'
    obtain ⟨-, other | last⟩ := keyed'
    · cases other
    · obtain rfl := Option.some.inj last
      revert keyed
      decide

end Connection

end CallPool
