import CallPool.Message.Payload

/-!
# Commands

A command is written as an object with its kind under `type` and what it carries under `payload`.
It is read from such an object with its members in any order and with other members too, or from a
list of the two.

Where the kind comes first, the payload is read as what it carries. Where the payload comes first
it is read as any value, and then taken from that value: everything in it must then be a valid
value, also in members that the payload does not have, and a payload that does not fit is reported
behind the kind.
-/

set_option autoImplicit false

namespace CallPool

open Json (Place Doc Item Member Value Fault Mismatch Expected ListEnd ObjectEnd Quoted Reader)

/-- What the other side is asked to do. -/
inductive Command
  | echo (payload : Value)
  | requestForAllocation (request : AllocationRequest)
  | useAllocation (request : UseAllocationRequest)
  | getApplicationPolicies
  | ping

namespace Command

/-- The kinds of command. -/
inductive Kind
  | echo
  | requestForAllocation
  | useAllocation
  | getApplicationPolicies
  | ping
  deriving DecidableEq

namespace Kind

/-- The kinds in the order in which messages list them. -/
def all : List Kind := [echo, requestForAllocation, useAllocation, getApplicationPolicies, ping]

/-- The name of a kind in a frame. -/
def name : Kind → String
  | echo => "echo"
  | requestForAllocation => "request_for_allocation"
  | useAllocation => "use_allocation"
  | getApplicationPolicies => "get_application_policies"
  | ping => "ping"

/-- The kind of this name, if there is one. -/
def ofName (name : String) : Except Mismatch Kind :=
  match all.find? fun k => k.name == name with
  | some k => .ok k
  | none => .error (.unknownVariant name (all.map Kind.name))

/-- The command of a kind that carries nothing, with what it is called where it does not fit. -/
def bare? : Kind → Option (Command × Expected)
  | getApplicationPolicies =>
    some (.getApplicationPolicies, .unitVariant "Command::GetApplicationPolicies")
  | ping => some (.ping, .unitVariant "Command::Ping")
  | _ => none

end Kind

/-- The kind of a command. -/
def kind : Command → Kind
  | echo _ => .echo
  | requestForAllocation _ => .requestForAllocation
  | useAllocation _ => .useAllocation
  | getApplicationPolicies => .getApplicationPolicies
  | ping => .ping

/-- The type of the frame that a command is sent in. -/
def messageType (c : Command) : String := c.kind.name

/-- What a command carries, as a document. -/
def payloadDoc? : Command → Option Doc
  | echo payload => some (Doc.ofValue payload)
  | requestForAllocation request => some request.doc
  | useAllocation request => some request.doc
  | getApplicationPolicies => none
  | ping => none

/-- The members that a command is written as. -/
def members (c : Command) : List (String × Doc) :=
  ("type", Doc.ofString c.messageType) :: optionalMember "payload" id c.payloadDoc?

/-- What a command is written as. -/
def doc (c : Command) : Doc := Doc.ofMembers c.members

/-- What is wrong with a list or an object where a command carries nothing: it is opened, and given
up. -/
def misfitOpened (p : Place) (d : Doc) (expected : Expected) : Fault :=
  match d, p.inside with
  | .list _ _, .ok q => ⟨.shape (.wrongType .sequence expected), .leavingList q.offset⟩
  | .object _ _, .ok q => ⟨.shape (.wrongType .map expected), .leavingObject q.offset⟩
  | .list _ _, .error f => f
  | .object _ _, .error f => f
  | d, _ => d.misfit p expected

/-- Reads the payload of a command of this kind. -/
def payloadOfDoc (k : Kind) (p : Place) (d : Doc) : Except Fault Command :=
  match k with
  | .echo => (Reader.any.ofDoc p d).map echo
  | .requestForAllocation => (AllocationRequest.record.reader.ofDoc p d).map requestForAllocation
  | .useAllocation => (UseAllocationRequest.record.reader.ofDoc p d).map useAllocation
  | .getApplicationPolicies | .ping =>
    match d, k.bare? with
    | .literal .null, some (c, _) => .ok c
    | d, some (_, expected) => .error (misfitOpened p d expected)
    | d, none => .error (d.misfit p .unit)

/-- Takes the payload of a command of this kind from a value. -/
def payloadOfValue (k : Kind) (v : Value) : Except Mismatch Command :=
  match k with
  | .echo => (Reader.any.ofValue .exactly v).map echo
  | .requestForAllocation =>
    (AllocationRequest.record.reader.ofValue .exactly v).map requestForAllocation
  | .useAllocation => (UseAllocationRequest.record.reader.ofValue .exactly v).map useAllocation
  | .getApplicationPolicies | .ping =>
    match v, k.bare? with
    | .null, some (c, _) => .ok c
    | v, some (_, expected) => .error (v.misfit expected)
    | v, none => .error (v.misfit .unit)

/-- The kind of this name, which ends at this place. -/
def kindNamed (name : String) (place : Nat) : Except Fault Kind :=
  (Kind.ofName name).mapError fun m => ⟨.shape m, .at place⟩

/-- The kind that an object stands for under `type`: the key of its only member, whose value is
`null`. -/
def kindOfMembers (p : Place) (ms : List (Member Doc)) (close : ObjectEnd) :
    Except Fault Kind :=
  match ms, close with
  | [], .closed blanks => .error ⟨.spelling .valueExpected, .at (p.offset + blanks.length + 1)⟩
  | [], .broken b =>
    .error ⟨.spelling (if b.next.isNone then .endInValue else .valueExpected), .at b.place⟩
  | [], .brokenKey blanks key stop b =>
    .error (Quoted.broken key (p.offset + blanks.length + 1) stop b)
  | m :: rest, close => do
    let name ← Quoted.string m.key (p.ofKey m)
    let k ← kindNamed name (p.offset + m.before.length + Quoted.width m.key)
    match m.value with
    | .literal .null =>
      let behind := (p.behindMember m).offset
      match rest, close with
      | [], .closed _ => .ok k
      | [], .broken b =>
        match b.next with
        | none => .error b.seen
        | some _ =>
          if b.fault = .commaOrObjectEndExpected then
            .error ⟨.spelling .valueExpected, .at (b.place - 1)⟩
          else .error ⟨.spelling .valueExpected, .at (behind - 1)⟩
      | _, _ => .error ⟨.spelling .valueExpected, .at (behind - 1)⟩
    | v => .error (v.misfit (p.ofMember m) .unit)

/-- Reads the kind of a command under `type`. Values other than text and objects are not
looked at. -/
def kindOfDoc (p : Place) (d : Doc) : Except Fault Kind :=
  match d with
  | .string s => do
    let name ← Quoted.string s (p.offset + 1)
    kindNamed name (p.offset + d.width)
  | .object ms close => do
    let q ← p.inside
    kindOfMembers q ms close
  | .missing b => .error b.seen
  | .brokenString s stop b => .error (Quoted.broken s (p.offset + 1) stop b)
  | _ => .error ⟨.spelling .valueExpected, .at (p.offset + 1)⟩

/-- How much of a command has been read from the members in front. -/
inductive Progress
  | nothing
  | kind (k : Kind)
  | payload (v : Value)
  | whole (c : Command)

/-- The members of a command that have been read. -/
def Progress.has : Progress → String → Bool
  | nothing, _ => false
  | kind _, key => key == "type"
  | payload _, key => key == "payload"
  | whole _, key => key == "type" || key == "payload"

/-- Reads one member of a command that has not been read yet. -/
def Progress.read (s : Progress) (key : String) (p : Place) (m : Member Doc) :
    Except Fault Progress :=
  if key == "type" then do
    let k ← kindOfDoc (p.ofMember m) m.value
    match s with
    | payload v =>
      match payloadOfValue k v with
      | .ok c => .ok (whole c)
      | .error e =>
        .error ⟨.shape e, .leavingObject ((p.ofMember m).offset + m.value.width)⟩
    | _ => .ok (kind k)
  else
    match s with
    | kind k => (payloadOfDoc k (p.ofMember m) m.value).map whole
    | _ => (m.value.value (p.ofMember m)).map payload

/-- Reads the members of an object as a command, the first of which starts at `p`. -/
def readMembers : Place → List (Member Doc) → Progress → Except Fault (Progress × Place)
  | p, [], s => .ok (s, p)
  | p, m :: rest, s => do
    let key ← Quoted.string m.key (p.ofKey m)
    if key == "type" || key == "payload" then
      if s.has key then
        .error ⟨.shape (.duplicateField key),
          .leavingObject (p.offset + m.before.length + Quoted.width m.key)⟩
      else do
        let s ← s.read key p m
        readMembers (p.behindMember m) rest s
    else do
      m.value.passOver
      readMembers (p.behindMember m) rest s

/-- The command, when no members are left. -/
def Progress.finish : Progress → Except Mismatch Command
  | nothing => .error (.missingField "type")
  | kind k =>
    match k.bare? with
    | some (c, _) => .ok c
    | none => .error (.missingField "payload")
  | payload _ => .error (.missingField "type")
  | whole c => .ok c

/-- What a command is called where something else stands. -/
def expected : Expected := .tagged "Command"

/-- Reads a command. -/
def ofDoc (p : Place) (d : Doc) : Except Fault Command :=
  match d with
  | .object ms close => do
    let q ← p.inside
    let (s, q) ← readMembers q ms .nothing
    close.seen q
    s.finish.mapError fun m => ⟨.shape m, .at (Json.Record.closing q (!ms.isEmpty) close)⟩
  | .list items close => do
    let q ← p.inside
    match items with
    | [] =>
      close.seen
      .error ⟨.shape (.wrongLength 0 expected), .leavingList q.offset⟩
    | i :: rest =>
      let k ← (match i.value with
        | .string s => do
          let name ← Quoted.string s ((q.ofItem i).offset + 1)
          kindNamed name ((q.ofItem i).offset + i.value.width)
        | v => .error (v.misfit (q.ofItem i) .variantName))
      let q := q.behindItem i
      match rest with
      | [] =>
        close.seen
        .error ⟨.shape (.wrongLength 1 expected), .at q.offset⟩
      | j :: rest =>
        let c ← payloadOfDoc k (q.ofItem j) j.value
        Json.Record.leftOver (q.behindItem j) rest close
        .ok c
  | d => .error (d.misfit p expected)

/-- Reads a command from a text. -/
def parse (text : List UInt8) : Except Json.Error Command := Json.readText ofDoc text

end Command

end CallPool
