import CallPool.Json.Record
import CallPool.Json.Writing

/-!
# Payloads

The records that requests and replies carry. Each has a `Record`, by which it is read from a text
or from a value, and a `doc`, as which it is written, with its fields in the same order. Fields
that may be absent and are so are not written.
-/

set_option autoImplicit false

namespace CallPool

open Json (Reader Record Field Doc Members)

/-- A number as a document: `null` if it has no finite value. -/
def floatDoc (x : Binary64) : Doc := Doc.ofNumber (.float x)

/-- The member for a field that may be absent. -/
def optionalMember {α : Type} (key : String) (write : α → Doc) : Option α → List (String × Doc)
  | none => []
  | some a => [(key, write a)]

/-- Members of free form as a document. -/
def membersDoc (ms : Members) : Doc := Doc.ofValue (.object ms)

/-- A request for an amount of something. -/
structure AllocationRequest where
  aliasName : String
  amount : Binary64
  metadata : Option Members

namespace AllocationRequest

/-- How a request for an allocation is read. -/
def record : Record AllocationRequest where
  name := "AllocationRequest"
  fields := [
    Field.of "alias" true Reader.text fun x a => { a with aliasName := x },
    Field.of "amount" true Reader.float fun x a => { a with amount := x },
    Field.of "metadata" false Reader.members.optional fun x a => { a with metadata := x }]
  blank := ⟨"", Binary64.zero false, none⟩

/-- What a request for an allocation is written as. -/
def doc (r : AllocationRequest) : Doc :=
  Doc.ofMembers ([("alias", Doc.ofString r.aliasName), ("amount", floatDoc r.amount)] ++
    optionalMember "metadata" membersDoc r.metadata)

end AllocationRequest

/-- A report that an allocation is used. -/
structure UseAllocationRequest where
  aliasName : String
  amount : Binary64
  allocationId : String
  metadata : Option Members

namespace UseAllocationRequest

/-- How a report of use is read. -/
def record : Record UseAllocationRequest where
  name := "UseAllocationRequest"
  fields := [
    Field.of "alias" true Reader.text fun x a => { a with aliasName := x },
    Field.of "amount" true Reader.float fun x a => { a with amount := x },
    Field.of "allocationId" true Reader.text fun x a => { a with allocationId := x },
    Field.of "metadata" false Reader.members.optional fun x a => { a with metadata := x }]
  blank := ⟨"", Binary64.zero false, "", none⟩

/-- What a report of use is written as. -/
def doc (r : UseAllocationRequest) : Doc :=
  Doc.ofMembers ([("alias", Doc.ofString r.aliasName), ("amount", floatDoc r.amount),
    ("allocationId", Doc.ofString r.allocationId)] ++
    optionalMember "metadata" membersDoc r.metadata)

end UseAllocationRequest

/-- The reply to a request for an allocation. -/
structure AllocationResponse where
  allocationId : String
  deriving DecidableEq

namespace AllocationResponse

/-- How the reply to a request for an allocation is read. -/
def record : Record AllocationResponse where
  name := "AllocationResponse"
  fields := [Field.of "allocationId" true Reader.text fun x a => { a with allocationId := x }]
  blank := ⟨""⟩

/-- What the reply to a request for an allocation is written as. -/
def doc (r : AllocationResponse) : Doc :=
  Doc.ofMembers [("allocationId", Doc.ofString r.allocationId)]

end AllocationResponse

end CallPool
