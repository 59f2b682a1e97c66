import CallPool.Json.Numeral
import CallPool.Json.StringText

/-!
# Writing values

A value is written without blanks, as the document `Doc.ofValue v`. Numbers without a finite value
are written `null`.
-/

set_option autoImplicit false

namespace CallPool.Json

/-- A list without blanks. -/
def Doc.ofItems (ds : List Doc) : Doc := .list (ds.map fun d => ⟨[], d, []⟩) (.closed [])

/-- An object without blanks. -/
def Doc.ofMembers (ms : List (String × Doc)) : Doc :=
  .object (ms.map fun m => ⟨[], Quoted.ofString m.1, [], [], m.2, []⟩) (.closed [])

/-- A text as a document. -/
def Doc.ofString (s : String) : Doc := .string (Quoted.ofString s)

/-- A number as a document. -/
def Doc.ofNumber (n : Number) : Doc :=
  match Numeral.ofNumber? n with
  | some t => .number t
  | none => .literal .null

mutual

/-- The document that a value is written as. -/
def Doc.ofValue : Value → Doc
  | .null => .literal .null
  | .bool b => .literal (if b then .yes else .no)
  | .number n => Doc.ofNumber n
  | .string s => Doc.ofString s
  | .list items => .list (itemsOfValues items) (.closed [])
  | .object members => .object (membersOfValues members) (.closed [])

/-- The elements that values are written as. -/
def itemsOfValues : List Value → List (Item Doc)
  | [] => []
  | v :: rest => ⟨[], Doc.ofValue v, []⟩ :: itemsOfValues rest

/-- The members that members are written as. -/
def membersOfValues : List (String × Value) → List (Member Doc)
  | [] => []
  | (k, v) :: rest =>
    ⟨[], Quoted.ofString k, [], [], Doc.ofValue v, []⟩ :: membersOfValues rest

end

/-- The text that a value is written as. -/
def Value.text (v : Value) : List UInt8 := (Doc.ofValue v).text

end CallPool.Json
