import CallPool.Client.Ask
import CallPool.Script.Naming

/-!
# What a script sends and sees

The server of a script sends frames in which tags stand for IDs. A call of a script ends with an
error or with something to show.
-/

set_option autoImplicit false

namespace CallPool.Script

/-- What the server sends. -/
inductive Push
  /-- A text frame in which tags stand for IDs. -/
  | text (content : String)
  /-- A binary frame of the bytes of such a text. -/
  | binaryText (content : String)
  | binary (content : List UInt8)
  | ping
  | pong
  | close

/-- What comes in when the server sends something. -/
def Push.inbound (names : Naming) : Push → Connection.Inbound
  | text content => .text (names.fill content)
  | binaryText content => .binary (names.fill content).toUTF8.data.toList
  | binary content => .binary content
  | ping => .ping
  | pong => .pong
  | close => .close

/-- What can be seen of something that ended well. -/
inductive Shown
  | nothing
  | text (s : String)
  | number (n : Nat)
  | flag (b : Bool)
  deriving DecidableEq

/-- How a call of a script ended. -/
abbrev Ending := Except Error Shown

/-- A document as it is shown. -/
def shownDoc (names : Naming) (d : Json.Doc) : Shown := .text (names.reveal (textOf d.text))

/-- How a party of a connection ended. -/
def endingOf (names : Naming) : Connection.Outcome → Ending
  | .ok (.reply r) => .ok (shownDoc names r.doc)
  | .ok .written => .ok .nothing
  | .error e => .error (names.revealError e)

/-- How a caller of a pool ended. -/
def endingOfPool (names : Naming) (ask : Option Client.Ask) (outcome : Pool.Outcome) : Ending :=
  match ask with
  | some ask =>
    match ask.conclude outcome with
    | .ok answer => .ok (answer.doc?.elim .nothing (shownDoc names))
    | .error e => .error (names.revealError e)
  | none =>
    match outcome with
    | .ok (.live n) => .ok (.number n)
    | .ok (.filled yes) => .ok (.flag yes)
    | .ok (.reply r) => .ok (shownDoc names r.doc)
    | .ok .done => .ok .nothing
    | .error e => .error (names.revealError e)

/-- The calls that ended, in the order of their tags. -/
def sortedByTag (done : List (String × Ending)) : List (String × Ending) :=
  done.mergeSort fun a b => a.1 ≤ b.1

end CallPool.Script
