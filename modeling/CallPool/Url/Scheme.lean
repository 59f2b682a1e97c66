import CallPool.Url.Domain

/-!
# Checking a URL

`scheme` gives the scheme of a text that is a URL by itself, in lower case, and says what is wrong
with one that is not. Blanks and controls around the text, and tabs and line ends anywhere in it, do
not count. The schemes of the web need a host, which may follow any number of slashes of either
kind; others have one only behind two slashes, and for them it is not looked at as a host name.

Scripts run with this reading of URLs. Nothing is proved of it: a builder takes whatever reading it is
given, and what is known of a builder is known for all of them.
-/

set_option autoImplicit false

namespace CallPool.Url

/-- How the schemes differ. -/
inductive SchemeKind
  | web
  | file
  | other
  deriving DecidableEq

/-- The kind of a scheme. -/
def SchemeKind.of (scheme : String) : SchemeKind :=
  if ["http", "https", "ws", "wss", "ftp"].contains scheme then .web
  else if scheme = "file" then .file
  else .other

/-- Whether a character is a blank or a control. -/
def isMargin (c : Char) : Bool := c.toNat ≤ 0x20

/-- The characters of a text that count. -/
def counting (s : String) : List Char :=
  let s := s.toList.dropWhile isMargin
  (s.reverse.dropWhile isMargin).reverse.filter fun c => c ≠ '\t' ∧ c ≠ '\n' ∧ c ≠ '\r'

/-- Whether a character may stand in a scheme. -/
def isSchemeChar (c : Char) : Bool := c.isAlphanum || c == '+' || c == '-' || c == '.'

/-- The scheme that a text starts with, in lower case, and what stands behind its colon. -/
def splitScheme (s : List Char) : Option (String × List Char) :=
  let front := s.takeWhile isSchemeChar
  match front, s.dropWhile isSchemeChar with
  | c :: _, ':' :: rest =>
    if c.isAlpha then some (String.ofList (front.map Char.toLower), rest) else none
  | _, _ => none

/-- Whether a character ends the part of a URL that names the host. -/
def endsAuthority (kind : SchemeKind) (c : Char) : Bool :=
  c == '/' || c == '?' || c == '#' || (c == '\\' && kind != .other)

/-- What stands behind the last `@` of an authority, and whether a name or a password stands in
front of it. -/
def splitUser (authority : List Char) : Bool × List Char :=
  let host := (authority.reverse.takeWhile (· ≠ '@')).reverse
  let user := (authority.take (authority.length - host.length)).dropLast
  (!user.isEmpty && user ≠ [':'], host)

/-- A host and what stands behind it: a colon ends it, except inside square brackets. -/
def splitHost : Bool → List Char → List Char × List Char
  | _, [] => ([], [])
  | bracketed, c :: rest =>
    if c = ':' ∧ !bracketed then ([], c :: rest)
    else
      let bracketed := if c = '[' then true else if c = ']' then false else bracketed
      let (host, rest) := splitHost bracketed rest
      (c :: host, rest)

/-- Whether a character must not stand in a host that is not a host name. -/
def isOpaqueForbidden (c : Char) : Bool :=
  c.toNat == 0 || ['\t', '\n', '\r', ' ', '#', '/', ':', '<', '>', '?', '@', '[', '\\', ']', '^',
    '|'].contains c

/-- The characters between square brackets. -/
def bracketed (host : List Char) : Except Fault Unit :=
  match host.drop 1, host.getLast? with
  | inner, some ']' => if isIpv6 inner.dropLast then .ok () else .error .ipv6Invalid
  | _, _ => .error .ipv6Invalid

/-- Checks a host name or an address. -/
def checkHost (host : List Char) : Except Fault Unit :=
  if host.head? = some '[' then bracketed host
  else
    match domain? (String.ofList host).toUTF8.data.toList with
    | none => .error .domainNameInvalid
    | some name =>
      if name.isEmpty then .error .emptyHost
      else if endsInNumber name && !isIpv4 name then .error .ipv4Invalid
      else .ok ()

/-- Checks a host that is not a host name. -/
def checkOpaqueHost (host : List Char) : Except Fault Unit :=
  if host.head? = some '[' then bracketed host
  else if host.any isOpaqueForbidden then .error .domainCharacterInvalid
  else .ok ()

/-- Checks what stands behind a host: nothing, or a colon and a port. -/
def checkPort (s : List Char) : Except Fault Unit :=
  match s with
  | [] => .ok ()
  | _ :: ds =>
    match digitsValue? 10 ds with
    | some n => if n ≤ 65535 then .ok () else .error .portInvalid
    | none => .error .portInvalid

/-- Checks what names the host, behind the slashes. -/
def checkAuthority (kind : SchemeKind) (s : List Char) : Except Fault Unit := do
  let authority := s.takeWhile fun c => !endsAuthority kind c
  let closed := authority.length < s.length
  let (named, behind) := splitUser authority
  if authority.head? = some '@' ∧ behind.isEmpty ∧ authority.length = 1 ∧ closed then
    .error .emptyHost
  else
    let (host, port) := splitHost false behind
    if host.isEmpty ∧ (kind = .web ∨ !port.isEmpty ∨ named) then .error .emptyHost
    else
      if kind = .web then checkHost host else checkOpaqueHost host
      -- A backslash ends a port also where it does not end a host.
      checkPort (port.takeWhile (· ≠ '\\'))

/-- Whether a text is a drive letter. -/
def isDrive : List Char → Bool
  | [c, d] => c.isAlpha && (d == ':' || d == '|')
  | _ => false

/-- Whether a character is a slash of either kind. -/
def isSlash (c : Char) : Bool := c == '/' || c == '\\'

/-- Checks what stands behind the scheme of a file: two slashes and a host, or a path. -/
def checkFile (s : List Char) : Except Fault Unit :=
  match s with
  | a :: b :: rest =>
    if isSlash a && isSlash b then
      let host := rest.takeWhile fun c => !endsAuthority .file c
      if host.isEmpty || isDrive host then .ok () else checkHost host
    else .ok ()
  | _ => .ok ()

/-- The scheme of a URL. -/
def scheme (text : String) : Except Fault String :=
  match splitScheme (counting text) with
  | none => .error .relative
  | some (name, rest) => do
    match SchemeKind.of name with
    | .web => checkAuthority .web (rest.dropWhile isSlash)
    | .file => checkFile rest
    | .other =>
      match rest with
      | '/' :: '/' :: rest => checkAuthority .other rest
      | _ => .ok ()
    .ok name

end CallPool.Url
