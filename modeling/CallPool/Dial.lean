import CallPool.Options

/-!
# Preparing a dial

A dial starts with a request that is made from the endpoint, the name of the credential's header
and the credential. `Options.dialFault?` gives the first of them that no request can be made of. An
endpoint is read here as the target of an HTTP request, which is stricter than the reading as a URL
in some respects and laxer in others: it may be a bare authority, and its bytes are checked one by
one. Scripts decide so; what is proved of pools holds whatever options no request can be made of.
-/

set_option autoImplicit false

namespace CallPool

namespace Endpoint

/-- The byte of an ASCII character. -/
def byte (c : Char) : UInt8 := UInt8.ofNat c.toNat

/-- Whether a byte is an ASCII letter or digit. -/
def isAlphanumeric (b : UInt8) : Bool :=
  byte 'a' ≤ b && b ≤ byte 'z' || byte 'A' ≤ b && b ≤ byte 'Z' || byte '0' ≤ b && b ≤ byte '9'

/-- Whether a byte is one of some ASCII characters. -/
def isOneOf (chars : String) (b : UInt8) : Bool := chars.toList.any fun c => byte c == b

/-- Whether a byte may stand in a scheme. -/
def isSchemeByte (b : UInt8) : Bool := isAlphanumeric b || isOneOf "+-." b

/-- Whether a byte may stand in an authority by itself. -/
def isAuthorityByte (b : UInt8) : Bool := isAlphanumeric b || isOneOf "!$&'()*+,-.;=_~" b

/-- Whether a byte ends an authority. -/
def endsAuthority (b : UInt8) : Bool := isOneOf "/?#" b

/-- What an authority has shown so far. -/
structure Authority where
  colons : Nat := 0
  opened : Bool := false
  closed : Bool := false
  percent : Bool := false

/-- Looks at the next byte of an authority. Colons and percent signs in front of `@` or within
brackets are forgotten behind them. -/
def Authority.next (a : Authority) (b : UInt8) : Except EndpointFault Authority :=
  if b = byte ':' then
    if 8 ≤ a.colons then .error .authorityInvalid else .ok { a with colons := a.colons + 1 }
  else if b = byte '[' then
    if a.percent || a.opened then .error .authorityInvalid else .ok { a with opened := true }
  else if b = byte ']' then
    if !a.opened || a.closed then .error .authorityInvalid
    else .ok { a with closed := true, colons := 0, percent := false }
  else if b = byte '@' then .ok { a with colons := 0, percent := false }
  else if b = byte '%' then .ok { a with percent := true }
  else if isAuthorityByte b then .ok a
  else .error .characterInvalid

/-- Checks an authority. -/
def checkAuthority (s : List UInt8) : Except EndpointFault Unit := do
  let a ← s.foldlM Authority.next {}
  if a.opened != a.closed || 1 < a.colons || s.getLast? == some (byte '@') || a.percent then
    .error .authorityInvalid

/-- Whether a byte may stand in a path. -/
def isPathByte (b : UInt8) : Bool :=
  0x21 ≤ b && !isOneOf "#<>?\u0060" b

/-- Whether a byte may stand in a query. -/
def isQueryByte (b : UInt8) : Bool := 0x21 ≤ b && !isOneOf "\"#<>" b

/-- Checks what stands behind an authority: a path, and a query behind the first `?`. What stands
behind `#` is not looked at. -/
def checkPath (s : List UInt8) : Except EndpointFault Unit :=
  let shown := s.takeWhile (· ≠ byte '#')
  let path := shown.takeWhile (· ≠ byte '?')
  let query := (shown.drop path.length).drop 1
  if path.all isPathByte && query.all isQueryByte then .ok () else .error .characterInvalid

/-- What stands behind the scheme of an endpoint, if it has one. -/
def behindScheme? (s : List UInt8) : Except EndpointFault (Option (List UInt8)) :=
  let front := s.takeWhile isSchemeByte
  match s.drop front.length with
  | a :: b :: c :: rest =>
    if 3 < s.length ∧ [a, b, c] = [byte ':', byte '/', byte '/'] then
      if 64 < front.length then .error .schemeTooLong else .ok (some rest)
    else .ok none
  | _ => .ok none

/-- Checks an endpoint of more than one byte that does not start with a slash. -/
def checkAbsolute (s : List UInt8) : Except EndpointFault Unit := do
  match ← behindScheme? s with
  | none =>
    let authority := s.takeWhile (!endsAuthority ·)
    checkAuthority authority
    if authority.length ≠ s.length then .error .formatInvalid
  | some rest =>
    let authority := rest.takeWhile (!endsAuthority ·)
    checkAuthority authority
    if authority.isEmpty then .error .formatInvalid
    checkPath (rest.drop authority.length)

/-- Checks an endpoint: it has to name a host. -/
def check (s : List UInt8) : Except EndpointFault Unit := do
  if 65534 < s.length then .error .tooLong
  match s with
  | [] => .error .emptyText
  | [b] =>
    if b = byte '/' ∨ b = byte '*' then .error .noHost
    else if endsAuthority b then .error .characterInvalid
    else checkAuthority [b]
  | b :: _ =>
    if b = byte '/' then
      checkPath s
      .error .noHost
    else checkAbsolute s

end Endpoint

/-- Whether a text can be the name of a header. -/
def isHeaderName (s : String) : Bool :=
  let bytes := s.toUTF8.data.toList
  !bytes.isEmpty && bytes.length ≤ 65535 && bytes.all fun b =>
    Endpoint.isAlphanumeric b || Endpoint.isOneOf "!#$%&'*+-.^_\u0060|~" b

/-- Whether a text can be the value of a header: it holds no control character but tabs. -/
def isHeaderValue (s : String) : Bool :=
  s.toUTF8.data.toList.all fun b => 0x20 ≤ b && b != 0x7F || b == 0x09

/-- Whether a credential is sent. One with characters beyond ASCII is found out when the request
is written, which is after the server was reached. -/
def isSendable (s : String) : Bool := s.toList.all fun c => c.toNat < 0x80

/-- What keeps a dial from being begun, if anything does. -/
def Options.dialFault? (o : Options) : Option DialFault :=
  match Endpoint.check o.endpoint.toUTF8.data.toList with
  | .error fault => some (.endpointInvalid fault)
  | .ok () =>
    if !isHeaderName o.authHeader then some .headerNameInvalid
    else if !isHeaderValue o.apiKey then some .credentialInvalid
    else none

/-- A character that the server passes over at the ends of a credential. -/
def isCredentialMargin (c : Char) : Bool := c == ' ' || c == '\t'

/-- A credential as the server reads it: without blanks around it. -/
def credentialText (s : String) : String :=
  let front := s.toList.dropWhile isCredentialMargin
  String.ofList (front.reverse.dropWhile isCredentialMargin).reverse

end CallPool
