import DeviceRelay.Text.Utf8

/-!
# Addresses that can be dialed

An address is a scheme, an authority that names a host, a path, a query and a fragment. Only the
shape is checked here: which bytes may stand where, and that there is a host. An address without a
scheme is an authority alone.

* `Uri.isDialable`: whether a text is an address with a host.
* `Uri.afterAuthority?`: what follows a well-formed authority.
-/

namespace DeviceRelay.Uri

/-- Letters, digits. -/
def isAlphanumeric (b : UInt8) : Bool :=
  (0x30 ≤ b && b ≤ 0x39) || (0x41 ≤ b && b ≤ 0x5a) || (0x61 ≤ b && b ≤ 0x7a)

/-- Whether a byte is one of some ASCII characters. -/
def isOneOf (chars : String) (b : UInt8) : Bool := chars.toList.any fun c => c.toNat = b.toNat

def isSchemeByte (b : UInt8) : Bool := isAlphanumeric b || isOneOf "+-.~" b

/-- The bytes of an authority, those with a meaning of their own included. -/
def isAuthorityByte (b : UInt8) : Bool := isAlphanumeric b || isOneOf "!$&'()*+,-.:;=@[]_~" b

/-- An authority ends where the path, the query or the fragment starts. -/
def endsAuthority (b : UInt8) : Bool := isOneOf "/?#" b

/-- The bytes of a path: most of them need no escape, even where a strict reading asks for one. -/
def isPathByte (b : UInt8) : Bool :=
  b = 0x21 || (0x24 ≤ b && b ≤ 0x3b) || b = 0x3d || (0x40 ≤ b && b ≤ 0x5f) ||
    (0x61 ≤ b && b ≤ 0x7a) || b = 0x7c || 0x7e ≤ b || isOneOf "\"\x7b\x7d" b

def isQueryByte (b : UInt8) : Bool :=
  b = 0x21 || (0x24 ≤ b && b ≤ 0x3b) || b = 0x3d || 0x3f ≤ b

/-! ## The authority -/

/-- What an authority has shown so far. Colons and percent signs count from the last at sign or
closing bracket on, since those before belong to the user or to a bracketed host. -/
structure AuthorityScan where
  colons : Nat
  opened : Bool
  closed : Bool
  percent : Bool
  /-- The last byte is an at sign. -/
  afterAt : Bool
  deriving DecidableEq, Repr

namespace AuthorityScan

def start : AuthorityScan := ⟨0, false, false, false, false⟩

/-- The most colons in a row of groups: those of a bracketed host. -/
def maxColons : Nat := 8

/-- One more byte, none where it cannot stand there. -/
def take (s : AuthorityScan) (b : UInt8) : Option AuthorityScan :=
  let s := { s with afterAt := isOneOf "@" b }
  if isOneOf ":" b then
    if maxColons ≤ s.colons then none else some { s with colons := s.colons + 1 }
  else if isOneOf "[" b then
    if s.percent || s.opened then none else some { s with opened := true }
  else if isOneOf "]" b then
    if !s.opened || s.closed then none
    else some { s with closed := true, colons := 0, percent := false }
  else if s.afterAt then some { s with colons := 0, percent := false }
  else if isOneOf "%" b then some { s with percent := true }
  else if isAuthorityByte b then some s
  else none

/-- Whether an authority may end here: brackets are paired, at most one colon precedes a socket
number, the host has no escapes, and the user is followed by a host. -/
def mayEnd (s : AuthorityScan) : Bool :=
  s.opened == s.closed && s.colons ≤ 1 && !s.percent && !s.afterAt

end AuthorityScan

/-- What follows the authority at the front of some bytes, none where it is malformed. -/
def afterAuthority? (s : AuthorityScan) : List UInt8 → Option (List UInt8)
  | [] => if s.mayEnd then some [] else none
  | b :: rest =>
    if endsAuthority b then if s.mayEnd then some (b :: rest) else none
    else (s.take b).bind fun s => afterAuthority? s rest

/-! ## The whole address -/

/-- The number of bytes of the longest address. -/
def maxLength : Nat := 65534

/-- The number of bytes of the longest scheme. -/
def maxSchemeLength : Nat := 64

/-- The length of the scheme before `://`, which may be empty. -/
def schemeLength? (bytes : List UInt8) : Option Nat :=
  let scheme := bytes.takeWhile isSchemeByte
  if bytes.length ≤ 3 then none
  else if "://".toList.map (fun c => UInt8.ofNat c.toNat) |>.isPrefixOf (bytes.drop scheme.length)
  then some scheme.length
  else none

/-- Whether the bytes after an authority are a path, a query and a fragment. -/
def isTail (bytes : List UInt8) : Bool :=
  let (path, rest) := bytes.span fun b => !isOneOf "?#" b
  let query :=
    match rest with
    | b :: rest => if isOneOf "?" b then rest.takeWhile fun b => !isOneOf "#" b else []
    | [] => []
  path.all isPathByte && query.all isQueryByte

/-- Whether the bytes start with an authority that names a host. -/
def namesHost (bytes : List UInt8) : Bool := bytes.head?.any fun b => !endsAuthority b

/-- Whether a text is an address that names a host. The asterisk alone names none. -/
def isDialable (uri : String) : Bool :=
  let bytes := Text.bytes uri
  if maxLength < bytes.length ∨ uri = "*" then false
  else
    match schemeLength? bytes with
    | some n =>
      let rest := bytes.drop (n + 3)
      n ≤ maxSchemeLength && namesHost rest && (afterAuthority? .start rest).any isTail
    | none => namesHost bytes && (afterAuthority? .start bytes).any List.isEmpty

/-- Whether a text may stand in a header: no control character but the tab. -/
def isHeaderText (s : String) : Bool :=
  (Text.bytes s).all fun b => (32 ≤ b && b ≠ 127) || b = 9

end DeviceRelay.Uri
