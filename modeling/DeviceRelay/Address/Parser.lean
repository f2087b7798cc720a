import DeviceRelay.Address.Basic
import DeviceRelay.Text.Percent

/-!
# Reading socket addresses

The text of an address is a host and a socket number. Octets have no zeros in front; groups, zones
and socket numbers may. Two colons stand for at least one group of zeros, and the last two groups
may be written as octets.

* `SocketAddress.parse?`: the address that a text names.
-/

namespace DeviceRelay

namespace SocketAddress

/-- The text after a character that has to come first. -/
def expect (c : Char) : List Char → Option (List Char)
  | [] => none
  | d :: rest => if d = c then some rest else none

/-- The value of a digit in a base up to 16. -/
def digit? (base : Nat) (c : Char) : Option Nat :=
  if c.toNat < 128 then
    ((Text.hexValue? (UInt8.ofNat c.toNat)).map UInt8.toNat).filter (· < base)
  else none

/-- A number up to `most`, of at most `width` digits where a width is given. -/
def readNumber (base most : Nat) (width : Option Nat) (zerosInFront : Bool) (s : List Char) :
    Option (Nat × List Char) :=
  let isDigit (c : Char) : Bool := (digit? base c).isSome
  let digits := s.takeWhile isDigit
  let value := (digits.filterMap (digit? base)).foldl (fun n d => n * base + d) 0
  if digits.isEmpty || width.any (· < digits.length) || most < value
      || (!zerosInFront && 1 < digits.length && digits.head? = some '0') then none
  else some (value, s.dropWhile isDigit)

def readOctet (s : List Char) : Option (UInt8 × List Char) :=
  (readNumber 10 255 (some 3) false s).map fun (n, rest) => (UInt8.ofNat n, rest)

def readIpv4 (s : List Char) : Option (Ipv4 × List Char) := do
  let (a, s) ← readOctet s
  let (b, s) ← (expect '.' s).bind readOctet
  let (c, s) ← (expect '.' s).bind readOctet
  let (d, s) ← (expect '.' s).bind readOctet
  return (⟨a, b, c, d⟩, s)

/-- The two groups that an address of four octets makes. -/
def pairs (a : Ipv4) : List UInt16 :=
  [a.first.toUInt16 <<< 8 ||| a.second.toUInt16, a.third.toUInt16 <<< 8 ||| a.fourth.toUInt16]

/-- At most `room` groups with colons between them, whether they end in four octets, and the text
behind them. -/
def readGroups : (room : Nat) → (isFirst : Bool) → List Char → List UInt16 × Bool × List Char
  | 0, _, s => ([], false, s)
  | room + 1, isFirst, s =>
    let next := if isFirst then some s else expect ':' s
    match if room = 0 then none else next.bind readIpv4 with
    | some (a, rest) => (pairs a, true, rest)
    | none =>
      match next.bind (readNumber 16 0xffff (some 4) true) with
      | some (g, rest) =>
        let (groups, octets, rest) := readGroups room false rest
        (UInt16.ofNat g :: groups, octets, rest)
      | none => ([], false, s)

def ofGroups? (groups : List UInt16) : Option Ipv6 :=
  if h : groups.length = 8 then some ⟨groups, h⟩ else none

/-- Eight groups, or fewer around two colons. -/
def readIpv6 (s : List Char) : Option (Ipv6 × List Char) := do
  let (front, octets, s) := readGroups 8 true s
  if front.length = 8 then return (← ofGroups? front, s)
  if octets then failure
  let s ← (expect ':' s).bind (expect ':')
  let (back, _, s) := readGroups (7 - front.length) true s
  let zeros := List.replicate (8 - front.length - back.length) 0
  return (← ofGroups? (front ++ zeros ++ back), s)

def readSocket (s : List Char) : Option (UInt16 × List Char) :=
  ((expect ':' s).bind (readNumber 10 0xffff none true)).map fun (n, rest) => (UInt16.ofNat n, rest)

/-- A zone behind its sign; without one the zone is 0 and nothing is read. -/
def readZone (s : List Char) : UInt32 × List Char :=
  match (expect '%' s).bind (readNumber 10 0xffffffff none true) with
  | some (n, rest) => (UInt32.ofNat n, rest)
  | none => (0, s)

def readV4 (s : List Char) : Option (SocketAddress × List Char) := do
  let (host, s) ← readIpv4 s
  let (socket, s) ← readSocket s
  return (.v4 host socket, s)

def readV6 (s : List Char) : Option (SocketAddress × List Char) := do
  let (host, s) ← (expect '[' s).bind readIpv6
  let (zone, s) := readZone s
  let (socket, s) ← (expect ']' s).bind readSocket
  return (.v6 host zone socket, s)

/-- The address that a text names; nothing may follow it. -/
def parse? (text : String) : Option SocketAddress :=
  match readV4 text.toList <|> readV6 text.toList with
  | some (a, []) => some a
  | _ => none

end SocketAddress

end DeviceRelay
