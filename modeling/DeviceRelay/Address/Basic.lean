import DeviceRelay.Json.Printer

/-!
# Socket addresses

A host address is four octets, or eight groups of sixteen bits. A socket address adds the number of
a socket, and for a host with groups the zone it is meant in.

* `SocketAddress.text`: the one text that is written for an address.
* `SocketAddress.isUnspecified`: whether the address stands for all addresses of a host.
-/

namespace DeviceRelay

/-- A host address of four octets. -/
structure Ipv4 where
  first : UInt8
  second : UInt8
  third : UInt8
  fourth : UInt8
  deriving DecidableEq, Repr

/-- A host address of eight groups. -/
structure Ipv6 where
  groups : List UInt16
  length_groups : groups.length = 8
  deriving DecidableEq, Repr

inductive SocketAddress where
  | v4 (host : Ipv4) (socket : UInt16)
  /-- Zone 0 is no zone. -/
  | v6 (host : Ipv6) (zone : UInt32) (socket : UInt16)
  deriving DecidableEq, Repr

def Ipv4.isUnspecified (a : Ipv4) : Bool := a = ⟨0, 0, 0, 0⟩

/-- The octets with points between them. -/
def Ipv4.text (a : Ipv4) : String :=
  s!"{a.first.toNat}.{a.second.toNat}.{a.third.toNat}.{a.fourth.toNat}"

namespace Ipv6

def isUnspecified (a : Ipv6) : Bool := a.groups.all (· = 0)

/-- The octets of an address that stands for one of four octets. -/
def mapped? (a : Ipv6) : Option Ipv4 :=
  match a.groups with
  | [0, 0, 0, 0, 0, 0xffff, x, y] =>
    some ⟨(x >>> 8).toUInt8, x.toUInt8, (y >>> 8).toUInt8, y.toUInt8⟩
  | _ => none

/-- The length of each run of zeros, at the place where it starts or goes on. -/
def zerosFrom : List UInt16 → List Nat
  | [] => []
  | g :: rest =>
    let after := zerosFrom rest
    (if g = 0 then after.headD 0 + 1 else 0) :: after

/-- The start and the length of the longest run of zeros, the first of equally long ones. -/
def longestZeros (groups : List UInt16) : Nat × Nat :=
  let runs := zerosFrom groups
  let most := runs.foldl max 0
  (runs.findIdx (· = most), most)

/-- Groups in hexadecimal, with colons between them. -/
def groupsText (groups : List UInt16) : String :=
  ":".intercalate (groups.map fun g => String.ofList (Nat.toDigits 16 g.toNat))

/-- Two or more zeros are left out once, where most of them are. -/
def text (a : Ipv6) : String :=
  match a.mapped? with
  | some v4 => "::ffff:" ++ v4.text
  | none =>
    let (start, count) := longestZeros a.groups
    if 1 < count then
      groupsText (a.groups.take start) ++ "::" ++ groupsText (a.groups.drop (start + count))
    else groupsText a.groups

end Ipv6

namespace SocketAddress

/-- The host alone. -/
def hostText : SocketAddress → String
  | v4 host _ => host.text
  | v6 host _ _ => host.text

def isUnspecified : SocketAddress → Bool
  | v4 host _ => host.isUnspecified
  | v6 host _ _ => host.isUnspecified

/-- A host with groups stands in brackets, with its zone if it has one. -/
def text : SocketAddress → String
  | v4 host socket => s!"{host.text}:{socket.toNat}"
  | v6 host zone socket =>
    let zoneText := if zone = 0 then "" else s!"%{zone.toNat}"
    "[" ++ host.text ++ zoneText ++ "]:" ++ toString socket.toNat

end SocketAddress

end DeviceRelay
