import DeviceRelay.Json.Typed

/-!
# Client ids

A connected client has a 32-bit id. Clients of the local network count up from one; the largest id
stands for the caller at the far end of the cloud tunnel, so that one handler serves both.
-/

namespace DeviceRelay

structure ClientId where
  number : UInt32
  deriving DecidableEq, Repr

namespace ClientId

/-- The caller at the far end of the tunnel. -/
def tunnel : ClientId := ⟨UInt32.ofNat (UInt32.size - 1)⟩

def isTunnel (id : ClientId) : Bool := id = tunnel

def name (id : ClientId) : String :=
  if id.isTunnel then "tunnel" else s!"#{id.number.toNat}"

def toJson (id : ClientId) : Json := .ofNat id.number.toNat

/-- The id that a JSON text holds. -/
def parse (text : String) : Except Json.ReadError ClientId :=
  (Json.readWhole Json.readWord32 text).map ClientId.mk

end ClientId

end DeviceRelay
