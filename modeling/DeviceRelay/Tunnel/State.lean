import DeviceRelay.Json.Typed

/-!
# States of a tunnel connection

One attempt passes through its states in order: `disconnected`, `dialing`, `connected`,
`registered`. A state is greater than each state that it can follow within one attempt.
-/

namespace DeviceRelay

inductive ConnectionState where
  | disconnected
  | dialing
  | connected
  | registered
  deriving DecidableEq, Repr, Inhabited

namespace ConnectionState

/-- The place of a state in an attempt. -/
def rank : ConnectionState → Nat
  | .disconnected => 0
  | .dialing => 1
  | .connected => 2
  | .registered => 3

instance : LE ConnectionState := ⟨fun a b => a.rank ≤ b.rank⟩

instance (a b : ConnectionState) : Decidable (a ≤ b) :=
  inferInstanceAs (Decidable (a.rank ≤ b.rank))

/-- The transport is up, whether or not the broker has confirmed the registration. -/
def isConnected (s : ConnectionState) : Bool := connected ≤ s

def name : ConnectionState → String
  | .disconnected => "disconnected"
  | .dialing => "dialing"
  | .connected => "connected"
  | .registered => "registered"

def all : List ConnectionState := [.disconnected, .dialing, .connected, .registered]

def ofName? (name : String) : Option ConnectionState := all.find? fun s => s.name = name

/-- The state that a JSON text holds. -/
def parse (text : String) : Except Json.ReadError ConnectionState :=
  (Json.readWhole (Json.readVariant (all.map name)) text).map fun n => (ofName? n).getD default

end ConnectionState

end DeviceRelay
