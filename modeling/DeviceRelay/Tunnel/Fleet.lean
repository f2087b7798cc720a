import DeviceRelay.Tunnel.Gate
import DeviceRelay.Tunnel.Step

/-!
# Tunnels that share a gate

The tunnels of a device dial through one gate. A worker that goes to the gate asks for a permit,
and gives it back, or its place in line, when its phase no longer wants one, whichever way it got
there.

* `Fleet.step`: one event of one tunnel, with what it means for the gate.
* `Fleet.held`: the permits that workers hold.
-/

namespace DeviceRelay

structure Fleet where
  gate : DialGate
  tunnels : List Tunnel
  deriving DecidableEq, Repr

/-- Whether the tunnel's worker waits for a permit or holds one. -/
def Tunnel.wantsPermit (t : Tunnel) : Bool := t.worker.any (·.phase.wantsPermit)

/-- Whether the tunnel's worker has passed the gate with a permit and still holds it. -/
def Tunnel.holdsPermit (t : Tunnel) : Bool :=
  t.worker.any fun w =>
    match w.phase with
    | .queueing _ => false
    | phase => phase.wantsPermit

namespace Fleet

/-- The tunnels that hold a permit. -/
def held (f : Fleet) : Nat := f.tunnels.countP Tunnel.holdsPermit

/-- What a tunnel's step means for the gate. -/
def syncGate (gate : DialGate) (index : Nat) (before after : Tunnel) (now : Duration) : DialGate :=
  match before.wantsPermit, after.wantsPermit with
  | false, true => gate.request index now
  | true, false => gate.leave index
  | _, _ => gate

/-- Whether the gate lets an event happen: a worker passes it with a permit that it was given, or
without one when its wait is over. -/
def admits (gate : DialGate) (index : Nat) (now : Duration) : TunnelEvent → Bool
  | .worker (.passed true) => gate.holds index
  | .worker (.passed false) => (gate.waitsUntil index).any fun giveUpAt => giveUpAt ≤ now
  | _ => true

/-- One event of the tunnel at an index. -/
def step (f : Fleet) (index : Nat) (now : Duration) (e : TunnelEvent) :
    Option (Fleet × List TunnelEffect) :=
  match f.tunnels[index]? with
  | none => none
  | some t =>
    if admits f.gate index now e then
      (t.step now e).map fun (after, seen) =>
        (⟨syncGate f.gate index t after now, f.tunnels.set index after⟩, seen)
    else none

/-- The fleet after a list of events. -/
def run (f : Fleet) : List (Nat × Duration × TunnelEvent) → Option (Fleet × List TunnelEffect)
  | [] => some (f, [])
  | (index, now, e) :: events => do
    let (f, seen) ← f.step index now e
    let (f, more) ← f.run events
    some (f, seen ++ more)

end Fleet

end DeviceRelay
