import DeviceRelay.Outbound.Client

/-!
# How a client gets on by itself

Left alone, the tasks of a client take the steps that are due, in the order of the tasks, against a
network that answers every dial. Time passes from one due instant to the next.

* `OutboundClient.dueStep?`: the next step that is due at an instant.
* `OutboundClient.settle`: the client once nothing is due, with the events on the way.
* `ClientRun.advance`: the client at a later instant, with all events so far.
* `ClientRun.disconnect`: a disconnect from its start to its return.
-/

namespace DeviceRelay

/-- What a network answers to a dial of an address: a failure, or none where the dial connects. -/
abbrev Network := String → Option ClientError

/-- A network that nobody can be reached through. -/
def Network.unreachable : Network := fun _ => some (.transport "unreachable")

/-- The step that a task takes next, if it is not waiting for something else. -/
def NetworkTask.dueStep? (network : Network) (c : OutboundClient) (now : Duration)
    (t : NetworkTask) : Option OutboundClient.NetworkStep :=
  match t.phase with
  | .starting => some .start
  | .dialing =>
    if c.stopRequested then some .stopped
    else
      match network t.config.uri with
      | none => some .dialed
      | some e => some (.dialFailed e)
  | .inSession _ =>
    if c.stopRequested then some .stopped
    else if c.outbox.any fun q => !q.waiting.isEmpty then some .transmitted
    else none
  | .closing _ => some .saidGoodbye
  | .waiting wakeAt =>
    if c.stopRequested then some .stopped else if wakeAt ≤ now then some .woken else none

namespace OutboundClient

/-- The first task with a step that is due, and the step. -/
def dueStep? (network : Network) (c : OutboundClient) (now : Duration) :
    Option (Nat × NetworkStep) :=
  c.tasks.findSome? fun t => (t.dueStep? network c now).map fun s => (t.number, s)

/-- Takes at most `fuel` steps that are due. -/
def settle (network : Network) (now : Duration) :
    (fuel : Nat) → OutboundClient → OutboundClient × List ClientEvent
  | 0, c => (c, [])
  | fuel + 1, c =>
    match (c.dueStep? network now).bind fun (number, s) => c.taskStep number now s with
    | none => (c, [])
    | some (c, events) =>
      let (c, more) := settle network now fuel c
      (c, events ++ more)

/-- The instants at which tasks wake. -/
def alarms (c : OutboundClient) : List Duration :=
  c.tasks.filterMap fun t =>
    match t.phase with
    | .waiting wakeAt => some wakeAt
    | _ => none

end OutboundClient

/-- The first of some instants that is later than `now` and not later than `target`. -/
def Duration.nextAlarm? (alarms : List Duration) (now target : Duration) : Option Duration :=
  (alarms.filter fun a => now < a ∧ a ≤ target).foldl
    (fun best a => match best with | none => some a | some b => some (min a b)) none

/-- A client at an instant, with the events that it emitted on the way there. -/
structure ClientRun where
  client : OutboundClient
  now : Duration
  events : List ClientEvent
  deriving DecidableEq, Repr

namespace ClientRun

def start : ClientRun := ⟨.new, .zero, []⟩

/-- Settles the client whenever something is due, up to `target`. It stops early once `wanted`
events are there. At most `fuel` instants are visited. -/
def runTo (network : Network) (target : Duration) (wanted : Option Nat) :
    (fuel : Nat) → ClientRun → ClientRun
  | 0, r => r
  | fuel + 1, r =>
    let (c, events) := r.client.settle network r.now 1000
    let r : ClientRun := ⟨c, r.now, r.events ++ events⟩
    if wanted.any (· ≤ r.events.length) then r
    else
      match Duration.nextAlarm? c.alarms r.now target with
      | none => { r with now := target }
      | some next => runTo network target wanted fuel { r with now := next }

/-- Lets time pass, or less of it once `wanted` events are there. -/
def advance (r : ClientRun) (network : Network) (time : Duration) (wanted : Option Nat) :
    ClientRun :=
  r.runTo network (r.now.add time) wanted 10000

/-- A whole disconnect. The tasks notice that they shall stop; one that does not is aborted. -/
def disconnect (r : ClientRun) (network : Network) : ClientRun :=
  let (handle, c) := r.client.startDisconnect
  let (c, events) := c.settle network r.now 1000
  let c := match handle with
    | some number => c.abort number
    | none => c
  { r with client := c.finishDisconnect, events := r.events ++ events }

end ClientRun

end DeviceRelay
