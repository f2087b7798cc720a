import DeviceRelay.ClientId
import DeviceRelay.Frame

/-!
# The event line of an endpoint

What happens at an endpoint is told to its handler through a line of bounded length. There are
three ways into the line. A notice must not wait: where the line is full a task of its own carries
it there later. A frame of a local client waits in front of a full line, in order of arrival. A
frame of the tunnel is dropped where the line is full.

* `EventLine.notify`, `enqueue`, `offer`: the three ways in.
* `EventLine.runCarrier`: a task that carries a notice runs.
* `EventLine.pop`: the handler takes the next event.
-/

namespace DeviceRelay

inductive EndpointEvent where
  | connected (id : ClientId)
  | disconnected (id : ClientId)
  | frame (id : ClientId) (f : Frame)
  deriving DecidableEq, Repr

structure EventLine where
  /-- The events in the line, first come first. -/
  waiting : List EndpointEvent
  /-- The events in front of the full line, first come first. -/
  blocked : List EndpointEvent
  /-- The notices whose tasks have not run yet. -/
  carried : List EndpointEvent
  deriving DecidableEq, Repr

namespace EventLine

/-- How many events the line holds. -/
def depth : Nat := 64

def empty : EventLine := ⟨[], [], []⟩

/-- Whether an event can enter at once. A place that falls free goes to an event in front. -/
def hasRoom (l : EventLine) : Bool := l.waiting.length < depth && l.blocked.isEmpty

/-- Enters the line, or waits in front of it. -/
def enqueue (l : EventLine) (e : EndpointEvent) : EventLine :=
  if l.hasRoom then { l with waiting := l.waiting ++ [e] }
  else { l with blocked := l.blocked ++ [e] }

/-- Enters the line, or is left to a task. -/
def notify (l : EventLine) (e : EndpointEvent) : EventLine :=
  if l.hasRoom then { l with waiting := l.waiting ++ [e] }
  else { l with carried := l.carried ++ [e] }

/-- Enters the line, or is dropped. -/
def offer (l : EventLine) (e : EndpointEvent) : EventLine :=
  if l.hasRoom then { l with waiting := l.waiting ++ [e] } else l

/-- The task at an index of `carried` runs: its notice enters the line, or waits in front. -/
def runCarrier (l : EventLine) (index : Nat) : Option EventLine :=
  l.carried[index]?.map fun e => { l with carried := l.carried.eraseIdx index }.enqueue e

/-- The handler takes the next event, and the first event in front takes the place. -/
def pop (l : EventLine) : Option (EndpointEvent × EventLine) :=
  match l.waiting, l.blocked with
  | [], _ => none
  | e :: waiting, [] => some (e, { l with waiting := waiting })
  | e :: waiting, b :: blocked =>
    some (e, { l with waiting := waiting ++ [b], blocked := blocked })

/-- Every task that carries a notice runs, in the order in which they were started. -/
def runCarriers (l : EventLine) : EventLine :=
  l.carried.foldl enqueue { l with carried := [] }

end EventLine

end DeviceRelay
