import DeviceRelay.Tunnel.Control

/-!
# Sends through a tunnel

A send is refused at once where the tunnel is not connected or the payload is too large for it. It
then waits for the transport lock, a text a little longer than a binary frame, and puts its payload
into the queue of the transport that is installed. A text waits for room in the queue and keeps the
lock while it waits; a binary frame is dropped instead, since only the newest one matters.

* `Tunnel.startSend`: the refusal, or the send that waits.
* `Tunnel.sendStep`: a later step of a send, with its result where it ends.
* `Tunnel.sendNow`: a send during whose waits nothing else happens.
-/

namespace DeviceRelay

namespace Tunnel

/-- How long a send waits for the transport lock. -/
def lockWait : Frame → Duration
  | .text _ => .ofMillis 25
  | .binary _ => .ofMillis 5

/-- How long a text waits for room in the queue. -/
def roomWait : Duration := .ofMillis 200

/-- Whether a payload may be sent at all. -/
def checkSendable (t : Tunnel) (length : Nat) : Except TunnelError Unit :=
  if !t.enabled || !t.isConnected then .error .invalidState
  else if t.options.bufferSize < length then .error (.payloadTooLarge length t.options.bufferSize)
  else .ok ()

/-- Begins a send: the refusal, or the tunnel with the send waiting. -/
def startSend (t : Tunnel) (ticket : Nat) (f : Frame) (now : Duration) :
    Except TunnelError Tunnel :=
  match t.checkSendable f.length with
  | .error e => .error e
  | .ok () =>
    .ok { t with sends := t.sends ++ [⟨ticket, f, .locking (now.add (lockWait f))⟩] }

/-- Offers a frame to the installed transport: what its queue says, or why the frame never got
there. -/
def offer (t : Tunnel) (f : Frame) : Except TunnelError Pushed × Tunnel :=
  match t.transport with
  | none => (.error .invalidState, t)
  | some tr =>
    let (r, client) := tr.client.submit f.length (.data f)
    (match r with
      | .ok p => .ok p
      | .error e => .error e.toTunnelError,
     { t with transport := some { tr with client := client } })

/-- The result of an offer that is not repeated. -/
def offerResult : Except TunnelError Pushed → Except TunnelError Unit
  | .error e => .error e
  | .ok .queued => .ok ()
  | .ok .full => .error .timeout
  | .ok .closed => .error .closed

/-- What ends a wait of a send. -/
inductive SendStep where
  /-- Gets the transport lock. -/
  | locked
  /-- The wait for the lock is over. -/
  | lockGivenUp
  /-- Tries the queue again. -/
  | retried
  /-- The wait for room is over. -/
  | roomGivenUp
  deriving DecidableEq, Repr

/-- The result of a send, none while it waits on. -/
abbrev SendResult := Option (Except TunnelError Unit)

def dropSend (t : Tunnel) (ticket : Nat) : Tunnel :=
  { t with sends := t.sends.filter fun s => s.ticket ≠ ticket }

/-- A send that has the lock offers its frame. A text that finds the queue full waits until
`giveUpAt`. -/
def offerPending (t : Tunnel) (s : PendingSend) (giveUpAt : Duration) : SendResult × Tunnel :=
  match t.offer s.frame, s.frame with
  | (.ok .full, t), .text _ =>
    (none, { t with sends := t.sends.map fun u =>
      if u.ticket = s.ticket then { u with phase := .queueing giveUpAt } else u })
  | (r, t), _ => (some (offerResult r), t.dropSend s.ticket)

/-- A later step of a send, none where it cannot happen now. A text whose session ends while it
waits for room finds the connection closed. -/
def sendStep (t : Tunnel) (ticket : Nat) (now : Duration) (step : SendStep) :
    Option (SendResult × Tunnel) := do
  let s ← t.sends.find? fun s => s.ticket = ticket
  match step, s.phase with
  | .locked, .locking _ =>
    if t.isLocked then none else some (t.offerPending s (now.add roomWait))
  | .lockGivenUp, .locking giveUpAt =>
    if giveUpAt ≤ now then some (some (.error .timeout), t.dropSend ticket) else none
  | .retried, .queueing giveUpAt =>
    if (t.transport.bind fun tr => tr.client.outbox).isNone then
      some (some (.error .closed), t.dropSend ticket)
    else some (t.offerPending s giveUpAt)
  | .roomGivenUp, .queueing giveUpAt =>
    if giveUpAt ≤ now then some (some (.error .timeout), t.dropSend ticket) else none
  | _, _ => none

/-- A send during whose waits nothing else happens: whether it gets the lock and room is clear at
once. It is one of the runs of `startSend` and `sendStep`. -/
def sendNow (t : Tunnel) (f : Frame) : Except TunnelError Unit × Tunnel :=
  match t.checkSendable f.length with
  | .error e => (.error e, t)
  | .ok () =>
    if t.isLocked then (.error .timeout, t)
    else
      let (r, t) := t.offer f
      (offerResult r, t)

end Tunnel

end DeviceRelay
