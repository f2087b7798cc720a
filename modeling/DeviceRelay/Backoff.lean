import DeviceRelay.Duration

/-!
# Reconnect delays

A session that ends is followed by a wait before the next dial. The wait doubles from session to
session up to a ceiling, and starts over after a session that was held long enough to count as
stable. A policy may bound the attempts: once so many short sessions have been counted, the answer
is none, and the history stays as it is until a stable session.

* `Backoff.onSessionEnd`: the wait after a session, and the history with that session in it.
* `Backoff.reset`: the history of a fresh start.
-/

namespace DeviceRelay

/-- How delays grow and when they start over. -/
structure Backoff.Policy where
  /-- The first delay. -/
  base : Duration
  /-- The longest delay. -/
  ceiling : Duration
  /-- A session held at least this long starts the delays over. -/
  stableAfter : Duration
  /-- How many attempts are made before giving up; without a number they never end. -/
  maxAttempts : Option UInt32
  /-- Whether a short session doubles the delay before the wait rather than after it. -/
  escalateFirst : Bool
  deriving DecidableEq, Repr

/-- The policy of a cloud tunnel: delays double up to 30 seconds, before the wait. -/
def Backoff.Policy.tunnel (base : Duration) : Backoff.Policy where
  base := base
  ceiling := .ofSeconds 30
  stableAfter := .ofSeconds 30
  maxAttempts := none
  escalateFirst := true

/-- The policy of an outbound client: delays double up to 60 seconds, after the wait. A bound of
zero attempts is no bound. -/
def Backoff.Policy.outbound (base : Duration) (maxAttempts : Option UInt32) :
    Backoff.Policy where
  base := base
  ceiling := .ofSeconds 60
  stableAfter := .ofSeconds 30
  maxAttempts := maxAttempts.filter (0 < ·)
  escalateFirst := false

/-- A policy and what has happened under it: the delay that comes next, and the attempts counted
since the last stable session. -/
structure Backoff where
  policy : Backoff.Policy
  next : Duration
  failures : UInt32
  deriving DecidableEq, Repr

namespace Backoff

/-- No session has ended yet. -/
def new (policy : Policy) : Backoff := ⟨policy, min policy.base policy.ceiling, 0⟩

/-- Forgets every session. -/
def reset (b : Backoff) : Backoff := new b.policy

/-- Twice the delay, up to the ceiling. -/
def Policy.grow (p : Policy) (delay : Duration) : Duration := min delay.double p.ceiling

/-- One more, stopping at the largest count. -/
def countUp (n : UInt32) : UInt32 := if n = UInt32.ofNat (UInt32.size - 1) then n else n + 1

/-- Whether the attempts are spent. -/
def spent (b : Backoff) : Bool := b.policy.maxAttempts.any fun m => m ≤ b.failures

/-- The wait after a session held for `held`, none where the attempts are spent, and the history
with that session in it. -/
def onSessionEnd (b : Backoff) (held : Duration) : Option Duration × Backoff :=
  let stable : Bool := b.policy.stableAfter ≤ held
  let b := if stable then b.reset else b
  if b.spent then (none, b)
  else if b.policy.escalateFirst then
    let b :=
      if stable then b
      else { b with failures := countUp b.failures, next := b.policy.grow b.next }
    (some b.next, b)
  else (some b.next, { b with failures := countUp b.failures, next := b.policy.grow b.next })

end Backoff

end DeviceRelay
