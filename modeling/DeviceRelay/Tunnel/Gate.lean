import DeviceRelay.Duration

/-!
# The dial gate

A gate bounds how many tunnels dial at the same time. A dial asks for a permit and waits for it in
line, but no longer than the gate's bound; who waited in vain dials without one. A permit that is
given back goes to the first in line.

* `DialGate.request`: a permit at once, or a place in line.
* `DialGate.leave`: gives a permit back, or leaves the line.
* `DialGate.expire`: drops those whose wait is over.
* `DialGate.await`: a request and the wait for its outcome.
-/

namespace DeviceRelay

/-- A gate for dials that are known by their numbers. -/
structure DialGate where
  /-- How long a dial waits. -/
  wait : Duration
  free : Nat
  /-- Who has a permit. -/
  holders : List Nat
  /-- Who waits, first come first, and until when. -/
  line : List (Nat × Duration)
  deriving DecidableEq, Repr

namespace DialGate

/-- How long dials wait where nothing else is said. -/
def usualWait : Duration := .ofSeconds 15

/-- A gate with this many permits, at least one. -/
def new (permits : Nat) (wait : Duration) : DialGate := ⟨wait, max permits 1, [], []⟩

/-- A gate for one dial at a time. -/
def serial : DialGate := new 1 usualWait

/-- The permits that nobody has. -/
def available (g : DialGate) : Nat := g.free

/-- Asks for a permit. -/
def request (g : DialGate) (dial : Nat) (now : Duration) : DialGate :=
  if 0 < g.free then { g with free := g.free - 1, holders := dial :: g.holders }
  else { g with line := g.line ++ [(dial, now.add g.wait)] }

def holds (g : DialGate) (dial : Nat) : Bool := g.holders.contains dial

def waits (g : DialGate) (dial : Nat) : Bool := g.line.any fun w => w.1 = dial

/-- Gives a permit to the first in line, or keeps it for the next who asks. -/
def putBack (g : DialGate) : DialGate :=
  match g.line with
  | (dial, _) :: line => { g with holders := dial :: g.holders, line := line }
  | [] => { g with free := g.free + 1 }

/-- Gives a permit back, or leaves the line. -/
def leave (g : DialGate) (dial : Nat) : DialGate :=
  if g.holds dial then { g with holders := g.holders.erase dial }.putBack
  else { g with line := g.line.filter fun w => w.1 ≠ dial }

/-- Drops those from the line whose wait is over. -/
def expire (g : DialGate) (now : Duration) : DialGate :=
  { g with line := g.line.filter fun w => now < w.2 }

/-- Until when a dial waits, if it does. -/
def waitsUntil (g : DialGate) (dial : Nat) : Option Duration :=
  (g.line.find? fun w => w.1 = dial).map Prod.snd

/-- Waits for a permit while nobody gives one back: whether there was one at once, and the gate and
the instant at the end of the wait. -/
def await (g : DialGate) (dial : Nat) (now : Duration) : Bool × DialGate × Duration :=
  let g := g.request dial now
  if g.holds dial then (true, g, now)
  else
    let late := now.add g.wait
    (false, (g.expire (late.sub (.ofNanos 1))).leave dial, late)

/-! ## Lemmas -/

/-- Asking moves a permit, and makes or loses none. -/
theorem free_add_holders_request (g : DialGate) (dial : Nat) (now : Duration) :
    (g.request dial now).free + (g.request dial now).holders.length =
      g.free + g.holders.length := by
  unfold request
  split
  · simp only [List.length_cons]
    omega
  · rfl

theorem free_add_holders_putBack (g : DialGate) :
    g.putBack.free + g.putBack.holders.length = g.free + g.holders.length + 1 := by
  unfold putBack
  split
  · simp only [List.length_cons]
    omega
  · simp only
    omega

/-- Leaving moves a permit, and makes or loses none. -/
theorem free_add_holders_leave (g : DialGate) (dial : Nat) :
    (g.leave dial).free + (g.leave dial).holders.length = g.free + g.holders.length := by
  unfold leave holds
  split
  · rename_i h
    rw [free_add_holders_putBack]
    have hm : dial ∈ g.holders := by simpa using h
    have := List.length_erase_of_mem hm
    have := List.length_pos_of_mem hm
    simp only
    omega
  · rfl

end DialGate

end DeviceRelay
