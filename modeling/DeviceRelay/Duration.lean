/-!
# Spans of time

A span is a number of nanoseconds, at most `2 ^ 64` seconds less one nanosecond. Sums and
products that exceed the longest span give the longest span, and a difference stops at zero. An
instant of the clock is the span since the clock started.
-/

namespace DeviceRelay

/-- Nanoseconds in a second. -/
def nanosPerSecond : Nat := 1000000000

/-- The longest span in nanoseconds. -/
def longestNanos : Nat := UInt64.size * nanosPerSecond - 1

/-- A span of time. -/
structure Duration where
  nanos : Nat
  le_longest : nanos ≤ longestNanos
  deriving DecidableEq, Repr

namespace Duration

/-- The span of so many nanoseconds, or the longest one. -/
def ofNanos (n : Nat) : Duration := ⟨min n longestNanos, Nat.min_le_right _ _⟩

def ofSeconds (n : Nat) : Duration := ofNanos (n * nanosPerSecond)

def ofMillis (n : Nat) : Duration := ofNanos (n * 1000000)

def zero : Duration := ⟨0, Nat.zero_le _⟩

instance : Inhabited Duration := ⟨zero⟩

/-- Whole seconds. -/
def seconds (d : Duration) : Nat := d.nanos / nanosPerSecond

/-- Nanoseconds beyond the whole seconds. -/
def subsecNanos (d : Duration) : Nat := d.nanos % nanosPerSecond

/-- Whole milliseconds. -/
def millis (d : Duration) : Nat := d.nanos / 1000000

instance : LE Duration := ⟨fun a b => a.nanos ≤ b.nanos⟩

instance (a b : Duration) : Decidable (a ≤ b) := inferInstanceAs (Decidable (a.nanos ≤ b.nanos))

instance : LT Duration := ⟨fun a b => a.nanos < b.nanos⟩

instance (a b : Duration) : Decidable (a < b) := inferInstanceAs (Decidable (a.nanos < b.nanos))

instance : Min Duration := ⟨fun a b => if a ≤ b then a else b⟩

/-- The sum, or the longest span. -/
def add (a b : Duration) : Duration := ofNanos (a.nanos + b.nanos)

/-- The difference, or zero. -/
def sub (a b : Duration) : Duration :=
  ⟨a.nanos - b.nanos, Nat.le_trans (Nat.sub_le _ _) a.le_longest⟩

/-- Twice the span, or the longest span. -/
def double (d : Duration) : Duration := ofNanos (d.nanos * 2)

def isZero (d : Duration) : Bool := d.nanos = 0

end Duration

end DeviceRelay
