import DeviceRelay.Duration

/-!
# Tickers

A ticker ticks when it starts and then at the multiples of its period. Ticks that were missed
collapse into one, and the next tick is again at a multiple of the period.
-/

namespace DeviceRelay

structure Ticker where
  period : Duration
  /-- When the next tick is due. -/
  nextAt : Duration
  deriving DecidableEq, Repr

namespace Ticker

/-- A ticker that starts now. -/
def new (period now : Duration) : Ticker := ⟨period, now⟩

/-- The ticker after the tick that is due, none where none is. -/
def tick? (t : Ticker) (now : Duration) : Option Ticker :=
  if t.nextAt ≤ now then
    let late := (now.nanos - t.nextAt.nanos) % t.period.nanos
    some { t with nextAt := .ofNanos (now.nanos + t.period.nanos - late) }
  else none

end Ticker

end DeviceRelay
