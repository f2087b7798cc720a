import DeviceRelay.Json.Basic
import DeviceRelay.Queue

/-!
# Queued configuration updates

Updates of the configuration wait in a bounded queue until the device applies them. The queue
closes when the device stops applying updates.
-/

namespace DeviceRelay

/-- The updates that wait. -/
abbrev ConfigQueue := BoundedQueue Json

/-- An empty queue; a depth of zero acts as one. -/
def ConfigQueue.ofDepth (depth : Nat) : ConfigQueue := BoundedQueue.new (max depth 1)

end DeviceRelay
