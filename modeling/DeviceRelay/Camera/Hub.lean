import DeviceRelay.Endpoint.Publish

/-!
# Camera frames

A camera frame is offered to every endpoint that carries camera media.

* `Camera.hasAudience`: whether anybody could receive a frame, so that capturing one is worth it.
* `Camera.publish`: a frame for every endpoint.
-/

namespace DeviceRelay.Camera

/-- Whether the far end of a tunnel could receive a frame. -/
def tunnelListens (e : Endpoint) : Bool :=
  e.tunnelConnected &&
    (e.hasTopic .tunnel .camera || e.hasTopic .tunnel .snapshot)

/-- Whether anybody could receive a frame. -/
def hasAudience (endpoints : List Endpoint) : Bool :=
  endpoints.any fun e =>
    tunnelListens e || 0 < e.subscribers .camera || 0 < e.subscribers .snapshot

/-- A frame for every endpoint. An endpoint that refuses it counts nothing. -/
def publish (bytes : List UInt8) : List Endpoint → Report × List Endpoint
  | [] => (.zero, [])
  | e :: endpoints =>
    let (r, e) := e.publishTopic .camera bytes
    let (total, rest) := publish bytes endpoints
    ((match r with | .ok report => report | .error _ => .zero).add total, e :: rest)

end DeviceRelay.Camera
