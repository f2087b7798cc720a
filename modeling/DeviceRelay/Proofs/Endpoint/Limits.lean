import DeviceRelay.Endpoint.Publish

/-!
# The length check of an endpoint

A frame over the limit of an endpoint is refused and changes nothing. A frame within it may be
refused for other reasons, but not for its length. The limits never change.

* `Endpoint.checkLength_eq_ok_iff`: which frames pass.
* `Endpoint.startSendTo_of_limit_lt`, `startSendTo_ne_payloadTooLarge`: a frame for one client.
* `Endpoint.broadcast_of_limit_lt`: a frame for all clients.
-/

namespace DeviceRelay

/-! ## Frames by their length -/

namespace Endpoint

theorem checkLength_eq_ok_iff {e : Endpoint} {f : Frame} :
    e.checkLength f = .ok () ↔ f.length ≤ e.limits.maxBroadcastLength := by
  unfold checkLength
  split
  · simp only [reduceCtorEq, false_iff, Nat.not_le]
    assumption
  · simp only [true_iff]
    omega

theorem startSendTo_of_limit_lt {e : Endpoint} {f : Frame}
    (h : e.limits.maxBroadcastLength < f.length) (id : ClientId) :
    e.startSendTo id f =
      (.over (.error (.payloadTooLarge f.length e.limits.maxBroadcastLength)), e) := by
  unfold startSendTo checkLength
  rw [if_pos h]

theorem broadcast_of_limit_lt {e : Endpoint} {f : Frame}
    (h : e.limits.maxBroadcastLength < f.length) : (e.broadcast f).2 = e := by
  unfold broadcast checkLength
  rw [if_pos h]

/-- The endpoint itself refuses no frame that is within its limit. -/
theorem startSendTo_ne_payloadTooLarge {e : Endpoint} {f : Frame}
    (h : f.length ≤ e.limits.maxBroadcastLength) (id : ClientId) (length limit : Nat) :
    (e.startSendTo id f).1 ≠ .over (.error (.payloadTooLarge length limit)) := by
  unfold startSendTo
  rw [checkLength_eq_ok_iff.mpr h]
  dsimp only
  split
  · dsimp only
    split <;> nofun
  · split
    · nofun
    · split <;> nofun

end Endpoint

/-! ## What keeps the limits -/

namespace Endpoint

theorem limits_release (e : Endpoint) (id : ClientId) : (e.release id).2.limits = e.limits := by
  unfold release
  split <;> rfl

theorem limits_releaseAll (e : Endpoint) (ids : List ClientId) :
    (e.releaseAll ids).2.limits = e.limits := by
  unfold releaseAll
  refine List.foldlRecOn (motive := fun r : Nat × Endpoint => r.2.limits = e.limits) ids _ rfl
    fun r hr id _ => ?_
  exact (limits_release r.2 id).trans hr

theorem limits_broadcast (e : Endpoint) (f : Frame) : (e.broadcast f).2.limits = e.limits := by
  unfold broadcast
  split
  · rfl
  · exact limits_releaseAll _ _

theorem limits_setTopic (e : Endpoint) (id : ClientId) (topic : Topic) (on : Bool) :
    (e.setTopic id topic on).2.limits = e.limits := by
  unfold setTopic
  split
  · split <;> rfl
  · split <;> rfl

end Endpoint

end DeviceRelay
