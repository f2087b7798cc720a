import DeviceRelay.Control.Protocol

/-!
# The shape of the device document

A device starts with an object for its document. An update lays its partial documents over it, one
after the other, and a partial document that is no object takes the place of all that was there.
So what an update leaves is an object exactly when its last partial document is one.

* `Json.patches`: the partial documents of an update.
* `Json.isObject_update`: the shape of the document after one update.
* `HostDevice.config_isObject_iff`: when the document is an object after each of some updates.
* `HostDevice.config_lost_to_array`: an update that is accepted, and leaves no object.
-/

namespace DeviceRelay

namespace Json

/-- The partial documents of an update, in the order in which they are laid over. -/
def patches : Json → List Json
  | .array items => items
  | patch => [patch]

/-- Whether the last partial document of an update is an object. An update without any changes
nothing and counts too. -/
def endsInObject (change : Json) : Bool := change.patches.getLast?.all isObject

/-- What a partial document leaves has its own shape, whatever it was laid over. -/
theorem isObject_merge (target patch : Json) : (target.merge patch).isObject = patch.isObject := by
  cases patch with
  | object members => cases target <;> rfl
  | _ => rfl

theorem update_eq_foldl (config change : Json) :
    config.update change = change.patches.foldl merge config := by
  cases change <;> rfl

/-- The last of some partial documents decides about the shape. -/
theorem isObject_foldl_merge (config : Json) (patches : List Json) :
    (patches.foldl merge config).isObject =
      (patches.getLast?.map isObject).getD config.isObject := by
  induction patches generalizing config with
  | nil => rfl
  | cons patch patches ih =>
    rw [List.foldl_cons, ih, isObject_merge, List.getLast?_cons]
    cases patches.getLast? <;> rfl

/-- **One update.** An object stays one exactly under the updates that end in an object. -/
theorem isObject_update {config : Json} (h : config.isObject = true) (change : Json) :
    (config.update change).isObject = change.endsInObject := by
  rw [update_eq_foldl, isObject_foldl_merge, h, endsInObject]
  cases change.patches.getLast? <;> rfl

end Json

namespace HostDevice

/-- The device after some updates, the first one first. -/
def applyAll (d : HostDevice) (changes : List Json) : HostDevice := changes.foldl applyUpdate d

theorem config_new_isObject (hostname ipAddress : String) (config : Json) (hasStats : Bool)
    (now : Duration) : (new hostname ipAddress config hasStats now).config.isObject = true := by
  unfold new
  by_cases h : config.isObject = true
  · simpa only [if_pos h] using h
  · simp only [if_neg h]
    rfl

/-- The documents that a device goes through under some updates are all objects exactly when each
update ends in one. -/
theorem isObject_applyAll_iff {d : HostDevice} (h : d.config.isObject = true)
    (changes : List Json) :
    (∀ k, (d.applyAll (changes.take k)).config.isObject = true) ↔
      ∀ change ∈ changes, change.endsInObject = true := by
  induction changes generalizing d with
  | nil => simpa [applyAll] using h
  | cons change changes ih =>
    have hstep : (d.applyUpdate change).config.isObject = change.endsInObject :=
      Json.isObject_update h change
    constructor
    · intro hall
      have hchange : change.endsInObject = true := by
        rw [← hstep]
        simpa [applyAll] using hall 1
      have hrest := (ih (hstep.trans hchange)).mp fun k => by
        simpa [applyAll] using hall (k + 1)
      intro c hc
      rcases List.mem_cons.mp hc with rfl | hc
      · exact hchange
      · exact hrest c hc
    · intro hall k
      have hchange := hall change List.mem_cons_self
      cases k with
      | zero => simpa [applyAll] using h
      | succ k =>
        exact (ih (hstep.trans hchange)).mpr (fun c hc => hall c (List.mem_cons_of_mem _ hc)) k

/-- **The document stays an object** under a sequence of updates exactly when no update ends in
anything else: an object always passes, and an array passes when it is empty or its last item is an
object. Nothing else about the updates, and nothing about the initial document, matters. -/
theorem config_isObject_iff (hostname ipAddress : String) (initial : Json) (hasStats : Bool)
    (now : Duration) (changes : List Json) :
    (∀ k, ((new hostname ipAddress initial hasStats now).applyAll (changes.take k)).config.isObject
        = true) ↔
      ∀ change ∈ changes, change.endsInObject = true :=
  isObject_applyAll_iff (config_new_isObject hostname ipAddress initial hasStats now) changes

/-- A command queues the array of one number as an update, and the update leaves the number. -/
theorem config_lost_to_array :
    let request : Json := .object [("cmd", .string "set_config"), ("config", .array [.ofNat 7])]
    let device := new "pier" "10.0.0.2" (.object [("a", .ofNat 1)]) true .zero
    (ControlProtocol.setConfigReply request (.ofDepth 8)).2.waiting = [.array [.ofNat 7]] ∧
      (device.applyAll [.array [.ofNat 7]]).config = .ofNat 7 := by
  decide

end HostDevice

end DeviceRelay
