import DeviceRelay.Proofs.Document.Shape
import DeviceRelay.Proofs.Json.Written
import Mathlib.Data.List.Perm.Basic

/-!
# A partial document lies over a document

Members that are in order by key are known by what is looked up among them, so a document is known
by its members under every key. That settles what a partial document leaves: its own members, each
merged into what was there, and the members it does not name. The same partial document laid over
that once more finds its members merged already and changes nothing.

* `Json.members_ext`: members in order are the same when every key reads the same in them.
* `Json.get?_merge`, `Json.get?_update`: a member that is not named stays.
* `Json.Ordered.merge`: documents stay in order, and with them the document of a device.
* `Json.IsOverlay`: what one object laid over another comes to, key by key.
* `Json.merge_overlays`: laying over once, twice, and one update after the other.
-/

namespace DeviceRelay

namespace Json

/-! ## Members in order -/

/-- The keys of an object; any other value has none. -/
def keys (j : Json) : List String := j.members.map Prod.fst

theorem lookup_eq_none_iff {key : String} {ms : List (String × Json)} :
    lookup key ms = none ↔ key ∉ ms.map Prod.fst := by
  simp only [lookup, Option.map_eq_none_iff, List.find?_eq_none, decide_eq_true_eq, List.mem_map,
    not_exists, not_and]

theorem get?_eq_none_iff {key : String} {j : Json} : j.get? key = none ↔ key ∉ j.keys :=
  lookup_eq_none_iff

theorem mem_keys_iff {key : String} {j : Json} : key ∈ j.keys ↔ (j.get? key).isSome = true := by
  rw [Option.isSome_iff_ne_none, ne_eq, get?_eq_none_iff, not_not]

theorem mem_of_lookup {key : String} {v : Json} {ms : List (String × Json)}
    (h : lookup key ms = some v) : (key, v) ∈ ms := by
  unfold lookup at h
  obtain ⟨m, hm, rfl⟩ := Option.map_eq_some_iff.mp h
  have hkey : m.1 = key := by simpa using List.find?_some hm
  exact hkey ▸ List.mem_of_find?_eq_some hm

/-- In members in order no later member has the key of the first. -/
theorem KeysIncrease.head_ne {m : String × Json} {ms : List (String × Json)}
    (h : KeysIncrease (m :: ms)) {key : String} {v : Json} (hm : (key, v) ∈ ms) : m.1 ≠ key := by
  have hlt : m.1 < key := (List.pairwise_cons.mp h).1 _ hm
  rintro rfl
  exact String.lt_irrefl _ hlt

theorem lookup_eq_some_iff {key : String} {v : Json} {ms : List (String × Json)}
    (h : KeysIncrease ms) : lookup key ms = some v ↔ (key, v) ∈ ms := by
  refine ⟨mem_of_lookup, fun hm => ?_⟩
  induction ms with
  | nil => cases hm
  | cons m ms ih =>
    rw [lookup_cons]
    obtain rfl | hm := List.mem_cons.mp hm
    · exact if_pos rfl
    · rw [if_neg (h.head_ne hm)]
      exact ih (List.pairwise_cons.mp h).2 hm

theorem KeysIncrease.nodup {ms : List (String × Json)} (h : KeysIncrease ms) : ms.Nodup := by
  refine List.Pairwise.imp ?_ h
  rintro a _ hlt rfl
  exact String.lt_irrefl _ hlt

/-- **Members in order are known by what is looked up among them.** -/
theorem members_ext {a b : List (String × Json)} (ha : KeysIncrease a) (hb : KeysIncrease b)
    (h : ∀ key, lookup key a = lookup key b) : a = b := by
  have hperm : a.Perm b := by
    rw [List.perm_ext_iff_of_nodup ha.nodup hb.nodup]
    rintro ⟨key, v⟩
    rw [← lookup_eq_some_iff ha, ← lookup_eq_some_iff hb, h]
  exact hperm.eq_of_pairwise (fun _ _ _ _ hab hba => absurd hba (String.lt_asymm hab)) ha hb

/-! ## Members laid over members -/

theorem keysIncrease_mergeMembers {members : List (String × Json)} (h : KeysIncrease members)
    (patch : List (String × Json)) : KeysIncrease (mergeMembers members patch) := by
  induction patch generalizing members with
  | nil => exact h
  | cons m patch ih =>
    obtain ⟨key, v⟩ := m
    exact ih (keysIncrease_insertMember key _ h)

/-- A partial object without a key leaves the member of that key. -/
theorem lookup_mergeMembers {key : String} {patch : List (String × Json)}
    (h : lookup key patch = none) (members : List (String × Json)) :
    lookup key (mergeMembers members patch) = lookup key members := by
  induction patch generalizing members with
  | nil => rfl
  | cons m patch ih =>
    obtain ⟨k, v⟩ := m
    rw [lookup_cons] at h
    split at h
    · cases h
    · rename_i hk
      rw [mergeMembers, ih h, mergeMember, lookup_insertMember, if_neg hk]

/-- A key of a partial object holds its value there, merged into what it held before. -/
theorem lookup_mergeMembers_of_mem {key : String} {v : Json} {patch : List (String × Json)}
    (hp : KeysIncrease patch) (h : (key, v) ∈ patch) (members : List (String × Json)) :
    lookup key (mergeMembers members patch) =
      some (((lookup key members).getD .null).merge v) := by
  induction patch generalizing members with
  | nil => cases h
  | cons m patch ih =>
    rw [mergeMembers]
    obtain rfl | hm := List.mem_cons.mp h
    · -- no later member writes over this one
      have hlater : lookup key patch = none :=
        Option.eq_none_iff_forall_ne_some.mpr fun w hw => hp.head_ne (mem_of_lookup hw) rfl
      rw [lookup_mergeMembers hlater, mergeMember, lookup_insertMember, if_pos rfl]
    · have hne := hp.head_ne hm
      obtain ⟨k, w⟩ := m
      rw [ih (List.pairwise_cons.mp hp).2 hm, mergeMember, lookup_insertMember, if_neg hne]

/-! ## One partial document -/

/-- Over null a partial document stands as it is. -/
theorem null_merge (patch : Json) : null.merge patch = patch := by
  cases patch <;> rfl

/-- Unless both are objects, the partial document takes the place of all that was there. -/
theorem merge_eq_patch {target patch : Json}
    (h : ¬(target.isObject = true ∧ patch.isObject = true)) : target.merge patch = patch := by
  cases patch with
  | object patch =>
    cases target with
    | object members => exact absurd ⟨rfl, rfl⟩ h
    | _ => rfl
  | _ => rfl

/-- To lay an object over anything is to lay its members over those that are there. -/
theorem merge_object {patch : List (String × Json)} (hp : KeysIncrease patch) (target : Json) :
    target.merge (.object patch) = .object (mergeMembers target.members patch) := by
  have hfresh : mergeMembers [] patch = patch := by
    refine members_ext (keysIncrease_mergeMembers List.Pairwise.nil patch) hp fun key => ?_
    cases h : lookup key patch with
    | none => exact lookup_mergeMembers h []
    | some v =>
      rw [lookup_mergeMembers_of_mem hp (mem_of_lookup h)]
      exact congrArg some (null_merge v)
  cases target with
  | object members => rfl
  | _ => exact congrArg object hfresh.symm

theorem get?_merge {key : String} {target patch : Json} (ht : target.isObject = true)
    (hp : patch.isObject = true) (h : patch.get? key = none) :
    (target.merge patch).get? key = target.get? key := by
  cases target with
  | object members =>
    cases patch with
    | object patch => exact lookup_mergeMembers h members
    | _ => cases hp
  | _ => cases ht

/-- An update of objects without a key leaves the member of that key. -/
theorem get?_update {key : String} {config change : Json} (hc : config.isObject = true)
    (h : ∀ patch ∈ change.patches, patch.isObject = true ∧ patch.get? key = none) :
    (config.update change).get? key = config.get? key := by
  rw [update_eq_foldl]
  generalize change.patches = patches at h
  induction patches generalizing config with
  | nil => rfl
  | cons patch patches ih =>
    obtain ⟨hp, hkey⟩ := h patch List.mem_cons_self
    have hm : (config.merge patch).isObject = true := (isObject_merge config patch).trans hp
    rw [List.foldl_cons, ih hm fun p hp => h p (List.mem_cons_of_mem _ hp)]
    exact get?_merge hc hp hkey

/-! ## Order -/

theorem Ordered.keysIncrease_members {j : Json} (h : j.Ordered) : KeysIncrease j.members := by
  cases h with
  | object keys each => exact keys
  | _ => exact List.Pairwise.nil

/-- What a key holds in a document in order is in order, null where it holds nothing. -/
theorem Ordered.getD_get? {j : Json} (h : j.Ordered) (key : String) :
    ((j.get? key).getD .null).Ordered := by
  cases hv : j.get? key with
  | none => exact .null
  | some v =>
    cases h with
    | object keys each => exact each _ (mem_of_lookup hv)
    | _ => cases hv

/-- **A document in order stays so** under a partial document in order. -/
theorem Ordered.merge {target patch : Json} (ht : target.Ordered) (hp : patch.Ordered) :
    (target.merge patch).Ordered := by
  induction hp generalizing target with
  | @object patch keys each ih =>
    have hkeys := keysIncrease_mergeMembers ht.keysIncrease_members patch
    rw [merge_object keys]
    refine .object hkeys fun (key, v) hm => ?_
    have hv := (lookup_eq_some_iff hkeys).mpr hm
    cases h : lookup key patch with
    | none =>
      rw [lookup_mergeMembers h] at hv
      have hget := ht.getD_get? key
      rwa [show target.get? key = some v from hv] at hget
    | some w =>
      have hw := mem_of_lookup h
      rw [lookup_mergeMembers_of_mem keys hw] at hv
      cases hv
      exact ih _ hw (ht.getD_get? key)
  | null => exact .null
  | bool b => exact .bool b
  | number n => exact .number n
  | string s => exact .string s
  | array each => exact .array each

/-- An update in order is one of partial documents in order. -/
theorem Ordered.patches {change : Json} (h : change.Ordered) :
    ∀ patch ∈ change.patches, patch.Ordered := by
  intro patch hpatch
  cases change with
  | array items =>
    cases h with
    | array each => exact each patch hpatch
  | _ =>
    obtain rfl := List.mem_singleton.mp hpatch
    exact h

theorem Ordered.update {config change : Json} (hc : config.Ordered) (h : change.Ordered) :
    (config.update change).Ordered := by
  have hp := h.patches
  rw [update_eq_foldl]
  generalize change.patches = patches at hp
  induction patches generalizing config with
  | nil => exact hc
  | cons patch patches ih =>
    exact ih (hc.merge (hp patch List.mem_cons_self)) fun p h => hp p (List.mem_cons_of_mem _ h)

/-! ## Laid over twice -/

/-- **A partial document laid over twice** is there as if laid over once. -/
theorem merge_merge {target patch : Json} (ht : target.Ordered) (hp : patch.Ordered) :
    (target.merge patch).merge patch = target.merge patch := by
  -- by the nesting of the partial document, for every target: one level down, it lies over what
  -- the first round has left under each of its keys
  induction hp generalizing target with
  | @object patch keys each ih =>
    have hkeys := keysIncrease_mergeMembers ht.keysIncrease_members patch
    rw [merge_object keys target, merge_object keys]
    refine congrArg object (members_ext (keysIncrease_mergeMembers hkeys patch) hkeys fun key => ?_)
    cases h : lookup key patch with
    | none => exact lookup_mergeMembers h _
    | some v =>
      have hv := mem_of_lookup h
      rw [lookup_mergeMembers_of_mem keys hv, members, lookup_mergeMembers_of_mem keys hv]
      exact congrArg some (ih _ hv (ht.getD_get? key))
  | _ => rfl

/-! ## Key by key -/

/-- The object `result` is the object `patch` laid over the object `target`. -/
structure IsOverlay (target patch result : Json) : Prop where
  isObject : result.isObject = true
  /-- The keys are those of both. -/
  keys : ∀ key, key ∈ result.keys ↔ key ∈ target.keys ∨ key ∈ patch.keys
  /-- A member that the partial document does not name stays. -/
  kept : ∀ key, key ∉ patch.keys → result.get? key = target.get? key
  /-- A member that it names is merged into what was there, into null where nothing was. -/
  laid : ∀ key v, patch.get? key = some v →
    result.get? key = some (((target.get? key).getD .null).merge v)

theorem isOverlay_merge {target patch : Json} (hp : patch.Ordered)
    (hobjects : target.isObject = true ∧ patch.isObject = true) :
    IsOverlay target patch (target.merge patch) := by
  have hkept : ∀ key, key ∉ patch.keys → (target.merge patch).get? key = target.get? key :=
    fun key hkey => get?_merge hobjects.1 hobjects.2 (get?_eq_none_iff.mpr hkey)
  have hlaid : ∀ key v, patch.get? key = some v →
      (target.merge patch).get? key = some (((target.get? key).getD .null).merge v) := by
    intro key v hv
    cases hp with
    | object keys each =>
      rw [merge_object keys]
      exact lookup_mergeMembers_of_mem keys (mem_of_lookup hv) _
    | _ => cases hv
  refine ⟨(isObject_merge target patch).trans hobjects.2, fun key => ?_, hkept, hlaid⟩
  by_cases hkey : key ∈ patch.keys
  · obtain ⟨v, hv⟩ := Option.isSome_iff_exists.mp (mem_keys_iff.mp hkey)
    simp [hkey, mem_keys_iff, hlaid key v hv]
  · simp [hkey, mem_keys_iff, hkept key hkey]

/-! ## Several partial documents -/

/-- An array of partial documents, none of them an array itself, is as many updates. -/
theorem update_array {patches : List Json} (h : ∀ patch ∈ patches, patch.patches = [patch])
    (config : Json) : config.update (.array patches) = patches.foldl update config := by
  rw [update_eq_foldl, Json.patches]
  induction patches generalizing config with
  | nil => rfl
  | cons patch patches ih =>
    have hone : config.update patch = config.merge patch := by
      rw [update_eq_foldl, h patch List.mem_cons_self]
      rfl
    rw [List.foldl_cons, List.foldl_cons, hone]
    exact ih (fun p hp => h p (List.mem_cons_of_mem _ hp)) _

end Json

namespace HostDevice

theorem applyAll_eq (d : HostDevice) (changes : List Json) :
    d.applyAll changes = { d with config := changes.foldl Json.update d.config } := by
  induction changes generalizing d with
  | nil => rfl
  | cons change changes ih => exact ih (d.applyUpdate change)

/-- The document of a device is in order at all times, given one in order at first and updates in
order. -/
theorem ordered_applyAll {d : HostDevice} (hd : d.config.Ordered) {changes : List Json}
    (h : ∀ change ∈ changes, change.Ordered) : (d.applyAll changes).config.Ordered := by
  induction changes generalizing d with
  | nil => exact hd
  | cons change changes ih =>
    exact ih (d := d.applyUpdate change) (hd.update (h change List.mem_cons_self)) fun c hc =>
      h c (List.mem_cons_of_mem _ hc)

/-- An array of objects is as many updates of a device. -/
theorem applyUpdate_objects (d : HostDevice) (objects : List (List (String × Json))) :
    d.applyUpdate (.array (objects.map .object)) = d.applyAll (objects.map .object) := by
  rw [applyAll_eq, applyUpdate, Json.update_array]
  rintro _ hpatch
  obtain ⟨members, -, rfl⟩ := List.mem_map.mp hpatch
  rfl

end HostDevice

/-- **A partial document is an overlay.** Laid over a document it leaves a document, and laid over
that once more it changes nothing. If both are objects, the result has the keys of both, keeps
what the partial document does not name and has all else merged, key by key; if not, the result is
the partial document. For a device, an array of objects is one update after the other. Documents
are in order, as each one that is read is. -/
theorem Json.merge_overlays {target patch : Json} (ht : target.Ordered) (hp : patch.Ordered) :
    (target.merge patch).Ordered ∧
      (target.merge patch).merge patch = target.merge patch ∧
      (target.isObject = true ∧ patch.isObject = true →
        IsOverlay target patch (target.merge patch)) ∧
      (¬(target.isObject = true ∧ patch.isObject = true) → target.merge patch = patch) ∧
      ∀ (d : HostDevice) (objects : List (List (String × Json))),
        d.applyUpdate (.array (objects.map .object)) = d.applyAll (objects.map .object) :=
  ⟨ht.merge hp, merge_merge ht hp, isOverlay_merge hp, merge_eq_patch,
    HostDevice.applyUpdate_objects⟩

/-- A section that is in both documents is merged, and one that was text is replaced. -/
theorem Json.merge_overlays_sections :
    let target : Json := .object
      [("name", .string "pier"), ("tags", .string "a"),
        ("wifi", .object [("mode", .string "sta"), ("ssid", .string "a")])]
    let patch : Json := .object
      [("tags", .object [("b", .null)]), ("wifi", .object [("ssid", .string "b")])]
    let merged : Json := .object
      [("name", .string "pier"), ("tags", .object [("b", .null)]),
        ("wifi", .object [("mode", .string "sta"), ("ssid", .string "b")])]
    target.Ordered ∧ patch.Ordered ∧ target.merge patch = merged ∧
      merged.merge patch = merged ∧ IsOverlay target patch merged := by
  intro target patch merged
  have ht : target.Ordered := by
    refine .object (by decide) ?_
    simp only [List.forall_mem_cons]
    exact ⟨.string _, .string _, .object (by decide) (by simp [Ordered.string]), nofun⟩
  have hp : patch.Ordered := by
    refine .object (by decide) ?_
    simp only [List.forall_mem_cons]
    exact ⟨.object (by decide) (by simp [Ordered.null]),
      .object (by decide) (by simp [Ordered.string]), nofun⟩
  have hmerged : target.merge patch = merged := by decide
  obtain ⟨-, htwice, hoverlay, -⟩ := merge_overlays ht hp
  rw [hmerged] at htwice hoverlay
  exact ⟨ht, hp, hmerged, htwice, hoverlay ⟨rfl, rfl⟩⟩

end DeviceRelay
