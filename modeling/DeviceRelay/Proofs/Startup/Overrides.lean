import DeviceRelay.Proofs.Document.Overlay
import DeviceRelay.Startup.Overrides

/-!
# What the command line leaves of a document

The overrides of the command line are one partial document with one section, which has the members
that are given and no others. Laid over the document that was loaded, it replaces these members of
the section, and everything else stays. So the cloud settings are the given ones, and for the rest
those of the loaded document, whatever stood in the place of the section before.

* `CloudOverrides.given?`: what is given for a member of the section.
* `CloudOverrides.get?_section`: the section of the resulting document, member by member.
* `CloudOverrides.ofConfig_apply`: the cloud settings of the resulting document.
* `CloudOverrides.apply_changes_given`: an absent option changes nothing.
-/

namespace DeviceRelay

namespace Json

/-- An object that is put together from members of different keys has just these members. -/
theorem get?_ofMembers {ms : List (String × Json)} (h : (ms.map Prod.fst).Nodup) (key : String) :
    (ofMembers ms).get? key = lookup key ms := by
  have hvalues : values key ms = (lookup key ms).toList := by
    induction ms with
    | nil => rfl
    | cons m ms ih =>
      obtain ⟨hnew, hms⟩ := List.nodup_cons.mp h
      rw [lookup_cons]
      by_cases hkey : m.1 = key
      · have hnone : lookup key ms = none := lookup_eq_none_iff.mpr (hkey ▸ hnew)
        rw [values_cons_of_eq hkey, ih hms, hnone, if_pos hkey]
        rfl
      · rw [values_cons_of_ne hkey, ih hms, if_neg hkey]
  refine (lookup_insertAll key [] ms).trans ?_
  rw [hvalues]
  cases lookup key ms <;> rfl

/-- A member that is no object itself takes the place of the one that was there. -/
theorem get?_merge_flat {patch : List (String × Json)} (hp : KeysIncrease patch)
    (hflat : ∀ m ∈ patch, m.2.isObject = false) (target : Json) (key : String) :
    (target.merge (.object patch)).get? key = (lookup key patch).or (target.get? key) := by
  rw [merge_object hp]
  cases h : lookup key patch with
  | none => exact lookup_mergeMembers h _
  | some v =>
    have hv := mem_of_lookup h
    have hflat : v.isObject = false := hflat _ hv
    refine (lookup_mergeMembers_of_mem hp hv _).trans (congrArg some (merge_eq_patch ?_))
    simp [hflat]

end Json

namespace CloudOverrides

open CloudSettings

variable (o : CloudOverrides)

/-- What is given for a member of the section. -/
def given? (name : String) : Option Json :=
  if name = "enabled" then (if o.enabled then some (.bool true) else none)
  else if name = "baseUrl" then o.baseUrl.map .string
  else if name = "authToken" then o.authToken.map .string
  else none

/-! ## The partial document -/

theorem nodup_members : (o.members.map Prod.fst).Nodup := by
  obtain ⟨enabled, baseUrl, authToken⟩ := o
  cases enabled <;> cases baseUrl <;> cases authToken <;> simp [members]

theorem isObject_of_mem_members {m : String × Json} (h : m ∈ o.members) : m.2.isObject = false := by
  simp only [members, List.mem_append, Option.mem_toList, Option.map_eq_some_iff] at h
  obtain (h | ⟨url, -, rfl⟩) | ⟨token, -, rfl⟩ := h
  · split at h
    · obtain rfl := List.mem_singleton.mp h
      rfl
    · cases h
  · rfl
  · rfl

theorem lookup_members (name : String) : Json.lookup name o.members = o.given? name := by
  obtain ⟨enabled, baseUrl, authToken⟩ := o
  unfold given?
  split
  case isTrue henabled =>
    subst henabled
    cases enabled <;> cases baseUrl <;> cases authToken <;> rfl
  case isFalse henabled =>
    split
    case isTrue hurl =>
      subst hurl
      cases enabled <;> cases baseUrl <;> cases authToken <;> rfl
    case isFalse hurl =>
      split
      case isTrue htoken =>
        subst htoken
        cases enabled <;> cases baseUrl <;> cases authToken <;> rfl
      case isFalse htoken =>
        refine Json.lookup_eq_none_iff.mpr ?_
        cases enabled <;> cases baseUrl <;> cases authToken <;>
          simp [members, henabled, hurl, htoken]

theorem members_eq_nil_iff : o.members = [] ↔ o = ⟨false, none, none⟩ := by
  obtain ⟨enabled, baseUrl, authToken⟩ := o
  cases enabled <;> cases baseUrl <;> cases authToken <;> simp [members]

/-! ## The resulting document -/

variable {o} {document : Json}

theorem apply_of_nothing (h : o.members = []) : o.apply document = document := by
  rw [apply, h]
  rfl

/-- What is given goes over the section, whatever it was. -/
theorem apply_of_given (h : o.members ≠ []) :
    o.apply document = document.merge (.object [(sectionKey, Json.ofMembers o.members)]) := by
  rw [apply, if_neg (by simpa using h)]

theorem isObject_apply (h : document.isObject = true) : (o.apply document).isObject = true := by
  by_cases hnothing : o.members = []
  · rwa [apply_of_nothing hnothing]
  · rw [apply_of_given hnothing, Json.isObject_merge]
    rfl

/-- Outside the section everything stays. -/
theorem get?_apply_of_ne (h : document.isObject = true) {key : String} (hkey : key ≠ sectionKey) :
    (o.apply document).get? key = document.get? key := by
  by_cases hnothing : o.members = []
  · rw [apply_of_nothing hnothing]
  · have hother : Json.lookup key [(sectionKey, Json.ofMembers o.members)] = none := by
      rw [Json.lookup_cons, if_neg hkey.symm]
      rfl
    rw [apply_of_given hnothing]
    exact Json.get?_merge h rfl hother

/-- The section of the resulting document has what is given over what was there. -/
theorem sectionOf_apply (h : o.members ≠ []) :
    sectionOf (o.apply document) = (sectionOf document).merge (Json.ofMembers o.members) := by
  have hsingle : Json.KeysIncrease [(sectionKey, Json.ofMembers o.members)] :=
    List.pairwise_singleton _ _
  have hsection : (o.apply document).get? sectionKey =
      some ((sectionOf document).merge (Json.ofMembers o.members)) := by
    rw [apply_of_given h, Json.merge_object hsingle]
    exact Json.lookup_mergeMembers_of_mem hsingle List.mem_cons_self _
  rw [sectionOf, Json.field, hsection]
  rfl

/-- **The section** has what is given, and for the rest what it had before. -/
theorem get?_section (o : CloudOverrides) (document : Json) (name : String) :
    (sectionOf (o.apply document)).get? name =
      (o.given? name).or ((sectionOf document).get? name) := by
  by_cases hnothing : o.members = []
  · rw [apply_of_nothing hnothing, ← lookup_members, hnothing]
    rfl
  · have hkeys : Json.KeysIncrease (Json.insertAll [] o.members) :=
      Json.keysIncrease_insertAll List.Pairwise.nil _
    have hflat : ∀ m ∈ Json.insertAll [] o.members, m.2.isObject = false := by
      intro m hm
      obtain hm | hm := Json.mem_of_mem_insertAll hm
      · cases hm
      · exact isObject_of_mem_members o hm
    have hmember : Json.lookup name (Json.insertAll [] o.members) = o.given? name :=
      (Json.get?_ofMembers o.nodup_members name).trans (o.lookup_members name)
    rw [sectionOf_apply hnothing, ← hmember]
    exact Json.get?_merge_flat hkeys hflat _ _

/-! ## The cloud settings -/

theorem textField_apply (name : String) (given : Option String)
    (h : o.given? name = given.map .string) :
    textField (o.apply document) name = (given.map Text.trim).getD (textField document name) := by
  unfold textField Json.text Json.text?
  rw [get?_section, h]
  cases given <;> rfl

theorem boolField_apply (name : String) (given : Option Bool) (usual : Bool)
    (h : o.given? name = given.map .bool) :
    boolField (o.apply document) name usual = given.getD (boolField document name usual) := by
  unfold boolField Json.flag
  rw [get?_section, h]
  cases given <;> rfl

theorem millisField?_apply (name : String) (h : o.given? name = none) :
    millisField? (o.apply document) name = millisField? document name := by
  unfold millisField? Json.nat?
  rw [get?_section, h, Option.none_or]

/-- **The cloud settings** of the resulting document are the given ones, and for the rest those of
the document. -/
theorem ofConfig_apply (o : CloudOverrides) (document : Json) (deviceId : String) :
    ofConfig (o.apply document) deviceId =
      { ofConfig document deviceId with
        enabled := o.enabled || (ofConfig document deviceId).enabled
        baseUrl := (o.baseUrl.map Text.trim).getD (ofConfig document deviceId).baseUrl
        authToken := (o.authToken.map Text.trim).getD (ofConfig document deviceId).authToken } := by
  have henabled : boolField (o.apply document) "enabled" false =
      (o.enabled || boolField document "enabled" false) := by
    cases h : o.enabled with
    | true => exact boolField_apply "enabled" (some true) false (by simp [given?, h])
    | false => exact boolField_apply "enabled" none false (by simp [given?, h])
  have hid : textField (o.apply document) "deviceId" = textField document "deviceId" :=
    textField_apply "deviceId" none rfl
  have hreconnect (usual : Bool) : boolField (o.apply document) "autoReconnect" usual =
      boolField document "autoReconnect" usual :=
    boolField_apply "autoReconnect" none usual rfl
  unfold ofConfig
  rw [henabled, textField_apply "baseUrl" o.baseUrl rfl,
    textField_apply "authToken" o.authToken rfl, hid, hreconnect,
    millisField?_apply "reconnectDelay" rfl, millisField?_apply "pingInterval" rfl]

/-- **An absent option changes nothing.** The overrides of the command line leave an object an
object, and all of it but the cloud section as it was. Of the section they replace the members that
are given and no other, whether it was there or not; where nothing is given the document stays, and
where something is, the section is an object. The cloud settings of the result are switched on if
the overrides say so, have the given address and token without blanks around them, and for the rest
are those of the document, whatever stood in the place of the section. -/
theorem apply_changes_given (o : CloudOverrides) {document : Json}
    (h : document.isObject = true) :
    let result := o.apply document
    result.isObject = true ∧
    (∀ key, key ≠ sectionKey → result.get? key = document.get? key) ∧
    (∀ name, (sectionOf result).get? name =
      (o.given? name).or ((sectionOf document).get? name)) ∧
    (if o = ⟨false, none, none⟩ then result = document
      else (sectionOf result).isObject = true) ∧
    ∀ deviceId, ofConfig result deviceId =
      { ofConfig document deviceId with
        enabled := o.enabled || (ofConfig document deviceId).enabled
        baseUrl := (o.baseUrl.map Text.trim).getD (ofConfig document deviceId).baseUrl
        authToken := (o.authToken.map Text.trim).getD (ofConfig document deviceId).authToken } := by
  refine ⟨isObject_apply h, fun key => get?_apply_of_ne h, get?_section o document, ?_,
    ofConfig_apply o document⟩
  split
  case isTrue hnothing => exact apply_of_nothing (o.members_eq_nil_iff.mpr hnothing)
  case isFalse hgiven =>
    rw [sectionOf_apply (mt o.members_eq_nil_iff.mp hgiven), Json.isObject_merge]
    rfl

/-- An address with blanks around it is given, and no token. -/
theorem apply_changes_given_address :
    let o : CloudOverrides := ⟨true, some " wss://new ", none⟩
    let document : Json := .object
      [("cloudTunnel", .object
          [("authToken", .string "keep"), ("baseUrl", .string "wss://old"),
            ("pingInterval", .ofNat 500)]),
        ("name", .string "pier")]
    let settings := ofConfig (o.apply document) "pier-1"
    document.isObject = true ∧ (o.apply document).get? "name" = some (.string "pier") ∧
      (sectionOf (o.apply document)).get? "pingInterval" = some (.ofNat 500) ∧
      settings.enabled = true ∧ settings.baseUrl = "wss://new" ∧ settings.authToken = "keep" := by
  intro o document settings
  have hdocument : document.isObject = true := rfl
  obtain ⟨-, houtside, hsection, -, hsettings⟩ := apply_changes_given o hdocument
  have hsettings : settings = _ := hsettings "pier-1"
  refine ⟨hdocument, houtside "name" (by decide), hsection "pingInterval", ?_⟩
  rw [hsettings]
  decide +kernel

end CloudOverrides

end DeviceRelay
