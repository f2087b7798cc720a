import DeviceRelay.Proofs.Document.Overlay
import DeviceRelay.Proofs.Document.Alike
import DeviceRelay.Proofs.Json.RoundTrip

/-!
# The masked copy, read again

A masked copy is a document like any other to a reader. What is read for its text has the mask in
the place of each credential, and each number as it is read; laid over the document, that takes the
place of the whole document, since it names every member.

* `Json.credentials`, `Json.numbers`: the texts of a document that are masked, and its numbers.
* `Json.sameBut_redact`: the masked copy has lost texts under the keys of credentials only.
* `Json.reread?_redact_eq_self_iff`: the documents that come back from their masked copies.
* `Json.update_of_reread?_redact`: a document with what is read for its masked copy laid over it.
-/

namespace DeviceRelay

namespace Json

/-! ## Credentials -/

mutual

/-- The texts of a document that are masked, from every depth. -/
def credentials : Json → List String
  | .array items => itemCredentials items
  | .object members => memberCredentials members
  | _ => []
termination_by structural j => j

def itemCredentials : List Json → List String
  | [] => []
  | item :: items => credentials item ++ itemCredentials items
termination_by structural j => j

def memberCredentials : List (String × Json) → List String
  | [] => []
  | m :: ms => credentialsOf m ++ memberCredentials ms
termination_by structural j => j

def credentialsOf : String × Json → List String
  | (key, value) => if isSecret key value then value.string?.toList else credentials value
termination_by structural j => j

end

/-- A masked member holds one text. -/
theorem eq_string_of_isSecret {key : String} {value : Json} (h : isSecret key value = true) :
    ∃ s, value = .string s := by
  have htext := (isSecret_iff.mp h).2
  cases value with
  | string s => exact ⟨s, rfl⟩
  | _ => cases htext

/-! ## Numbers -/

mutual

/-- The numbers of a document, from every depth. -/
def numbers : Json → List Number
  | .number n => [n]
  | .array items => itemNumbers items
  | .object members => memberNumbers members
  | _ => []
termination_by structural j => j

def itemNumbers : List Json → List Number
  | [] => []
  | item :: items => numbers item ++ itemNumbers items
termination_by structural j => j

def memberNumbers : List (String × Json) → List Number
  | [] => []
  | m :: ms => oneMemberNumbers m ++ memberNumbers ms
termination_by structural j => j

def oneMemberNumbers : String × Json → List Number
  | (_, value) => numbers value
termination_by structural j => j

end

mutual

/-- **A document comes back from its masked copy** exactly when each of its credentials is the mask
and each of its numbers is read as itself. -/
theorem reread?_redact_eq_self_iff : {j : Json} →
    (j.redact.reread? = some j ↔
      (∀ c ∈ j.credentials, c = mask) ∧ ∀ n ∈ j.numbers, n.reread? = some n)
  | .number n => by
    change n.reread?.map number = some (number n) ↔ (∀ c ∈ [], c = mask) ∧ ∀ m ∈ [n], _
    simp
  | .array items => by
    rw [redact, reread?, credentials, numbers, Option.map_eq_some_iff]
    simp only [array.injEq, exists_eq_right]
    exact rereadItems?_redactItems_eq_self_iff
  | .object members => by
    rw [redact, reread?, credentials, numbers, Option.map_eq_some_iff]
    simp only [object.injEq, exists_eq_right]
    exact rereadMembers?_redactMembers_eq_self_iff
  | .null | .bool _ | .string _ => iff_of_true rfl ⟨nofun, nofun⟩

theorem rereadItems?_redactItems_eq_self_iff : {items : List Json} →
    (rereadItems? (redactItems items) = some items ↔
      (∀ c ∈ itemCredentials items, c = mask) ∧ ∀ n ∈ itemNumbers items, n.reread? = some n)
  | [] => iff_of_true rfl ⟨nofun, nofun⟩
  | item :: items => by
    have hitem := reread?_redact_eq_self_iff (j := item)
    have hitems : rereadItems? (redactItems items) = some items ↔ _ :=
      rereadItems?_redactItems_eq_self_iff
    rw [redactItems, rereadItems?_cons_eq_some_iff, itemCredentials, itemNumbers,
      List.forall_mem_append, List.forall_mem_append]
    constructor
    · rintro ⟨k, ks', heq, hk, hks⟩
      cases heq
      obtain ⟨hc, hn⟩ := hitem.mp hk
      obtain ⟨hcs, hns⟩ := hitems.mp hks
      exact ⟨⟨hc, hcs⟩, hn, hns⟩
    · rintro ⟨⟨hc, hcs⟩, hn, hns⟩
      exact ⟨item, items, rfl, hitem.mpr ⟨hc, hn⟩, hitems.mpr ⟨hcs, hns⟩⟩

theorem rereadMembers?_redactMembers_eq_self_iff : {members : List (String × Json)} →
    (rereadMembers? (redactMembers members) = some members ↔
      (∀ c ∈ memberCredentials members, c = mask) ∧
        ∀ n ∈ memberNumbers members, n.reread? = some n)
  | [] => iff_of_true rfl ⟨nofun, nofun⟩
  | m :: members => by
    have hm := rereadMember?_redactMember_eq_self_iff (m := m)
    have hmembers : rereadMembers? (redactMembers members) = some members ↔ _ :=
      rereadMembers?_redactMembers_eq_self_iff
    rw [redactMembers, rereadMembers?_cons_eq_some_iff, memberCredentials, memberNumbers,
      List.forall_mem_append, List.forall_mem_append]
    constructor
    · rintro ⟨k, ks', heq, hk, hks⟩
      cases heq
      obtain ⟨hc, hn⟩ := hm.mp hk
      obtain ⟨hcs, hns⟩ := hmembers.mp hks
      exact ⟨⟨hc, hcs⟩, hn, hns⟩
    · rintro ⟨⟨hc, hcs⟩, hn, hns⟩
      exact ⟨m, members, rfl, hm.mpr ⟨hc, hn⟩, hmembers.mpr ⟨hcs, hns⟩⟩

theorem rereadMember?_redactMember_eq_self_iff : {m : String × Json} →
    (rereadMember? (redactMember m) = some m ↔
      (∀ c ∈ credentialsOf m, c = mask) ∧ ∀ n ∈ oneMemberNumbers m, n.reread? = some n)
  | (key, value) => by
    have hvalue := reread?_redact_eq_self_iff (j := value)
    rw [redactMember, rereadMember?_eq_some_iff, credentialsOf, oneMemberNumbers]
    by_cases hs : isSecret key value = true
    · obtain ⟨s, rfl⟩ := eq_string_of_isSecret hs
      rw [if_pos hs, if_pos hs]
      change key = key ∧ some (string mask) = some (string s) ↔
        (∀ c ∈ [s], c = mask) ∧ ∀ n ∈ [], _
      simp [eq_comm]
    · rw [if_neg hs, if_neg hs, hvalue]
      exact and_iff_right rfl

end

/-! ## The masked copy -/

mutual

/-- In its masked copy a document has lost texts under the keys of credentials and nothing else. -/
theorem sameBut_redact : (j : Json) → SameBut isText j j.redact
  | .array items => .array (itemsSameBut_redact items)
  | .object members => .object (membersSameBut_redact members)
  | .null | .bool _ | .number _ | .string _ => .refl _

theorem itemsSameBut_redact : (items : List Json) → ItemsSameBut isText items (redactItems items)
  | [] => .nil
  | item :: items => .cons (sameBut_redact item) (itemsSameBut_redact items)

theorem membersSameBut_redact :
    (members : List (String × Json)) → MembersSameBut isText members (redactMembers members)
  | [] => .nil
  | m :: members => memberSameBut_redact m (membersSameBut_redact members)

theorem memberSameBut_redact :
    (m : String × Json) → {members members' : List (String × Json)} →
      MembersSameBut isText members members' →
        MembersSameBut isText (m :: members) (redactMember m :: members')
  | (key, value), _, _, rest => by
    rw [redactMember]
    by_cases hs : isSecret key value = true
    · obtain ⟨hkey, htext⟩ := isSecret_iff.mp hs
      rw [if_pos hs]
      exact .credential hkey htext (by decide) rest
    · rw [if_neg hs]
      exact .same (sameBut_redact value) rest

end

theorem redactItems_eq_map (items : List Json) : redactItems items = items.map redact := by
  induction items with
  | nil => rfl
  | cons item items ih => exact congrArg (item.redact :: ·) ih

theorem redactMembers_eq_map (members : List (String × Json)) :
    redactMembers members = members.map redactMember := by
  induction members with
  | nil => rfl
  | cons m members ih => exact congrArg (redactMember m :: ·) ih

theorem keysIncrease_redactMembers {members : List (String × Json)} (h : KeysIncrease members) :
    KeysIncrease (redactMembers members) := by
  have hkey (m : String × Json) : (redactMember m).1 = m.1 := by
    cases m
    rfl
  rw [redactMembers_eq_map]
  refine List.pairwise_map.mpr (h.imp fun hlt => ?_)
  rw [hkey, hkey]
  exact hlt

theorem ordered_redact {j : Json} (h : j.Ordered) : j.redact.Ordered := by
  induction h with
  | array _ ih =>
    rw [redact, redactItems_eq_map]
    exact .array (List.forall_mem_map.mpr ih)
  | object keys _ ih =>
    refine .object (keysIncrease_redactMembers keys) ?_
    rw [redactMembers_eq_map]
    refine List.forall_mem_map.mpr fun m hm => ?_
    rw [redactMember]
    split
    · exact .string mask
    · exact ih m hm
  | null => exact .null
  | bool b => exact .bool b
  | number n => exact .number n
  | string s => exact .string s

/-- The masked copy has the masked member under each key. -/
theorem lookup_redactMembers (key : String) (members : List (String × Json)) :
    lookup key (redactMembers members) =
      (lookup key members).map fun value => (redactMember (key, value)).2 := by
  induction members with
  | nil => rfl
  | cons m members ih =>
    obtain ⟨k, value⟩ := m
    rw [redactMembers, lookup_cons, lookup_cons, ih]
    by_cases hk : k = key
    · subst hk
      rw [if_pos rfl, redactMember, if_pos rfl]
      rfl
    · rw [if_neg hk, redactMember, if_neg hk]

/-! ## Laying it over the document -/

theorem lookup_of_rereadMembers? {members ks : List (String × Json)}
    (h : rereadMembers? members = some ks) (key : String) :
    lookup key ks = (lookup key members).bind reread? := by
  induction members generalizing ks with
  | nil =>
    cases h
    rfl
  | cons m members ih =>
    obtain ⟨k, ks', rfl, hk, hks⟩ := rereadMembers?_cons_eq_some_iff.mp h
    obtain ⟨hkey, hk⟩ := rereadMember?_eq_some_iff.mp hk
    rw [lookup_cons, lookup_cons, ih hks, hkey]
    split
    · exact hk.symm
    · rfl

/-- **A document under what is read for its masked copy** is what was read. -/
theorem merge_of_reread?_redact {j k : Json} (h : j.Ordered) (hk : j.redact.reread? = some k) :
    j.merge k = k := by
  -- by the nesting of the document: the copy names each of its members, so each is laid over by
  -- what was read for its own copy, or by the mask
  induction h generalizing k with
  | @object members keys each ih =>
    obtain ⟨ks, hks, rfl⟩ := Option.map_eq_some_iff.mp hk
    have hkeys := keysIncrease_of_rereadMembers? (keysIncrease_redactMembers keys) hks
    rw [merge_object hkeys]
    refine congrArg object
      (members_ext (keysIncrease_mergeMembers keys ks) hkeys fun key => ?_)
    have hcopy := lookup_of_rereadMembers? hks key
    rw [lookup_redactMembers] at hcopy
    cases hvalue : lookup key members with
    | none =>
      rw [hvalue] at hcopy
      exact (lookup_mergeMembers hcopy members).trans (hvalue.trans hcopy.symm)
    | some value =>
      have hshown := lookup_redactMembers key members
      rw [hvalue, Option.map_some] at hshown
      have hmem : key ∈ ks.map Prod.fst :=
        keys_rereadMembers? hks ▸ List.mem_map_of_mem (mem_of_lookup hshown)
      obtain ⟨k, hk⟩ := Option.ne_none_iff_exists'.mp fun hnone =>
        lookup_eq_none_iff.mp hnone hmem
      rw [hvalue, Option.map_some, Option.bind_some, hk, redactMember] at hcopy
      rw [Json.members, lookup_mergeMembers_of_mem hkeys (mem_of_lookup hk), hk, hvalue,
        Option.getD_some]
      by_cases hs : isSecret key value = true
      · rw [if_pos hs] at hcopy
        cases hcopy
        rfl
      · rw [if_neg hs] at hcopy
        exact congrArg some (ih _ (mem_of_lookup hvalue) hcopy.symm)
  | _ => exact merge_eq_patch fun hboth => Bool.false_ne_true hboth.1

theorem isObject_of_reread?_redact {config back : Json} (hobject : config.isObject = true)
    (hback : config.redact.reread? = some back) : back.isObject = true := by
  cases config with
  | object members =>
    obtain ⟨ks, -, rfl⟩ := Option.map_eq_some_iff.mp hback
    rfl
  | _ => cases hobject

/-- An update by what is read for the masked copy leaves nothing else. -/
theorem update_of_reread?_redact {config back : Json} (h : config.Ordered)
    (hobject : config.isObject = true) (hback : config.redact.reread? = some back) :
    config.update back = back := by
  have hmerged := merge_of_reread?_redact h hback
  have hcopy := isObject_of_reread?_redact hobject hback
  cases back with
  | object members => exact hmerged
  | _ => cases hcopy

end Json

end DeviceRelay
