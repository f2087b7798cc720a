import DeviceRelay.Json.Member
import DeviceRelay.Proofs.Document.Masking
import DeviceRelay.Proofs.Document.Shape
import DeviceRelay.Proofs.Json.Written

/-!
# Reading and changing documents that differ in credentials

Two documents that agree but for credentials stay so when the same is laid over both, since a
credential has nothing that could be merged into. A member under any other key reads the same in
both, down to its own credentials.

* `Json.AlikeUnder`: what two such documents hold under a key.
* `Json.SameBut.text?_eq`: a text under a public key is the same in both.
* `Json.SameBut.update`: an update keeps two documents alike.
-/

namespace DeviceRelay.Json

variable {kind : Json → Bool}

/-! ## Reading -/

/-- The values that two documents may have under a key: credentials, where the key is one of a
credential, or values that agree but for theirs. -/
inductive AlikeUnder (kind : Json → Bool) (key : String) (a b : Json) : Prop where
  | same (h : SameBut kind a b)
  | credential (hkey : secretKeys.contains key = true) (ha : kind a = true) (hb : kind b = true)

theorem AlikeUnder.cons {key : String} {value value' : Json}
    (h : AlikeUnder kind key value value') {members members' : List (String × Json)}
    (rest : MembersSameBut kind members members') :
    MembersSameBut kind ((key, value) :: members) ((key, value') :: members') := by
  cases h with
  | same h => exact .same h rest
  | credential hkey ha hb => exact .credential hkey ha hb rest

theorem MembersSameBut.of_cons {m : String × Json} {members members' : List (String × Json)}
    (h : MembersSameBut kind (m :: members) members') :
    ∃ value' rest', members' = (m.1, value') :: rest' ∧ AlikeUnder kind m.1 m.2 value' ∧
      MembersSameBut kind members rest' := by
  cases h with
  | same h rest => exact ⟨_, _, rfl, .same h, rest⟩
  | credential hkey ha hb rest => exact ⟨_, _, rfl, .credential hkey ha hb, rest⟩

theorem MembersSameBut.lookup (key : String) {members members' : List (String × Json)}
    (h : MembersSameBut kind members members') :
    Option.Rel (AlikeUnder kind key) (lookup key members) (Json.lookup key members') := by
  induction members generalizing members' with
  | nil =>
    cases h
    exact .none
  | cons m members ih =>
    obtain ⟨value', rest', rfl, halike, hrest⟩ := h.of_cons
    rw [lookup_cons, lookup_cons]
    by_cases hk : m.1 = key
    · rw [if_pos hk, if_pos hk]
      exact .some (hk ▸ halike)
    · rw [if_neg hk, if_neg hk]
      exact ih hrest

theorem SameBut.get? (key : String) {a b : Json} (h : SameBut kind a b) :
    Option.Rel (AlikeUnder kind key) (a.get? key) (b.get? key) := by
  cases h with
  | refl =>
    cases a.get? key with
    | none => exact .none
    | some v => exact .some (.same (.refl v))
  | array => exact .none
  | object h => exact h.lookup key

/-- Under a public key documents agree but for what is below it. -/
theorem SameBut.get?_of_public {key : String} (hkey : secretKeys.contains key = false)
    {a b : Json} (h : SameBut kind a b) :
    Option.Rel (SameBut kind) (a.get? key) (b.get? key) := by
  have hmember := h.get? key
  generalize a.get? key = v, b.get? key = w at hmember ⊢
  cases hmember with
  | none => exact .none
  | some hv =>
    obtain hsame | ⟨hsecret, -, -⟩ := hv
    · exact .some hsame
    · cases hkey.symm.trans hsecret

theorem SameBut.field {key : String} (hkey : secretKeys.contains key = false) {a b : Json}
    (h : SameBut kind a b) : SameBut kind (a.field key) (b.field key) := by
  have hmember := h.get?_of_public hkey
  unfold Json.field
  generalize a.get? key = v, b.get? key = w at hmember ⊢
  cases hmember with
  | none => exact .refl _
  | some hsame => exact hsame

theorem SameBut.string?_eq {a b : Json} (h : SameBut kind a b) : a.string? = b.string? := by
  cases h <;> rfl

/-- A text under a public key is the same in both documents. -/
theorem SameBut.text?_eq {key : String} (hkey : secretKeys.contains key = false) {a b : Json}
    (h : SameBut kind a b) : a.text? key = b.text? key := by
  have hmember := h.get?_of_public hkey
  unfold text?
  generalize a.get? key = v, b.get? key = w at hmember ⊢
  cases hmember with
  | none => rfl
  | some hsame => exact hsame.string?_eq

theorem SameBut.bool?_eq {a b : Json} (h : SameBut kind a b) : a.bool? = b.bool? := by
  cases h <;> rfl

/-- A switch under a public key is the same in both documents. -/
theorem SameBut.flag_eq {key : String} (hkey : secretKeys.contains key = false) {a b : Json}
    (h : SameBut kind a b) (usual : Bool) : a.flag key usual = b.flag key usual := by
  have hmember := h.get?_of_public hkey
  unfold flag
  generalize a.get? key = v, b.get? key = w at hmember ⊢
  cases hmember with
  | none => rfl
  | some hsame => exact congrArg (Option.getD · usual) hsame.bool?_eq

/-! ## Changing -/

theorem MembersSameBut.insertMember {key : String} {value value' : Json}
    (hvalue : AlikeUnder kind key value value') {members members' : List (String × Json)}
    (h : MembersSameBut kind members members') :
    MembersSameBut kind (insertMember key value members)
      (Json.insertMember key value' members') := by
  induction members generalizing members' with
  | nil =>
    cases h
    exact hvalue.cons .nil
  | cons m members ih =>
    obtain ⟨_, rest', rfl, halike, hrest⟩ := h.of_cons
    unfold Json.insertMember
    split
    · exact hvalue.cons hrest
    · split
      · exact hvalue.cons (halike.cons hrest)
      · exact halike.cons (ih hrest)

/-- Nothing is left of a text that something is laid over. -/
theorem merge_eq_of_isText {a b : Json} (ha : a.isText = true) (hb : b.isText = true)
    (patch : Json) : a.merge patch = b.merge patch := by
  cases a with
  | string =>
    cases b with
    | string => cases patch <;> rfl
    | _ => cases hb
  | _ => cases ha

mutual

/-- The same laid over two documents keeps them alike. -/
theorem SameBut.merge {a b : Json} (h : SameBut isText a b) :
    (patch : Json) → SameBut isText (a.merge patch) (b.merge patch)
  | .object patch => by
    cases h with
    | refl => exact .refl _
    | array => exact .refl _
    | object h => exact .object (h.mergeMembers patch)
  | .null | .bool _ | .number _ | .string _ | .array _ => .refl _

theorem MembersSameBut.mergeMembers {members members' : List (String × Json)}
    (h : MembersSameBut isText members members') :
    (patch : List (String × Json)) →
      MembersSameBut isText (mergeMembers members patch) (Json.mergeMembers members' patch)
  | [] => h
  | m :: patch => (h.mergeMember m).mergeMembers patch

theorem MembersSameBut.mergeMember {members members' : List (String × Json)}
    (h : MembersSameBut isText members members') :
    (m : String × Json) →
      MembersSameBut isText (mergeMember members m) (Json.mergeMember members' m)
  | (key, value) => by
    have hmember := h.lookup key
    refine h.insertMember (.same ?_)
    generalize lookup key members = v, lookup key members' = w at hmember ⊢
    cases hmember with
    | none => exact .refl _
    | some hv =>
      obtain hsame | ⟨-, ha, hb⟩ := hv
      · exact hsame.merge value
      · exact merge_eq_of_isText ha hb value ▸ .refl _

end

/-- **An update keeps documents alike**, whatever it changes. -/
theorem SameBut.update {a b : Json} (h : SameBut isText a b) (change : Json) :
    SameBut isText (a.update change) (b.update change) := by
  rw [update_eq_foldl, update_eq_foldl]
  generalize change.patches = patches
  induction patches generalizing a b with
  | nil => exact h
  | cons patch patches ih => exact ih (h.merge patch)

end DeviceRelay.Json
