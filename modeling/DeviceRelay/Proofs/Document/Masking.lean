import DeviceRelay.Proofs.Control.Replies

/-!
# What a masked document tells

Two documents may agree but for what stands under the keys of credentials. Their masked copies are
the same exactly when everything they differ in is text: a string that is not empty is masked
whatever it says, and a credential that is a number, an array or an object is shown.

* `Json.SameBut`: two documents agree but for credentials of some kind.
* `Json.redact_eq_redact_iff`: which documents have the same masked copy.
* `ControlProtocol.getConfig_eq_iff`: which documents a reader of the configuration cannot tell
  apart.
* `Json.number_not_masked`: a credential that is shown.
-/

namespace DeviceRelay

namespace Json

/-! ## Documents that differ in credentials -/

/-- A string that is not empty. -/
def isText (j : Json) : Bool := j.string?.any fun s => !s.isEmpty

/-- A value that may hold a credential: a number, or anything of some length. -/
def isFilled : Json → Bool
  | .number _ => true
  | .string s => !s.isEmpty
  | .array items => !items.isEmpty
  | .object members => !members.isEmpty
  | _ => false

mutual

/-- Two documents agree but for credentials of some kind, which stand at the same places. -/
inductive SameBut (kind : Json → Bool) : Json → Json → Prop where
  | refl (j : Json) : SameBut kind j j
  | array {items items' : List Json} (h : ItemsSameBut kind items items') :
      SameBut kind (.array items) (.array items')
  | object {members members' : List (String × Json)} (h : MembersSameBut kind members members') :
      SameBut kind (.object members) (.object members')

inductive ItemsSameBut (kind : Json → Bool) : List Json → List Json → Prop where
  | nil : ItemsSameBut kind [] []
  | cons {item item' : Json} {items items' : List Json} (h : SameBut kind item item')
      (rest : ItemsSameBut kind items items') : ItemsSameBut kind (item :: items) (item' :: items')

inductive MembersSameBut (kind : Json → Bool) :
    List (String × Json) → List (String × Json) → Prop where
  | nil : MembersSameBut kind [] []
  | same {key : String} {value value' : Json} {members members' : List (String × Json)}
      (h : SameBut kind value value') (rest : MembersSameBut kind members members') :
      MembersSameBut kind ((key, value) :: members) ((key, value') :: members')
  | credential {key : String} {value value' : Json} {members members' : List (String × Json)}
      (hkey : secretKeys.contains key = true) (h : kind value = true) (h' : kind value' = true)
      (rest : MembersSameBut kind members members') :
      MembersSameBut kind ((key, value) :: members) ((key, value') :: members')

end

/-! ## Masked copies -/

theorem isSecret_iff {key : String} {value : Json} :
    isSecret key value = true ↔ secretKeys.contains key = true ∧ value.isText = true :=
  Bool.and_eq_true_iff

theorem isSecret_eq {value value' : Json} (h : value.isText = value'.isText) (key : String) :
    isSecret key value = isSecret key value' :=
  congrArg (secretKeys.contains key && ·) h

/-- What stands in the place of a member's value. -/
theorem redactMembers_cons (key : String) (value : Json) (members : List (String × Json)) :
    redactMembers ((key, value) :: members) =
      (key, if isSecret key value then .string mask else redact value) :: redactMembers members :=
  rfl

/-- The mask is a text itself, so no value but a text leaves it behind. -/
theorem isText_of_redact_eq_mask {j : Json} (h : j.redact = .string mask) : j.isText = true := by
  cases j with
  | string s =>
    rw [show redact (.string s) = .string s from rfl] at h
    cases h
    decide
  | _ => cases h

/-- Documents that agree but for credentials are texts together. -/
theorem SameBut.isText_eq {kind : Json → Bool} {a b : Json} (h : SameBut kind a b) :
    a.isText = b.isText := by
  cases h <;> rfl

mutual

/-- Text under the keys of credentials leaves no trace. -/
theorem SameBut.redact_eq {a b : Json} (h : SameBut isText a b) : a.redact = b.redact := by
  cases h with
  | refl => rfl
  | array h => exact congrArg Json.array h.redact_eq
  | object h => exact congrArg Json.object h.redact_eq

theorem ItemsSameBut.redact_eq {items items' : List Json} (h : ItemsSameBut isText items items') :
    redactItems items = redactItems items' := by
  cases h with
  | nil => rfl
  | cons h rest => rw [redactItems, redactItems, h.redact_eq, rest.redact_eq]

theorem MembersSameBut.redact_eq {members members' : List (String × Json)}
    (h : MembersSameBut isText members members') :
    redactMembers members = redactMembers members' := by
  cases h with
  | nil => rfl
  | @same key _ _ _ _ h rest =>
    rw [redactMembers_cons, redactMembers_cons, isSecret_eq h.isText_eq key, h.redact_eq,
      rest.redact_eq]
  | credential hkey h h' rest =>
    rw [redactMembers_cons, redactMembers_cons, if_pos (isSecret_iff.mpr ⟨hkey, h⟩),
      if_pos (isSecret_iff.mpr ⟨hkey, h'⟩), rest.redact_eq]

end

mutual

/-- Nothing else is lost: equal copies come from documents that differ in text only. -/
theorem sameBut_of_redact_eq : {a b : Json} → a.redact = b.redact → SameBut isText a b
  | .array items, .array items', h => .array (itemsSameBut_of_redact_eq (Json.array.inj h))
  | .object members, .object members', h =>
    .object (membersSameBut_of_redact_eq (Json.object.inj h))
  | .null, .null, _ => .refl _
  | .bool _, .bool _, h => Json.bool.inj h ▸ .refl _
  | .number _, .number _, h => Json.number.inj h ▸ .refl _
  | .string _, .string _, h => Json.string.inj h ▸ .refl _

theorem itemsSameBut_of_redact_eq :
    {items items' : List Json} → redactItems items = redactItems items' →
      ItemsSameBut isText items items'
  | [], [], _ => .nil
  | item :: items, item' :: items', h =>
    have hc := List.cons.inj h
    .cons (sameBut_of_redact_eq hc.1) (itemsSameBut_of_redact_eq hc.2)

theorem membersSameBut_of_redact_eq :
    {members members' : List (String × Json)} → redactMembers members = redactMembers members' →
      MembersSameBut isText members members'
  | [], [], _ => .nil
  | m :: members, m' :: members', h =>
    have hc := List.cons.inj h
    memberSameBut_of_redact_eq hc.1 (membersSameBut_of_redact_eq hc.2)

theorem memberSameBut_of_redact_eq :
    {m m' : String × Json} → {members members' : List (String × Json)} →
      redactMember m = redactMember m' → MembersSameBut isText members members' →
      MembersSameBut isText (m :: members) (m' :: members')
  | (key, value), (key', value'), members, members', h, rest => by
    obtain ⟨rfl, hv⟩ := Prod.mk.inj h
    -- The mask is a text: a value that is masked has the copy of a masked value only.
    by_cases hs : isSecret key value = true
    · rw [if_pos hs] at hv
      have hkey := (isSecret_iff.mp hs).1
      refine .credential hkey (isSecret_iff.mp hs).2 ?_ rest
      by_cases hs' : isSecret key value' = true
      · exact (isSecret_iff.mp hs').2
      · rw [if_neg hs'] at hv
        exact isText_of_redact_eq_mask hv.symm
    · rw [if_neg hs] at hv
      by_cases hs' : isSecret key value' = true
      · rw [if_pos hs'] at hv
        exact absurd (isSecret_iff.mpr ⟨(isSecret_iff.mp hs').1, isText_of_redact_eq_mask hv⟩) hs
      · rw [if_neg hs'] at hv
        exact .same (sameBut_of_redact_eq hv) rest

end

/-- **What a masked copy tells** is all but the texts under the keys of credentials. -/
theorem redact_eq_redact_iff {a b : Json} : a.redact = b.redact ↔ SameBut isText a b :=
  ⟨sameBut_of_redact_eq, SameBut.redact_eq⟩

end Json

namespace ControlProtocol

/-- What commands read of a device with another configuration. -/
def withConfig (ctx : ControlContext) (config : Json) : ControlContext :=
  { ctx with facts := { ctx.facts with config := config } }

/-- **What a reader of the configuration learns.** Two devices that differ in their configuration
give the same reply, and have the same masked copy, exactly when the two documents agree but for
texts under the keys of credentials. -/
theorem getConfig_eq_iff {σ : Type} (board : MediaBoard σ) (ctx : ControlContext)
    (client : ClientId) (request : Json) (state : ControlState) (media : σ) (a b : Json) :
    ((execute board (withConfig ctx a) client .getConfig request state media).1 =
        (execute board (withConfig ctx b) client .getConfig request state media).1 ↔
      Json.SameBut Json.isText a b) ∧
    (a.redact = b.redact ↔ Json.SameBut Json.isText a b) := by
  have hshown (config : Json) :
      (execute board (withConfig ctx config) client .getConfig request state media).1 =
        (Reply.ok Command.getConfig.name).set "config" config.redact := rfl
  refine ⟨?_, Json.redact_eq_redact_iff⟩
  rw [hshown, hshown, ← Json.redact_eq_redact_iff]
  constructor
  · intro h
    have hget := congrArg (Reply.get? · "config") h
    simpa only [Reply.get?_set, if_true, Option.some.injEq] using hget
  · intro h
    rw [h]

end ControlProtocol

namespace Json

/-- Two documents that differ in a number under the key of a credential have different copies: each
shows the number. -/
theorem number_not_masked :
    let before : Json := .object [("token", .ofNat 7)]
    let after : Json := .object [("token", .ofNat 8)]
    SameBut isFilled before after ∧ before.redact = before ∧ after.redact = after ∧
      before.redact ≠ after.redact :=
  ⟨.object (.credential (by decide) rfl rfl .nil), rfl, rfl, by decide⟩

end Json

end DeviceRelay
