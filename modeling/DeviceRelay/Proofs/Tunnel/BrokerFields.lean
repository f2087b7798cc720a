import DeviceRelay.Proofs.Json.Written
import DeviceRelay.Tunnel.BrokerMessage

/-!
# The fields of a broker message

Which texts give the three fields of a broker message, and which fields they give.

* `BrokerFields.FieldAt`: a field is written once and read, or not written at all.
* `BrokerFields.read_eq_some_iff`: a text gives fields where it is an object with these fields, or
  an array that starts with a kind and goes on with at most two values.
-/

namespace DeviceRelay.BrokerFields

open Json

/-! ## One field -/

/-- A kind stands at the front of the text. -/
def KindAt (s : List Char) (kind : String) : Prop := ∃ t, Reads innerDepth s (.string kind) t

/-- A URL, which is any value, stands at the front of the text. -/
def UrlAt (s : List Char) (v : Json) : Prop := ∃ t, Reads innerDepth s v t

/-- The field `key` of an object whose values stand at these places. -/
def FieldAt {α : Type} (V : List Char → α → Prop) (key : String)
    (places : List (String × List Char)) (o : Option α) : Prop :=
  (values key places = [] ∧ o = Option.none) ∨
    ∃ p a, values key places = [p] ∧ V p a ∧ o = some a

/-- One member more: another key leaves the field alone, its own key fills it once. -/
def Fills {α : Type} (V : List Char → α → Prop) (key : String) (m : String × List Char)
    (o o' : Option α) : Prop :=
  (m.1 ≠ key ∧ o' = o) ∨ (m.1 = key ∧ o = Option.none ∧ ∃ a, V m.2 a ∧ o' = some a)

/-- The field after further members, where it may have been filled before. -/
def FieldFrom {α : Type} (V : List Char → α → Prop) (key : String) (o : Option α)
    (places : List (String × List Char)) (o' : Option α) : Prop :=
  (values key places = [] ∧ o' = o) ∨
    (o = Option.none ∧ ∃ p a, values key places = [p] ∧ V p a ∧ o' = some a)

section Field

variable {α : Type} {V : List Char → α → Prop} {key : String} {m : String × List Char}
  {places : List (String × List Char)} {o o' : Option α}

theorem fills_of_ne (h : m.1 ≠ key) : Fills V key m o o' ↔ o' = o :=
  ⟨fun hf => hf.elim And.right fun hf => absurd hf.1 h, fun hf => .inl ⟨h, hf⟩⟩

theorem fills_of_eq (h : m.1 = key) :
    Fills V key m o o' ↔ o = Option.none ∧ ∃ a, V m.2 a ∧ o' = some a :=
  ⟨fun hf => hf.elim (fun hf => absurd h hf.1) And.right, fun hf => .inr ⟨h, hf⟩⟩

theorem fieldFrom_none :
    FieldFrom V key Option.none places o ↔ FieldAt V key places o := by
  unfold FieldFrom FieldAt
  simp only [true_and]

theorem fieldFrom_nil : FieldFrom V key o [] o' ↔ o' = o := by
  constructor
  · rintro (⟨-, h⟩ | ⟨-, p, a, h, -⟩)
    · exact h
    · cases h
  · exact fun h => .inl ⟨rfl, h⟩

theorem fieldFrom_cons :
    FieldFrom V key o (m :: places) o' ↔
      ∃ o₁, Fills V key m o o₁ ∧ FieldFrom V key o₁ places o' := by
  unfold FieldFrom Fills
  by_cases h : m.1 = key
  · rw [values_cons_of_eq h]
    constructor
    · rintro (⟨hv, -⟩ | ⟨rfl, p, a, hv, ha, rfl⟩)
      · cases hv
      · obtain ⟨rfl, hnil⟩ := List.cons.inj hv
        exact ⟨some a, .inr ⟨h, rfl, a, ha, rfl⟩, .inl ⟨hnil, rfl⟩⟩
    · rintro ⟨o₁, ⟨hne, -⟩ | ⟨-, rfl, a, ha, rfl⟩, ⟨hv, rfl⟩ | ⟨hn, -⟩⟩
      · exact absurd h hne
      · exact absurd h hne
      · exact .inr ⟨rfl, m.2, a, by rw [hv], ha, rfl⟩
      · cases hn
  · rw [values_cons_of_ne h]
    constructor
    · exact fun hf => ⟨o, .inl ⟨h, rfl⟩, hf⟩
    · rintro ⟨o₁, ⟨-, rfl⟩ | ⟨heq, -⟩, hf⟩
      · exact hf
      · exact absurd heq h

end Field

/-! ## Members that are added -/

/-- The fields with one more member, whose value stands at a place. -/
def addField (fields : BrokerFields) (m : String × List Char) : Option BrokerFields :=
  (readField fields m.1 m.2).map Prod.fst

theorem readKind_iff {s t : List Char} {kind : String} :
    (∃ h, readKind s = some (kind, ⟨t, h⟩)) ↔ Reads innerDepth s (.string kind) t := by
  rw [reads_string_iff]
  unfold readKind
  constructor
  · rintro ⟨ht, h⟩
    split at h
    · cases h
    · rename_i c r hs
      split at h
      · rename_i hc
        subst hc
        split at h
        · rename_i k u hk
          cases h
          exact ⟨r, hs, u.2, hk⟩
        · cases h
      · cases h
  · rintro ⟨r, hs, hr, hk⟩
    refine ⟨Nat.lt_trans hr (length_of_skipBlanks hs), ?_⟩
    split
    · rename_i h'; rw [hs] at h'; cases h'
    · rename_i h'
      rw [hs] at h'
      cases h'
      rw [if_pos rfl]
      split
      · rename_i hk'; rw [hk] at hk'; cases hk'; rfl
      · rename_i hk'; rw [hk] at hk'; cases hk'

theorem readUrl_iff {s t : List Char} {v : Json} :
    (∃ h, readUrl s = some (v, ⟨t, h⟩)) ↔ Reads innerDepth s v t := by
  unfold readUrl Reads fieldDepth innerDepth
  cases readValue (maxDepth - 1) s with
  | error e => exact ⟨fun ⟨_, h⟩ => (nomatch h), fun ⟨_, h⟩ => (nomatch h)⟩
  | ok a =>
    constructor
    · rintro ⟨h, h'⟩
      cases h'
      exact ⟨h, rfl⟩
    · rintro ⟨h, h'⟩
      cases h'
      exact ⟨h, rfl⟩

theorem skipValue_map_iff {fields f : BrokerFields} {s t : List Char} :
    (∃ h, ((skipValue s).map fun r => (fields, r)) = some (f, ⟨t, h⟩)) ↔
      SkipAt s t ∧ f = fields := by
  unfold SkipAt
  cases skipValue s with
  | none => exact ⟨fun ⟨_, h⟩ => (nomatch h), fun ⟨⟨_, h⟩, _⟩ => (nomatch h)⟩
  | some r =>
    constructor
    · rintro ⟨h, heq⟩
      cases heq
      exact ⟨⟨h, rfl⟩, rfl⟩
    · rintro ⟨⟨h, heq⟩, rfl⟩
      cases heq
      exact ⟨h, rfl⟩

/-- A field that may be filled once, read from a value. -/
theorem fill_iff {α : Type} {o : Option α} {s t : List Char} {read : Option (α × Rest s)}
    {R : α → Prop} (hread : ∀ v, (∃ h, read = some (v, ⟨t, h⟩)) ↔ R v) {g : α → BrokerFields}
    {put : α × Rest s → BrokerFields × Rest s} (hput : ∀ v r, put (v, r) = (g v, r))
    {f : BrokerFields} :
    (∃ h, (if o.isSome then Option.none else read.map put) = some (f, ⟨t, h⟩)) ↔
      o = Option.none ∧ ∃ v, R v ∧ f = g v := by
  cases o with
  | some a => exact ⟨fun ⟨_, h⟩ => (nomatch h), fun ⟨h, _⟩ => (nomatch h)⟩
  | none =>
    rw [if_neg (by simp)]
    constructor
    · rintro ⟨h, heq⟩
      obtain ⟨⟨v, r⟩, hr, heq⟩ := Option.map_eq_some_iff.mp heq
      rw [hput] at heq
      cases heq
      exact ⟨rfl, v, (hread v).mp ⟨h, hr⟩, rfl⟩
    · rintro ⟨-, v, hv, rfl⟩
      obtain ⟨h, hr⟩ := (hread v).mpr hv
      exact ⟨h, by rw [hr, Option.map_some, hput]⟩

theorem eq_iff {f g : BrokerFields} :
    f = g ↔ f.kind = g.kind ∧ f.uiUrl = g.uiUrl ∧ f.deviceUrl = g.deviceUrl := by
  cases f
  cases g
  simp only [mk.injEq]

/-- What a field reader accepts of a key is what fills the three fields. -/
theorem readField_iff {fields f : BrokerFields} {m : String × List Char} {t : List Char} :
    (∃ h, readField fields m.1 m.2 = some (f, ⟨t, h⟩)) ↔
      SkipAt m.2 t ∧ Fills KindAt "type" m fields.kind f.kind ∧
        Fills UrlAt "ui_ws_url" m fields.uiUrl f.uiUrl ∧
        Fills UrlAt "device_ws_url" m fields.deviceUrl f.deviceUrl := by
  have hu : "ui_ws_url" ≠ "type" := by decide
  have hd : "device_ws_url" ≠ "type" := by decide
  have hdu : "device_ws_url" ≠ "ui_ws_url" := by decide
  unfold readField
  by_cases hk : m.1 = "type"
  · rw [if_pos hk, fills_of_eq hk, fills_of_ne (by rw [hk]; exact hu.symm),
      fills_of_ne (by rw [hk]; exact hd.symm)]
    refine (fill_iff (fun _ => readKind_iff) fun _ _ => rfl).trans ?_
    constructor
    · rintro ⟨hn, v, hv, rfl⟩
      exact ⟨hv.skipAt, ⟨hn, v, ⟨t, hv⟩, rfl⟩, rfl, rfl⟩
    · rintro ⟨hs, ⟨hn, v, ⟨t', hv⟩, hf⟩, hfu, hfd⟩
      rw [hs.unique hv.skipAt]
      exact ⟨hn, v, hv, eq_iff.mpr ⟨hf, hfu, hfd⟩⟩
  rw [if_neg hk, fills_of_ne hk]
  by_cases hku : m.1 = "ui_ws_url"
  · rw [if_pos hku, fills_of_eq hku, fills_of_ne (by rw [hku]; exact hdu.symm)]
    refine (fill_iff (fun _ => readUrl_iff) fun _ _ => rfl).trans ?_
    constructor
    · rintro ⟨hn, v, hv, rfl⟩
      exact ⟨hv.skipAt, rfl, ⟨hn, v, ⟨t, hv⟩, rfl⟩, rfl⟩
    · rintro ⟨hs, hf, ⟨hn, v, ⟨t', hv⟩, hfu⟩, hfd⟩
      rw [hs.unique hv.skipAt]
      exact ⟨hn, v, hv, eq_iff.mpr ⟨hf, hfu, hfd⟩⟩
  rw [if_neg hku, fills_of_ne hku]
  by_cases hkd : m.1 = "device_ws_url"
  · rw [if_pos hkd, fills_of_eq hkd]
    refine (fill_iff (fun _ => readUrl_iff) fun _ _ => rfl).trans ?_
    constructor
    · rintro ⟨hn, v, hv, rfl⟩
      exact ⟨hv.skipAt, rfl, rfl, ⟨hn, v, ⟨t, hv⟩, rfl⟩⟩
    · rintro ⟨hs, hf, hfu, ⟨hn, v, ⟨t', hv⟩, hfd⟩⟩
      rw [hs.unique hv.skipAt]
      exact ⟨hn, v, hv, eq_iff.mpr ⟨hf, hfu, hfd⟩⟩
  rw [if_neg hkd, fills_of_ne hkd, skipValue_map_iff, eq_iff]

theorem addField_iff {fields f : BrokerFields} {m : String × List Char} {t : List Char}
    (hs : SkipAt m.2 t) :
    addField fields m = some f ↔ Fills KindAt "type" m fields.kind f.kind ∧
      Fills UrlAt "ui_ws_url" m fields.uiUrl f.uiUrl ∧
      Fills UrlAt "device_ws_url" m fields.deviceUrl f.deviceUrl := by
  unfold addField
  rw [Option.map_eq_some_iff]
  constructor
  · rintro ⟨⟨g, r⟩, hr, rfl⟩
    exact (readField_iff.mp ⟨r.2, hr⟩).2
  · intro h
    obtain ⟨_, hr⟩ := readField_iff.mpr ⟨hs, h⟩
    exact ⟨_, hr, rfl⟩

/-- Members added one after the other fill each of the three fields. -/
theorem foldlM_addField_iff {fields f : BrokerFields} {places : List (String × List Char)}
    (hs : ∀ p ∈ places, ∃ t, SkipAt p.2 t) :
    places.foldlM addField fields = some f ↔ FieldFrom KindAt "type" fields.kind places f.kind ∧
      FieldFrom UrlAt "ui_ws_url" fields.uiUrl places f.uiUrl ∧
      FieldFrom UrlAt "device_ws_url" fields.deviceUrl places f.deviceUrl := by
  induction places generalizing fields with
  | nil =>
    rw [fieldFrom_nil, fieldFrom_nil, fieldFrom_nil, ← eq_iff]
    exact ⟨fun h => by cases h; rfl, fun h => by cases h; rfl⟩
  | cons m places ih =>
    obtain ⟨t, ht⟩ := hs m List.mem_cons_self
    have ih := fun g => @ih g fun p hp => hs p (List.mem_cons_of_mem _ hp)
    rw [List.foldlM_cons, fieldFrom_cons, fieldFrom_cons, fieldFrom_cons]
    constructor
    · intro h
      obtain ⟨g, hg, h⟩ := Option.bind_eq_some_iff.mp h
      obtain ⟨hk, hu, hd⟩ := (addField_iff ht).mp hg
      obtain ⟨hk', hu', hd'⟩ := (ih g).mp h
      exact ⟨⟨_, hk, hk'⟩, ⟨_, hu, hu'⟩, ⟨_, hd, hd'⟩⟩
    · rintro ⟨⟨kind, hk, hk'⟩, ⟨ui, hu, hu'⟩, ⟨device, hd, hd'⟩⟩
      exact Option.bind_eq_some_iff.mpr
        ⟨⟨kind, ui, device⟩, (addField_iff ht).mpr ⟨hk, hu, hd⟩, (ih _).mpr ⟨hk', hu', hd'⟩⟩

/-! ## Objects -/

theorem readMember_iff {fields f : BrokerFields} {s u : List Char} :
    (∃ h, readMember fields s = some (f, ⟨u, h⟩)) ↔ ∃ k r v, StringAt s k r ∧
      skipBlanks r = ':' :: v ∧ SkipAt v u ∧ addField fields (k, v) = some f := by
  unfold readMember addField
  constructor
  · rintro ⟨hu, h⟩
    split at h
    · cases h
    · rename_i k r hk
      split at h
      · cases h
      · rename_i v hc
        obtain ⟨⟨g, w⟩, hg, heq⟩ := Option.map_eq_some_iff.mp h
        cases heq
        obtain ⟨hs, -⟩ := (readField_iff (m := (k, v.1))).mp ⟨w.2, hg⟩
        exact ⟨k, r.1, v.1, ⟨r.2, hk⟩, readColon_iff.mp ⟨v.2, hc⟩, hs, by rw [hg]; rfl⟩
  · rintro ⟨k, r, v, ⟨hr, hk⟩, hc, hs, ha⟩
    obtain ⟨⟨g, w⟩, hg, rfl⟩ := Option.map_eq_some_iff.mp ha
    obtain ⟨hs', -⟩ := (readField_iff (m := (k, v))).mp ⟨w.2, hg⟩
    cases hs.unique hs'
    obtain ⟨hv, hc⟩ := readColon_iff.mpr hc
    refine ⟨Nat.lt_trans w.2 (Nat.lt_trans hv hr), ?_⟩
    rw [hk]
    dsimp only
    rw [hc]
    dsimp only at hg ⊢
    rw [hg]
    rfl

theorem readMembers_close {fields f : BrokerFields} {s t : List Char} {r : Rest s}
    (hm : readMember fields s = some (f, r)) (h : skipBlanks r.1 = '}' :: t) :
    readMembers fields s = some (f, t) := by
  rw [readMembers.eq_def, hm]
  dsimp only
  split
  · rename_i h'; rw [h] at h'; cases h'; rfl
  · rename_i h'; rw [h] at h'; cases h'
  · rename_i h' _; exact absurd h (h' t)

theorem readMembers_comma {fields f : BrokerFields} {s w x : List Char} {r : Rest s}
    (hm : readMember fields s = some (f, r)) (h : skipBlanks r.1 = ',' :: w)
    (hq : skipBlanks w = '"' :: x) : readMembers fields s = readMembers f x := by
  rw [readMembers.eq_def, hm]
  dsimp only
  split
  · rename_i h'; rw [h] at h'; cases h'
  · rename_i h'
    rw [h] at h'
    cases h'
    split
    · rename_i h''; rw [hq] at h''; cases h''; rfl
    · rename_i h''; exact absurd hq (h'' x)
  · rename_i _ h'; exact absurd h (h' w)

theorem readMembers_cases {fields f : BrokerFields} {s t : List Char}
    (h : readMembers fields s = some (f, t)) :
    ∃ g r, readMember fields s = some (g, r) ∧ ((skipBlanks r.1 = '}' :: t ∧ f = g) ∨
      ∃ w x, skipBlanks r.1 = ',' :: w ∧ skipBlanks w = '"' :: x ∧
        readMembers g x = some (f, t)) := by
  rw [readMembers.eq_def] at h
  split at h
  · cases h
  · rename_i g r hm
    refine ⟨g, r, hm, ?_⟩
    split at h
    · rename_i hc
      cases h
      exact .inl ⟨hc, rfl⟩
    · rename_i w hc
      split at h
      · rename_i x hq
        exact .inr ⟨w, x, hc, hq, h⟩
      · cases h
    · cases h

/-- Members are read where they are written, each skipped or read as its key says. -/
theorem readMembers_iff {fields f : BrokerFields} {s t : List Char} :
    readMembers fields s = some (f, t) ↔
      ∃ places, Members Located s places t ∧ places.foldlM addField fields = some f := by
  constructor
  · intro h
    induction hn : s.length using Nat.strongRecOn generalizing fields s with
    | _ n ih =>
      obtain ⟨g, r, hm, hcase⟩ := readMembers_cases h
      obtain ⟨k, u, v, hk, hc, hs, hadd⟩ := readMember_iff.mp ⟨r.2, hm⟩
      rcases hcase with ⟨hclose, rfl⟩ | ⟨w, x, hw, hq, h⟩
      · refine ⟨[(k, v)], .close hk hc ⟨rfl, hs⟩ hclose, ?_⟩
        rw [List.foldlM_cons, hadd]
        rfl
      · have hlt : x.length < s.length :=
          Nat.lt_trans (length_of_skipBlanks hq) (Nat.lt_trans (length_of_skipBlanks hw) r.2)
        obtain ⟨places, hp, hfold⟩ := ih _ (hn ▸ hlt) h rfl
        refine ⟨(k, v) :: places, .comma hk hc ⟨rfl, hs⟩ hw hq hp, ?_⟩
        rw [List.foldlM_cons, hadd]
        exact hfold
  · rintro ⟨places, hp, hfold⟩
    induction hp generalizing fields with
    | @close s r v u t k p hk hc ha h =>
      obtain ⟨rfl, hs⟩ := ha
      obtain ⟨g, hadd, hfold⟩ := Option.bind_eq_some_iff.mp hfold
      cases hfold
      obtain ⟨_, hm⟩ := readMember_iff.mpr ⟨k, r, p, hk, hc, hs, hadd⟩
      exact readMembers_close hm h
    | @comma s r v u w x t k p places hk hc ha h hq _ ih =>
      obtain ⟨rfl, hs⟩ := ha
      obtain ⟨g, hadd, hfold⟩ := Option.bind_eq_some_iff.mp hfold
      obtain ⟨_, hm⟩ := readMember_iff.mpr ⟨k, r, p, hk, hc, hs, hadd⟩
      rw [readMembers_comma hm h hq]
      exact ih hfold

theorem skipAt_of_members {s t : List Char} {places : List (String × List Char)}
    (h : Members Located s places t) : ∀ p ∈ places, ∃ u, SkipAt p.2 u := by
  induction h with
  | close _ _ ha _ =>
    intro p hp
    cases List.mem_singleton.mp hp
    obtain ⟨rfl, hs⟩ := ha
    exact ⟨_, hs⟩
  | comma _ _ ha _ _ _ ih =>
    intro p hp
    rcases List.mem_cons.mp hp with rfl | hp
    · obtain ⟨rfl, hs⟩ := ha
      exact ⟨_, hs⟩
    · exact ih p hp

/-! ## Arrays -/

theorem readField_kind {s t : List Char} {f : BrokerFields} :
    (∃ h, readField none "type" s = some (f, ⟨t, h⟩)) ↔
      ∃ kind, Reads innerDepth s (.string kind) t ∧ f = ⟨some kind, Option.none, Option.none⟩ := by
  unfold readField
  rw [if_pos rfl]
  exact (fill_iff (fun _ => readKind_iff) fun _ _ => rfl).trans ⟨And.right, fun h => ⟨rfl, h⟩⟩

theorem readField_uiUrl {kind : Option String} {s t : List Char} {f : BrokerFields} :
    (∃ h, readField ⟨kind, Option.none, Option.none⟩ "ui_ws_url" s = some (f, ⟨t, h⟩)) ↔
      ∃ v, Reads innerDepth s v t ∧ f = ⟨kind, some v, Option.none⟩ := by
  unfold readField
  rw [if_neg (by decide), if_pos rfl]
  exact (fill_iff (fun _ => readUrl_iff) fun _ _ => rfl).trans ⟨And.right, fun h => ⟨rfl, h⟩⟩

theorem readField_deviceUrl {kind : Option String} {ui : Option Json} {s t : List Char}
    {f : BrokerFields} :
    (∃ h, readField ⟨kind, ui, Option.none⟩ "device_ws_url" s = some (f, ⟨t, h⟩)) ↔
      ∃ v, Reads innerDepth s v t ∧ f = ⟨kind, ui, some v⟩ := by
  unfold readField
  rw [if_neg (by decide), if_neg (by decide), if_pos rfl]
  exact (fill_iff (fun _ => readUrl_iff) fun _ _ => rfl).trans ⟨And.right, fun h => ⟨rfl, h⟩⟩

theorem readElements_nil_iff {fields f : BrokerFields} {s t : List Char} :
    readElements fields [] s = some (f, t) ↔ skipBlanks s = ']' :: t ∧ f = fields := by
  rw [readElements.eq_def]
  dsimp only
  split
  · rename_i u h
    constructor
    · intro h'
      cases h'
      exact ⟨h, rfl⟩
    · rintro ⟨h', rfl⟩
      rw [h] at h'
      cases h'
      rfl
  · rename_i h
    rw [h]
    exact ⟨nofun, fun ⟨h', _⟩ => (nomatch h')⟩
  · rename_i h _
    exact ⟨nofun, fun ⟨h', _⟩ => absurd h' (h t)⟩

theorem readElements_cons_iff {fields f : BrokerFields} {key : String} {keys : List String}
    {s t : List Char} :
    readElements fields (key :: keys) s = some (f, t) ↔
      (skipBlanks s = ']' :: t ∧ f = fields) ∨ ∃ w u g, skipBlanks s = ',' :: w ∧
        (∃ h, readField fields key w = some (g, ⟨u, h⟩)) ∧
        readElements g keys u = some (f, t) := by
  rw [readElements.eq_def]
  dsimp only
  split
  · rename_i u h
    rw [h]
    constructor
    · intro h'
      cases h'
      exact .inl ⟨rfl, rfl⟩
    · rintro (⟨h', rfl⟩ | ⟨w, u, g, h', -⟩)
      · cases h'
        rfl
      · cases h'
  · rename_i w h
    rw [h]
    constructor
    · intro h'
      split at h'
      · rename_i g r hr
        exact .inr ⟨w, r.1, g, rfl, ⟨r.2, hr⟩, h'⟩
      · cases h'
    · rintro (⟨h', rfl⟩ | ⟨w, u, g, h', ⟨_, hr⟩, hrest⟩)
      · cases h'
      · cases h'
        rw [hr]
        exact hrest
  · rename_i hclose hcomma
    constructor
    · nofun
    · rintro (⟨h', -⟩ | ⟨w, u, g, h', -⟩)
      · exact absurd h' (hclose t)
      · exact absurd h' (hcomma w)

/-- An array gives fields where it starts with a kind and goes on with at most two values. -/
theorem readArray_iff {r t : List Char} {f : BrokerFields} :
    (∃ fields u, (∃ h, readField none "type" r = some (fields, ⟨u, h⟩)) ∧
        readElements fields ["ui_ws_url", "device_ws_url"] u = some (f, t)) ↔
      ∃ kind urls, Items (Reads innerDepth) r (.string kind :: urls) t ∧ urls.length ≤ 2 ∧
        f = ⟨some kind, urls[0]?, urls[1]?⟩ := by
  constructor
  · rintro ⟨fields, u, hr, hrest⟩
    obtain ⟨kind, hk, rfl⟩ := readField_kind.mp hr
    rcases readElements_cons_iff.mp hrest with ⟨hclose, rfl⟩ | ⟨w, v, g, hw, hr, hrest⟩
    · exact ⟨kind, [], .items hk (.close hclose), by decide, rfl⟩
    obtain ⟨ui, hui, rfl⟩ := readField_uiUrl.mp hr
    rcases readElements_cons_iff.mp hrest with ⟨hclose, rfl⟩ | ⟨x, y, g, hx, hr, hrest⟩
    · exact ⟨kind, [ui], .items hk (.comma hw hui (.close hclose)), Nat.le_succ 1, rfl⟩
    obtain ⟨device, hd, rfl⟩ := readField_deviceUrl.mp hr
    obtain ⟨hclose, rfl⟩ := readElements_nil_iff.mp hrest
    exact ⟨kind, [ui, device], .items hk (.comma hw hui (.comma hx hd (.close hclose))),
      Nat.le_refl 2, rfl⟩
  · rintro ⟨kind, urls, hitems, hlen, rfl⟩
    cases hitems with
    | items hk hm =>
    refine ⟨_, _, readField_kind.mpr ⟨kind, hk, rfl⟩, ?_⟩
    cases hm with
    | close hclose => exact readElements_cons_iff.mpr (.inl ⟨hclose, rfl⟩)
    | comma hw hui hm =>
    refine readElements_cons_iff.mpr
      (.inr ⟨_, _, _, hw, readField_uiUrl.mpr ⟨_, hui, rfl⟩, ?_⟩)
    cases hm with
    | close hclose => exact readElements_cons_iff.mpr (.inl ⟨hclose, rfl⟩)
    | comma hx hd hm =>
    refine readElements_cons_iff.mpr
      (.inr ⟨_, _, _, hx, readField_deviceUrl.mpr ⟨_, hd, rfl⟩, ?_⟩)
    cases hm with
    | close hclose => exact readElements_nil_iff.mpr ⟨hclose, rfl⟩
    | comma => exact absurd hlen (by simp)

/-! ## Whole texts -/

theorem readBody_brace {s r : List Char} (hs : skipBlanks s = '{' :: r) :
    readBody s = match skipBlanks r with
      | '}' :: t => some (none, t)
      | '"' :: t => readMembers none t
      | _ => Option.none := by
  unfold readBody
  rw [hs]
  rfl

theorem readBody_bracket {s r : List Char} (hs : skipBlanks s = '[' :: r) :
    readBody s = match readField none "type" r with
      | some (fields, t) => readElements fields ["ui_ws_url", "device_ws_url"] t.1
      | Option.none => Option.none := by
  unfold readBody
  rw [hs]
  rfl

theorem readBody_object {s r : List Char} (hs : skipBlanks s = '{' :: r) {f : BrokerFields}
    {t : List Char} :
    readBody s = some (f, t) ↔
      ∃ places, ObjectAt Located r places t ∧ places.foldlM addField none = some f := by
  rw [readBody_brace hs]
  constructor
  · intro h
    split at h
    · rename_i u hc
      cases h
      exact ⟨[], .empty hc, rfl⟩
    · rename_i u hq
      obtain ⟨places, hp, hfold⟩ := readMembers_iff.mp h
      exact ⟨places, .members hq hp, hfold⟩
    · cases h
  · rintro ⟨places, hat, hfold⟩
    cases hat with
    | empty hc =>
      rw [hc]
      cases hfold
      rfl
    | members hq hp =>
      rw [hq]
      exact readMembers_iff.mpr ⟨places, hp, hfold⟩

theorem readBody_array {s r : List Char} (hs : skipBlanks s = '[' :: r) {f : BrokerFields}
    {t : List Char} :
    readBody s = some (f, t) ↔ ∃ kind urls, Items (Reads innerDepth) r (.string kind :: urls) t ∧
      urls.length ≤ 2 ∧ f = ⟨some kind, urls[0]?, urls[1]?⟩ := by
  rw [← readArray_iff, readBody_bracket hs]
  constructor
  · intro h
    split at h
    · rename_i fields u hr
      exact ⟨fields, u.1, ⟨u.2, hr⟩, h⟩
    · cases h
  · rintro ⟨fields, u, ⟨_, hr⟩, h⟩
    rw [hr]
    exact h

theorem readBody_eq_some {s t : List Char} {f : BrokerFields} (h : readBody s = some (f, t)) :
    ∃ r, skipBlanks s = '{' :: r ∨ skipBlanks s = '[' :: r := by
  unfold readBody at h
  split at h
  · rename_i r hs
    exact ⟨r, .inl hs⟩
  · rename_i r hs
    exact ⟨r, .inr hs⟩
  · cases h

theorem skipAt_of_written {text : List Char} {places : List (String × List Char)}
    (h : Written Located text places) : ∀ p ∈ places, ∃ t, SkipAt p.2 t := by
  obtain ⟨r, t, -, hat, -⟩ := h
  cases hat with
  | empty => nofun
  | members _ hp => exact skipAt_of_members hp

/-- The three fields of an object whose values stand at these places. -/
def Fields (places : List (String × List Char)) (f : BrokerFields) : Prop :=
  FieldAt KindAt "type" places f.kind ∧ FieldAt UrlAt "ui_ws_url" places f.uiUrl ∧
    FieldAt UrlAt "device_ws_url" places f.deviceUrl

theorem fields_iff {places : List (String × List Char)} {f : BrokerFields}
    (hs : ∀ p ∈ places, ∃ t, SkipAt p.2 t) :
    places.foldlM addField none = some f ↔ Fields places f := by
  unfold Fields
  rw [foldlM_addField_iff hs, ← fieldFrom_none, ← fieldFrom_none, ← fieldFrom_none]
  rfl

theorem read_eq_some_iff_body {text : String} {f : BrokerFields} :
    read text = some f ↔ ∃ t, readBody text.toList = some (f, t) ∧ skipBlanks t = [] := by
  unfold read
  constructor
  · intro h
    obtain ⟨⟨g, t⟩, hb, h⟩ := Option.bind_eq_some_iff.mp h
    dsimp only at h
    split at h
    · rename_i ht
      cases h
      exact ⟨t, hb, List.isEmpty_iff.mp ht⟩
    · cases h
  · rintro ⟨t, hb, ht⟩
    refine Option.bind_eq_some_iff.mpr ⟨_, hb, ?_⟩
    dsimp only
    rw [ht]
    rfl

/-- **The texts that give fields.** An object gives them where each is written at most once and
can be read, an array where it starts with a kind and goes on with at most two values. -/
theorem read_eq_some_iff {text : String} {f : BrokerFields} :
    read text = some f ↔ (∃ places, Written Located text.toList places ∧ Fields places f) ∨
      ∃ kind urls, parse text = .ok (.array (.string kind :: urls)) ∧ urls.length ≤ 2 ∧
        f = ⟨some kind, urls[0]?, urls[1]?⟩ := by
  rw [read_eq_some_iff_body]
  constructor
  · rintro ⟨t, hb, ht⟩
    obtain ⟨r, hs | hs⟩ := readBody_eq_some hb
    · obtain ⟨places, hat, hfold⟩ := (readBody_object hs).mp hb
      have hw : Written Located text.toList places := ⟨r, t, hs, hat, ht⟩
      exact .inl ⟨places, hw, (fields_iff (skipAt_of_written hw)).mp hfold⟩
    · obtain ⟨kind, urls, hitems, hlen, rfl⟩ := (readBody_array hs).mp hb
      exact .inr ⟨kind, urls, parse_eq_ok_iff.mpr ⟨t, reads_array_iff.mpr ⟨r, hs, hitems⟩, ht⟩,
        hlen, rfl⟩
  · rintro (⟨places, hw, hf⟩ | ⟨kind, urls, hp, hlen, rfl⟩)
    · have hfold := (fields_iff (skipAt_of_written hw)).mpr hf
      obtain ⟨r, t, hs, hat, ht⟩ := hw
      exact ⟨t, (readBody_object hs).mpr ⟨places, hat, hfold⟩, ht⟩
    · obtain ⟨t, hr, ht⟩ := parse_eq_ok_iff.mp hp
      obtain ⟨r, hs, hitems⟩ := reads_array_iff.mp hr
      exact ⟨t, (readBody_array hs).mpr ⟨kind, urls, hitems, hlen, rfl⟩, ht⟩

end DeviceRelay.BrokerFields
