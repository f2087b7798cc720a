import DeviceRelay.Json.Member
import DeviceRelay.Proofs.Tunnel.BrokerFields

/-!
# Telling control messages from payloads

By the law of the channel a text is a control message where it is a JSON object whose `type` names
a kind of control, and any other text is a payload. The reader of broker messages follows the law
except on four kinds of text.

* `Inbound.ofDocument`: what a text is by the law.
* `Inbound.Misjudged`: the texts on which the reader departs from the law.
* `Inbound.classify_eq_ofDocument_iff`: there are no others.
-/

namespace DeviceRelay.Inbound

open Json BrokerFields

/-! ## The law -/

/-- What a message of this kind is. -/
def ofKind (kind : Option String) (r : Registration) : Inbound :=
  match kind with
  | some "registered" => .control (.registered r)
  | some "ui_connected" => .control .uiConnected
  | some "ui_disconnected" => .control .uiDisconnected
  | _ => .payload

/-- A member that is a string and not empty. -/
def urlOf (j : Json) (key : String) : Option String := (j.text? key).filter fun url => url ≠ ""

/-- What a text is by the law of the channel: its value decides, however it is written. -/
def ofDocument (text : String) : Inbound :=
  match parse text with
  | .ok j => ofKind (j.text? "type") ⟨urlOf j "ui_ws_url", urlOf j "device_ws_url"⟩
  | .error _ => .payload

/-- The kinds of control. -/
def IsControlKind (kind : String) : Prop :=
  kind = "registered" ∨ kind = "ui_connected" ∨ kind = "ui_disconnected"

theorem ofKind_ne_payload_iff {kind : Option String} {r : Registration} :
    ofKind kind r ≠ .payload ↔ ∃ k, kind = some k ∧ IsControlKind k := by
  unfold ofKind IsControlKind
  constructor
  · intro h
    split at h
    · exact ⟨_, rfl, .inl rfl⟩
    · exact ⟨_, rfl, .inr (.inl rfl)⟩
    · exact ⟨_, rfl, .inr (.inr rfl)⟩
    · exact absurd rfl h
  · rintro ⟨k, rfl, rfl | rfl | rfl⟩ <;> simp

theorem url?_eq (field : Option Json) :
    Registration.url? field = (field.bind string?).filter fun url => url ≠ "" := by
  unfold Registration.url?
  congr
  funext url
  by_cases h : url = ""
  · subst h
    rfl
  · simp [h]

theorem url?_get? (j : Json) (key : String) : Registration.url? (j.get? key) = urlOf j key :=
  url?_eq _

/-! ## The reader -/

/-- The literal text that a control message must hold. -/
def NamesType (text : String) : Prop :=
  Text.occurs "\"type\"".toList text.toList = true

instance (text : String) : Decidable (NamesType text) :=
  inferInstanceAs (Decidable (_ = true))

/-- What the fields of a message make of it. -/
def ofFields (f : BrokerFields) : Inbound :=
  ofKind f.kind ⟨Registration.url? f.uiUrl, Registration.url? f.deviceUrl⟩

theorem classify_of_not_names {text : String} (h : ¬ NamesType text) :
    classify text = .payload := by
  unfold NamesType at h
  unfold classify
  rw [if_pos (by simpa using h)]

theorem classify_of_names {text : String} (h : NamesType text) :
    classify text = ((BrokerFields.read text).map ofFields).getD .payload := by
  unfold NamesType at h
  unfold classify
  rw [h, if_neg (by decide)]
  cases BrokerFields.read text <;> rfl

/-! ## Texts that denote an object -/

/-- The keys of the three fields. -/
def knownKeys : List String := ["type", "ui_ws_url", "device_ws_url"]

/-- A member of a text that denotes an object is the last one written under its key. -/
theorem get?_of_written {text : String} {written : List (String × Json)}
    (hw : Written (Reads innerDepth) text.toList written) :
    ∃ j, parse text = .ok j ∧ ∀ key, j.get? key = (values key written).getLast? := by
  refine ⟨.object (insertAll [] written), parse_eq_object_iff.mpr ⟨written, hw, rfl⟩, fun key => ?_⟩
  rw [show (Json.object (insertAll [] written)).get? key = lookup key (insertAll [] written)
    from rfl, lookup_insertAll]
  exact Option.or_none

/-- A text whose members can be skipped denotes an object, if it denotes anything. -/
theorem written_of_parse {text : String} {j : Json} {places : List (String × List Char)}
    (hw : Written Located text.toList places) (hp : parse text = .ok j) :
    ∃ written, Written (Reads innerDepth) text.toList written := by
  obtain ⟨r, t, hs, -, -⟩ := hw
  obtain ⟨u, hr, hu⟩ := parse_eq_ok_iff.mp hp
  obtain ⟨c, r', hs', hfrom⟩ := reads_iff_from.mp hr
  rw [hs] at hs'
  cases hs'
  cases hfrom with
  | natural hc => cases hc
  | object hat => exact ⟨_, r, u, hs, hat, hu⟩

/-- A control message is written as an object, and the last `type` is its kind. -/
theorem written_of_control {text : String} (hc : ofDocument text ≠ .payload) :
    ∃ written kind, Written (Reads innerDepth) text.toList written ∧
      (values "type" written).getLast? = some (.string kind) ∧ IsControlKind kind := by
  unfold ofDocument at hc
  split at hc
  · rename_i j hj
    obtain ⟨kind, ht, hk⟩ := ofKind_ne_payload_iff.mp hc
    obtain ⟨v, hv, hstr⟩ := Option.bind_eq_some_iff.mp ht
    cases j with
    | object ms =>
      obtain ⟨written, hw, rfl⟩ := parse_eq_object_iff.mp hj
      refine ⟨written, kind, hw, ?_, hk⟩
      unfold get? members at hv
      rw [lookup_insertAll] at hv
      rw [← Option.or_none (o := (values "type" written).getLast?)]
      refine hv.trans ?_
      cases v with
      | string s => cases hstr; rfl
      | _ => cases hstr
    | _ => cases hv
  · exact absurd rfl hc

/-- A field that is given is the last value written under its key, and the only one. -/
theorem getLast?_of_field {key : String} {places : List (String × List Char)}
    {written : List (String × Json)} {o : Option Json}
    (hr : ReadAt innerDepth (values key places) (values key written))
    (hf : FieldAt UrlAt key places o) :
    (values key written).getLast? = o ∧ (values key written).length ≤ 1 := by
  rcases hf with ⟨hv, rfl⟩ | ⟨p, v, hv, ⟨t, ht⟩, rfl⟩
  · rw [hv] at hr
    generalize values key written = js at hr ⊢
    cases hr
    exact ⟨rfl, Nat.zero_le 1⟩
  · rw [hv] at hr
    generalize values key written = js at hr ⊢
    cases hr with
    | cons h hs =>
      cases hs
      obtain ⟨rfl, -⟩ := h.unique ht
      exact ⟨rfl, Nat.le_refl 1⟩

/-- A key that is written once at most gives its field. -/
theorem field_of_getLast? {key : String} {places : List (String × List Char)}
    {written : List (String × Json)}
    (hr : ReadAt innerDepth (values key places) (values key written))
    (hlen : (values key written).length ≤ 1) :
    FieldAt UrlAt key places (values key written).getLast? := by
  generalize values key written = js at hr hlen ⊢
  unfold FieldAt
  generalize values key places = ps at hr ⊢
  cases hr with
  | nil => exact .inl ⟨rfl, rfl⟩
  | cons h hs =>
    cases hs with
    | nil => exact .inr ⟨_, _, rfl, ⟨_, h⟩, rfl⟩
    | cons => exact absurd hlen (by simp)

theorem field_kind_iff {key : String} {places : List (String × List Char)} {kind : String} :
    FieldAt KindAt key places (some kind) ↔ FieldAt UrlAt key places (some (.string kind)) := by
  constructor
  · rintro (⟨-, h⟩ | ⟨p, k, hv, hk, h⟩)
    · cases h
    · cases h
      exact .inr ⟨p, _, hv, hk, rfl⟩
  · rintro (⟨-, h⟩ | ⟨p, v, hv, hk, h⟩)
    · cases h
    · cases h
      exact .inr ⟨p, kind, hv, hk, rfl⟩

/-- The fields of an object with places, as the values written last. -/
theorem fields_of_written {text : String} {written : List (String × Json)} {f : BrokerFields}
    (hw : Written (Reads innerDepth) text.toList written) (hf : BrokerFields.read text = some f)
    {kind : String} (hk : f.kind = some kind) :
    (values "type" written).getLast? = some (.string kind) ∧
      (values "ui_ws_url" written).getLast? = f.uiUrl ∧
      (values "device_ws_url" written).getLast? = f.deviceUrl ∧
      ∀ key ∈ knownKeys, (values key written).length ≤ 1 := by
  obtain ⟨places, hp, hread⟩ := hw.located
  rcases read_eq_some_iff.mp hf with ⟨places', hp', hft, hfu, hfd⟩ | ⟨kind', urls, harr, -, -⟩
  · obtain rfl := Written.unique @Located.unique hp hp'
    rw [hk] at hft
    obtain ⟨ht, ht1⟩ := getLast?_of_field (hread _) (field_kind_iff.mp hft)
    obtain ⟨hu, hu1⟩ := getLast?_of_field (hread _) hfu
    obtain ⟨hd, hd1⟩ := getLast?_of_field (hread _) hfd
    refine ⟨ht, hu, hd, ?_⟩
    intro key hkey
    simp only [knownKeys, List.mem_cons, List.not_mem_nil, or_false] at hkey
    rcases hkey with rfl | rfl | rfl
    · exact ht1
    · exact hu1
    · exact hd1
  · rw [parse_eq_object_iff.mpr ⟨written, hw, rfl⟩] at harr
    cases harr

/-- Where each known key is written once at most, the reader finds the values. -/
theorem read_of_written {text : String} {written : List (String × Json)} {kind : String}
    (hw : Written (Reads innerDepth) text.toList written)
    (hone : ∀ key ∈ knownKeys, (values key written).length ≤ 1)
    (hk : (values "type" written).getLast? = some (.string kind)) :
    BrokerFields.read text = some ⟨some kind, (values "ui_ws_url" written).getLast?,
      (values "device_ws_url" written).getLast?⟩ := by
  obtain ⟨places, hp, hread⟩ := hw.located
  refine read_eq_some_iff.mpr (.inl ⟨places, hp, ?_, ?_, ?_⟩)
  · have h := field_of_getLast? (hread "type") (hone _ (by simp [knownKeys]))
    rw [hk] at h
    exact field_kind_iff.mpr h
  · exact field_of_getLast? (hread _) (hone _ (by simp [knownKeys]))
  · exact field_of_getLast? (hread _) (hone _ (by simp [knownKeys]))

/-- The law on a text that is written as an object. -/
theorem ofDocument_of_written {text : String} {written : List (String × Json)} {kind : String}
    (hw : Written (Reads innerDepth) text.toList written)
    (hk : (values "type" written).getLast? = some (.string kind)) :
    ofDocument text = ofFields ⟨some kind, (values "ui_ws_url" written).getLast?,
      (values "device_ws_url" written).getLast?⟩ := by
  obtain ⟨j, hp, hget⟩ := get?_of_written hw
  unfold ofDocument ofFields
  rw [hp]
  dsimp only
  rw [← url?_get?, ← url?_get?, hget, hget, text?, hget, hk]
  rfl

/-! ## Where the reader departs from the law -/

/-- A text on which the reader of broker messages departs from the law. -/
inductive Misjudged (text : String) : Prop where
  /-- A control message is lost whose `"type"` is not written letter by letter. -/
  | escaped (hc : ofDocument text ≠ .payload) (hn : ¬ NamesType text)
  /-- A control message is lost that writes a known key twice. -/
  | repeated {written : List (String × Json)} {key : String} (hc : ofDocument text ≠ .payload)
      (hw : Written (Reads innerDepth) text.toList written) (hkey : key ∈ knownKeys)
      (htwice : 1 < (values key written).length)
  /-- An array is taken for a control message: a kind, and at most two values after it. -/
  | positional {kind : String} {urls : List Json} (hn : NamesType text)
      (hp : parse text = .ok (.array (.string kind :: urls))) (hk : IsControlKind kind)
      (hlen : urls.length ≤ 2)
  /-- A text that denotes nothing is taken for a control message: its fields can be read, and
  what cannot be read of it stands under other keys and can be skipped. -/
  | skipped {places : List (String × List Char)} {f : BrokerFields} {kind : String}
      (hn : NamesType text) (hp : ∀ j, parse text ≠ .ok j)
      (hw : Written Located text.toList places) (hf : Fields places f)
      (hkind : f.kind = some kind) (hk : IsControlKind kind)

theorem ofDocument_of_array {text : String} {items : List Json}
    (hp : parse text = .ok (.array items)) : ofDocument text = .payload := by
  unfold ofDocument
  rw [hp]
  rfl

theorem ofDocument_of_fault {text : String} (hp : ∀ j, parse text ≠ .ok j) :
    ofDocument text = .payload := by
  unfold ofDocument
  cases h : parse text with
  | ok j => exact absurd h (hp j)
  | error e => rfl

theorem ofFields_ne_payload {f : BrokerFields} {kind : String} (hf : f.kind = some kind)
    (hk : IsControlKind kind) : ofFields f ≠ .payload :=
  ofKind_ne_payload_iff.mpr ⟨kind, hf, hk⟩

theorem classify_of_read {text : String} {f : BrokerFields} (hn : NamesType text)
    (hf : BrokerFields.read text = some f) : classify text = ofFields f := by
  rw [classify_of_names hn, hf]
  rfl

/-- What is not a payload has fields with a kind of control. -/
theorem read_of_classify {text : String} (h : classify text ≠ .payload) :
    NamesType text ∧ ∃ f kind, BrokerFields.read text = some f ∧ classify text = ofFields f ∧
      f.kind = some kind ∧ IsControlKind kind := by
  by_cases hn : NamesType text
  · refine ⟨hn, ?_⟩
    cases hf : BrokerFields.read text with
    | none =>
      rw [classify_of_names hn, hf] at h
      exact absurd rfl h
    | some f =>
      have hc := classify_of_read hn hf
      rw [hc] at h
      obtain ⟨kind, hkind, hk⟩ := ofKind_ne_payload_iff.mp h
      exact ⟨f, kind, rfl, hc, hkind, hk⟩
  · exact absurd (classify_of_not_names hn) h

/-- A misjudged text is judged otherwise than by the law. -/
theorem classify_of_misjudged {text : String} (h : Misjudged text) :
    classify text ≠ ofDocument text := by
  cases h with
  | escaped hc hn =>
    rw [classify_of_not_names hn]
    exact hc.symm
  | @repeated written key hc hw hkey htwice =>
    intro heq
    rw [← heq] at hc
    obtain ⟨-, f, kind, hf, -, hkind, -⟩ := read_of_classify hc
    obtain ⟨-, -, -, hone⟩ := fields_of_written hw hf hkind
    exact absurd htwice (Nat.not_lt.mpr (hone key hkey))
  | positional hn hp hk hlen =>
    have hf := read_eq_some_iff.mpr (.inr ⟨_, _, hp, hlen, rfl⟩)
    rw [ofDocument_of_array hp, classify_of_read hn hf]
    exact ofFields_ne_payload rfl hk
  | skipped hn hp hw hf hkind hk =>
    have hf := read_eq_some_iff.mpr (.inl ⟨_, hw, hf⟩)
    rw [ofDocument_of_fault hp, classify_of_read hn hf]
    exact ofFields_ne_payload hkind hk

/-- A control message that the reader finds and the law does not is misjudged. -/
theorem misjudged_of_classify {text : String} (hc : classify text ≠ .payload)
    (hd : ofDocument text = .payload) : Misjudged text := by
  obtain ⟨hn, f, kind, hf, heq, hkind, hk⟩ := read_of_classify hc
  rcases read_eq_some_iff.mp hf with ⟨places, hw, hfields⟩ | ⟨kind', urls, hp, hlen, rfl⟩
  · by_cases hp : ∃ j, parse text = .ok j
    · obtain ⟨j, hp⟩ := hp
      obtain ⟨written, hwritten⟩ := written_of_parse hw hp
      obtain ⟨ht, -⟩ := fields_of_written hwritten hf hkind
      rw [ofDocument_of_written hwritten ht] at hd
      exact absurd hd (ofFields_ne_payload rfl hk)
    · exact .skipped hn (not_exists.mp hp) hw hfields hkind hk
  · cases hkind
    exact .positional hn hp hk hlen

/-- A control message by the law that the reader judges otherwise is misjudged. -/
theorem misjudged_of_ofDocument {text : String} (hd : ofDocument text ≠ .payload)
    (hne : classify text ≠ ofDocument text) : Misjudged text := by
  by_cases hn : NamesType text
  · obtain ⟨written, kind, hw, ht, hk⟩ := written_of_control hd
    by_cases hone : ∀ key ∈ knownKeys, (values key written).length ≤ 1
    · rw [classify_of_read hn (read_of_written hw hone ht), ofDocument_of_written hw ht] at hne
      exact absurd rfl hne
    · simp only [Classical.not_forall] at hone
      obtain ⟨key, hkey, htwice⟩ := hone
      exact .repeated hd hw hkey (Nat.not_le.mp htwice)
  · exact .escaped hd hn

/-- **A text is judged by the law, except where it is one of the misjudged.** -/
theorem classify_eq_ofDocument_iff (text : String) :
    classify text = ofDocument text ↔ ¬ Misjudged text := by
  constructor
  · exact fun h hm => classify_of_misjudged hm h
  · intro hm
    by_cases hd : ofDocument text = .payload
    · rw [hd]
      by_cases hc : classify text = .payload
      · exact hc
      · exact absurd (misjudged_of_classify hc hd) hm
    · by_cases heq : classify text = ofDocument text
      · exact heq
      · exact absurd (misjudged_of_ofDocument hd heq) hm

/-- The member `type` of an object, its key written with an escape. -/
theorem written_escaped : Written (Reads innerDepth)
    "\x7b\"\\u0074ype\":\"registered\"\x7d".toList [("type", .string "registered")] := by
  have hkey : StringAt "\\u0074ype\":\"registered\"\x7d".toList "type"
      ":\"registered\"\x7d".toList := by
    refine ⟨by decide, ?_⟩
    unfold readString
    simp [readChars, readEscape, readHex, hexValue?, bind, Except.bind, Rest.past, Rest.widen]
  have hkind : StringAt "registered\"\x7d".toList "registered" "\x7d".toList := by
    refine ⟨by decide, ?_⟩
    unfold readString
    simp [readChars]
  exact ⟨_, [], rfl, .members rfl (.close hkey rfl (reads_string_iff.mpr ⟨_, rfl, hkind⟩) rfl), rfl⟩

/-- A control message whose `type` is written with an escape is lost. -/
theorem control_lost_to_escape :
    ofDocument "\x7b\"\\u0074ype\":\"registered\"\x7d" =
        .control (.registered ⟨none, none⟩) ∧
      classify "\x7b\"\\u0074ype\":\"registered\"\x7d" = .payload := by
  constructor
  · rw [ofDocument_of_written written_escaped rfl]
    decide
  · exact classify_of_not_names (by decide)

end DeviceRelay.Inbound
