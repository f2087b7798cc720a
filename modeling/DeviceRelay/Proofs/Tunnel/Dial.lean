import DeviceRelay.Proofs.Endpoint.Query
import DeviceRelay.Tunnel.Dial

/-!
# What a dial URL says

The URL of a dial has the device id as the last segment of its path and the tunnel key and the
token as fields of its query. Each of them is written as a component, so none of it runs over into
another part, and all three can be read back, as long as the base brings no question mark along.
Only what is in front of the first question mark may be logged, and whatever the base brings along,
the key and the token are behind it.

* `queryOf`, `lastSegment`: parts of a URL.
* `toList_dialUrl`: how the URL is made up.
* `TunnelConfig.Carried`: a URL from which the parts of a configuration are read.
* `dialUrl_lossless`: every dial URL is such a one, and tells configurations apart.
* `map_withoutQuery_dialUrl`: what is logged of a dial, from the base and the device id alone.
* `dialUrl_logged_alike`: it does not tell the key or the token.
-/

namespace DeviceRelay

/-! ## Parts of a URL -/

/-- The text after the first question mark, none where there is no question mark. -/
def queryOf (url : String) : Option String :=
  match url.toList.dropWhile (· ≠ '?') with
  | [] => none
  | _ :: query => some (String.ofList query)

/-- The text after the last slash. -/
def lastSegment (path : String) : String :=
  String.ofList (path.toList.reverse.takeWhile (· ≠ '/')).reverse

section Parts

variable {url : String} {before after : List Char}

theorem queryOf_of_append (hurl : url.toList = before ++ '?' :: after) (h : '?' ∉ before) :
    queryOf url = some (String.ofList after) := by
  unfold queryOf
  rw [hurl, List.dropWhile_append_of_pos (forall_ne_of_not_mem h)]
  rfl

/-- Nothing behind a question mark is logged, whether or not it is the first one. -/
theorem withoutQuery_eq (hurl : url.toList = before ++ '?' :: after) :
    withoutQuery url = String.ofList (before.takeWhile (· ≠ '?')) := by
  unfold withoutQuery
  rw [hurl, List.takeWhile_append]
  split
  · rename_i hall
    have hbefore : before.takeWhile (· ≠ '?') = before :=
      (List.takeWhile_prefix _).eq_of_length hall
    rw [hbefore]
    simp
  · rfl

theorem withoutQuery_of_append (hurl : url.toList = before ++ '?' :: after) (h : '?' ∉ before) :
    withoutQuery url = String.ofList before := by
  unfold withoutQuery
  rw [hurl, List.takeWhile_append_of_pos (forall_ne_of_not_mem h)]
  simp

/-- What is logged of a URL with a query is the text in front of the first question mark. -/
theorem eq_withoutQuery_append (h : '?' ∈ url.toList) :
    '?' ∉ (withoutQuery url).toList ∧ ∃ query, url = withoutQuery url ++ "?" ++ query := by
  obtain ⟨before, after, hurl, hbefore⟩ := List.eq_append_cons_of_mem h
  rw [withoutQuery_of_append hurl hbefore]
  refine ⟨by simpa using hbefore, String.ofList after, String.toList_inj.mp ?_⟩
  rw [hurl]
  simp

theorem lastSegment_of_append (hurl : url.toList = before ++ '/' :: after) (h : '/' ∉ after) :
    lastSegment url = String.ofList after := by
  have hreverse : url.toList.reverse = after.reverse ++ '/' :: before.reverse := by
    simp [hurl]
  unfold lastSegment
  rw [hreverse, List.takeWhile_append_of_pos (forall_ne_of_not_mem (by simpa using h))]
  simp

end Parts

/-! ## The base -/

theorem mem_of_mem_trimBase {base : String} {c : Char} (h : c ∈ trimBase base) :
    c ∈ base.toList := by
  unfold trimBase Text.trim Text.trimEnd at h
  rw [List.mem_reverse, String.toList_ofList] at h
  have h := List.mem_reverse.mp ((List.dropWhile_suffix _).subset h)
  rw [List.mem_reverse] at h
  have h := List.mem_reverse.mp ((List.dropWhile_suffix _).subset h)
  exact (List.dropWhile_suffix _).subset h

theorem mem_of_after? {start s rest : List Char} {c : Char} (h : Text.after? start s = some rest)
    (hc : c ∈ rest) : c ∈ s := by
  unfold Text.after? at h
  rw [Option.ite_none_right_eq_some] at h
  obtain ⟨-, heq⟩ := h
  cases heq
  exact List.mem_of_mem_drop hc

/-- The scheme of a base has no question mark. -/
theorem not_mem_websocketBase {base : List Char} (h : '?' ∉ base) :
    '?' ∉ websocketBase base := by
  have hsecure : '?' ∉ "wss://".toList := by decide
  have hopen : '?' ∉ "ws://".toList := by decide
  unfold websocketBase
  split
  · rename_i rest hrest
    exact List.not_mem_append hsecure fun hc => h (mem_of_after? hrest hc)
  · split
    · rename_i rest hrest
      exact List.not_mem_append hopen fun hc => h (mem_of_after? hrest hc)
    · split
      · exact h
      · exact List.not_mem_append hsecure h

/-! ## The query -/

/-- A field of the query, which is left out where it is empty. -/
def dialField (key value : String) : List (List Char) :=
  if value.isEmpty then [] else [key.toList ++ '=' :: (Text.percentEncode value).toList]

/-- The fields of the query. -/
def dialFields (c : TunnelConfig) : List (List Char) :=
  "announce=1".toList :: (dialField "tunnel" c.tunnelKey ++ dialField "token" c.authToken)

/-- How a dial URL is made up. -/
theorem toList_dialUrl {c : TunnelConfig} {url : String} (h : dialUrl c = .ok url) :
    url.toList = websocketBase (trimBase c.baseUrl) ++ "/ws/device".toList ++
      '/' :: (Text.percentEncode (Text.trim c.deviceId)).toList ++
      '?' :: ['&'].intercalate (dialFields c) := by
  unfold dialUrl at h
  dsimp only at h
  split at h
  · cases h
  · split at h
    · cases h
    · rw [← Except.ok.inj h]
      have htext (key value : String) : (optionalField key value).toList =
          (dialField key value).flatMap fun field => '&' :: field := by
        unfold optionalField dialField
        split
        · rfl
        · simp
      have hfields : ['&'].intercalate (dialFields c) =
          "announce=1".toList ++ (dialField "tunnel" c.tunnelKey).flatMap (fun f => '&' :: f) ++
            (dialField "token" c.authToken).flatMap fun f => '&' :: f := by
        unfold dialFields dialField
        split <;> split <;> simp [List.intercalate]
      rw [hfields]
      simp only [String.toList_append, String.toList_ofList, htext]
      simp

theorem not_mem_dialFields (c : TunnelConfig) : ∀ field ∈ dialFields c, '&' ∉ field := by
  have hfield {key value : String} (hkey : '&' ∉ key.toList) :
      ∀ field ∈ dialField key value, '&' ∉ field := by
    intro field hmem
    unfold dialField at hmem
    split at hmem
    · cases hmem
    · obtain rfl := List.mem_singleton.mp hmem
      have hvalue : '&' ∉ (Text.percentEncode value).toList :=
        UpgradeRequest.not_mem_percentEncode (by decide) (by decide) value
      simp [hkey, hvalue]
  intro field hmem
  obtain rfl | hmem := List.mem_cons.mp hmem
  · decide
  · obtain hmem | hmem := List.mem_append.mp hmem
    · exact hfield (by decide) field hmem
    · exact hfield (by decide) field hmem

theorem findSome?_dialField {key : String} (hkey : '=' ∉ key.toList) (name value : String) :
    (dialField key value).findSome? (UpgradeRequest.fieldValue name) =
      if key = name ∧ value.isEmpty = false then some value else none := by
  unfold dialField
  cases hvalue : value.isEmpty with
  | true => simp
  | false =>
    simp [UpgradeRequest.fieldValue_append hkey, UpgradeRequest.decodeValue_percentEncode,
      String.toList_inj]

/-- What is read from the query of a dial. -/
theorem findSome?_dialFields (c : TunnelConfig) :
    (dialFields c).findSome? (UpgradeRequest.fieldValue "tunnel") =
        (if c.tunnelKey.isEmpty then none else some c.tunnelKey) ∧
      (dialFields c).findSome? (UpgradeRequest.fieldValue "token") =
        if c.authToken.isEmpty then none else some c.authToken := by
  have hannounce (name : String) (hname : name ≠ "announce") :
      UpgradeRequest.fieldValue name "announce=1".toList = none := by
    have hkey : '=' ∉ "announce".toList := by decide
    exact (UpgradeRequest.fieldValue_append hkey name ['1']).trans
      (if_neg fun h => hname (String.toList_inj.mp h).symm)
  unfold dialFields
  constructor
  · rw [List.findSome?_cons, hannounce _ (by decide), List.findSome?_append,
      findSome?_dialField (by decide), findSome?_dialField (by decide)]
    cases c.tunnelKey.isEmpty <;> simp
  · rw [List.findSome?_cons, hannounce _ (by decide), List.findSome?_append,
      findSome?_dialField (by decide), findSome?_dialField (by decide)]
    cases c.authToken.isEmpty <;> simp

/-! ## The URL -/

/-- The separators of a dial URL. -/
def dialSeparators : List Char := ['/', '?', '&', '=']

/-- A URL from which the parts of a configuration are read, and in which nothing after the base
needs escaping. -/
structure TunnelConfig.Carried (c : TunnelConfig) (url : String) : Prop where
  tunnelKey : ∀ path headers, UpgradeRequest.queryParam ⟨path, queryOf url, headers⟩ "tunnel" =
    if c.tunnelKey.isEmpty then none else some c.tunnelKey
  authToken : ∀ path headers, UpgradeRequest.queryParam ⟨path, queryOf url, headers⟩ "token" =
    if c.authToken.isEmpty then none else some c.authToken
  deviceId : Text.decode? (Text.percentDecode (Text.bytes (lastSegment (withoutQuery url)))) =
    some (Text.trim c.deviceId)
  escaped : ∃ rest, url.toList = websocketBase (trimBase c.baseUrl) ++ rest ∧
    Text.Escaped dialSeparators rest

theorem escaped_dialFields (c : TunnelConfig) :
    ∀ field ∈ dialFields c, Text.Escaped dialSeparators field := by
  have hfield {key value : String} (hkey : Text.Escaped dialSeparators key.toList) :
      ∀ field ∈ dialField key value, Text.Escaped dialSeparators field := by
    intro field hmem
    unfold dialField at hmem
    split at hmem
    · cases hmem
    · obtain rfl := List.mem_singleton.mp hmem
      exact hkey.append (.separator (by decide)
        ((Text.escaped_percentEncode value).mono (List.nil_subset _)))
  intro field hmem
  obtain rfl | hmem := List.mem_cons.mp hmem
  · exact .of_all (by decide)
  · obtain hmem | hmem := List.mem_append.mp hmem
    · exact hfield (.of_all (by decide)) field hmem
    · exact hfield (.of_all (by decide)) field hmem

/-- **A dial URL** carries its configuration, where the base has no question mark. -/
theorem carried_dialUrl {c : TunnelConfig} {url : String} (hbase : '?' ∉ c.baseUrl.toList)
    (h : dialUrl c = .ok url) : c.Carried url := by
  have hurl := toList_dialUrl h
  have hdevice (d : Char) (hd : ¬ Text.IsPlain d) (hescape : d ≠ '%') :
      d ∉ (Text.percentEncode (Text.trim c.deviceId)).toList :=
    UpgradeRequest.not_mem_percentEncode hd hescape _
  have hpath : '?' ∉ websocketBase (trimBase c.baseUrl) ++ "/ws/device".toList ++
      '/' :: (Text.percentEncode (Text.trim c.deviceId)).toList := by
    refine List.not_mem_append (List.not_mem_append ?_ (by decide)) ?_
    · exact not_mem_websocketBase fun hc => hbase (mem_of_mem_trimBase hc)
    · exact List.not_mem_cons_of_ne_of_not_mem (by decide) (hdevice '?' (by decide) (by decide))
  have hquery := queryOf_of_append hurl hpath
  have hne : dialFields c ≠ [] := by simp [dialFields]
  obtain ⟨hkey, htoken⟩ := findSome?_dialFields c
  refine ⟨fun path headers => ?_, fun path headers => ?_, ?_, ?_⟩
  · rw [hquery, UpgradeRequest.queryParam_intercalate hne (not_mem_dialFields c), hkey]
  · rw [hquery, UpgradeRequest.queryParam_intercalate hne (not_mem_dialFields c), htoken]
  · rw [withoutQuery_of_append hurl hpath,
      lastSegment_of_append String.toList_ofList (hdevice '/' (by decide) (by decide)),
      String.ofList_toList, Text.percentDecode_percentEncode, Text.decode?_eq_some_iff]
  · refine ⟨"/ws/device".toList ++ '/' :: (Text.percentEncode (Text.trim c.deviceId)).toList ++
      '?' :: ['&'].intercalate (dialFields c), by simp [hurl], ?_⟩
    have hsegment : Text.Escaped dialSeparators
        (Text.percentEncode (Text.trim c.deviceId)).toList :=
      (Text.escaped_percentEncode _).mono (List.nil_subset _)
    have hfields : Text.Escaped dialSeparators (['&'].intercalate (dialFields c)) :=
      .intercalate (by decide) (escaped_dialFields c)
    have hfixed : Text.Escaped dialSeparators "/ws/device".toList := .of_all (by decide)
    exact (hfixed.append (.separator (by decide) hsegment)).append
      (.separator (by decide) hfields)

/-- A value that is left out where it is empty can be told. -/
theorem eq_of_optional_eq {s s' : String}
    (h : (if s.isEmpty then none else some s) = if s'.isEmpty then none else some s') : s = s' := by
  split at h <;> split at h
  · rename_i hs hs'
    rw [String.isEmpty_iff.mp hs, String.isEmpty_iff.mp hs']
  · cases h
  · cases h
  · exact Option.some.inj h

/-- **Dial URLs lose nothing.** Of a dial URL whose base has no question mark, the part behind the
first question mark has the tunnel key as the value of `tunnel` and the token as that of `token`,
each of them absent where it is empty; the last segment of the part before it decodes to the device
id without the blanks around it; after the base there are only unreserved characters, escapes and
the separators `/ ? & =`. So of two configurations with the same base only such as agree in these
three have the same URL. -/
theorem dialUrl_lossless {c : TunnelConfig} {url : String} (hbase : '?' ∉ c.baseUrl.toList)
    (h : dialUrl c = .ok url) :
    (∀ path headers,
      let r : UpgradeRequest := ⟨path, queryOf url, headers⟩
      r.queryParam "tunnel" = (if c.tunnelKey.isEmpty then none else some c.tunnelKey) ∧
        r.queryParam "token" = if c.authToken.isEmpty then none else some c.authToken) ∧
    Text.decode? (Text.percentDecode (Text.bytes (lastSegment (withoutQuery url)))) =
      some (Text.trim c.deviceId) ∧
    (∃ rest, url.toList = websocketBase (trimBase c.baseUrl) ++ rest ∧
      Text.Escaped ['/', '?', '&', '='] rest) ∧
    ∀ c' : TunnelConfig, c'.baseUrl = c.baseUrl → dialUrl c' = .ok url →
      Text.trim c'.deviceId = Text.trim c.deviceId ∧ c'.tunnelKey = c.tunnelKey ∧
        c'.authToken = c.authToken := by
  have hcarried := carried_dialUrl hbase h
  refine ⟨fun path headers => ⟨hcarried.tunnelKey path headers, hcarried.authToken path headers⟩,
    hcarried.deviceId, hcarried.escaped, fun c' hsame h' => ?_⟩
  have hcarried' := carried_dialUrl (c := c') (hsame ▸ hbase) h'
  refine ⟨Option.some.inj (hcarried'.deviceId.symm.trans hcarried.deviceId), ?_, ?_⟩
  · exact eq_of_optional_eq ((hcarried'.tunnelKey "" []).symm.trans (hcarried.tunnelKey "" []))
  · exact eq_of_optional_eq ((hcarried'.authToken "" []).symm.trans (hcarried.authToken "" []))

/-- Reserved characters in the device id and in the token. -/
theorem dialUrl_lossless_reserved :
    let c : TunnelConfig :=
      ⟨"https://broker.example/", " pier/1?é ", "a&token=b+c", "", true, .zero, .zero⟩
    let url := "wss://broker.example/ws/device/pier%2F1%3F%C3%A9?announce=1&token=a%26token%3Db%2Bc"
    '?' ∉ c.baseUrl.toList ∧ dialUrl c = .ok url ∧
      UpgradeRequest.queryParam ⟨"/", queryOf url, []⟩ "tunnel" = none ∧
      UpgradeRequest.queryParam ⟨"/", queryOf url, []⟩ "token" = some "a&token=b+c" := by
  intro c url
  have hbase : '?' ∉ c.baseUrl.toList := by decide
  have hread : (dialUrl c).toOption = some url := by decide +kernel
  have hurl : dialUrl c = .ok url := by
    cases hdial : dialUrl c with
    | ok url' =>
      rw [hdial] at hread
      exact congrArg Except.ok (Option.some.inj hread)
    | error e =>
      rw [hdial] at hread
      cases hread
  obtain ⟨htunnel, htoken⟩ := (dialUrl_lossless hbase hurl).1 "/" []
  exact ⟨hbase, hurl, htunnel, htoken⟩

/-! ## What is logged -/

/-- What is logged of a dial, as a matter of the base and the device id. -/
def dialLog (baseUrl deviceId : String) : Except DialError String :=
  let base := trimBase baseUrl
  let device := Text.trim deviceId
  if base.isEmpty then .error .missingBaseUrl
  else if device.isEmpty then .error .missingDeviceId
  else
    let path := websocketBase base ++ "/ws/device/".toList ++ (Text.percentEncode device).toList
    .ok (String.ofList (path.takeWhile (· ≠ '?')))

/-- **What is logged of a dial** is found without the tunnel key and the token: these are behind the
question mark that the dial itself puts there, if not behind an earlier one. -/
theorem map_withoutQuery_dialUrl (c : TunnelConfig) :
    (dialUrl c).map withoutQuery = dialLog c.baseUrl c.deviceId := by
  unfold dialUrl dialLog
  dsimp only
  split
  · rfl
  · split
    · rfl
    · have hquery : "?announce=1".toList = '?' :: "announce=1".toList := rfl
      have hurl : (String.ofList (websocketBase (trimBase c.baseUrl)) ++ "/ws/device/" ++
            Text.percentEncode (Text.trim c.deviceId) ++ "?announce=1" ++
            optionalField "tunnel" c.tunnelKey ++ optionalField "token" c.authToken).toList =
          websocketBase (trimBase c.baseUrl) ++ "/ws/device/".toList ++
            (Text.percentEncode (Text.trim c.deviceId)).toList ++
            '?' :: ("announce=1" ++ optionalField "tunnel" c.tunnelKey ++
              optionalField "token" c.authToken).toList := by
        simp only [String.toList_append, String.toList_ofList, hquery, List.append_assoc,
          List.cons_append]
      exact congrArg Except.ok (withoutQuery_eq hurl)

/-- **The log tells no secret.** Of two configurations with the same base and the same device id,
whatever their tunnel keys and tokens, the same is logged, or both dials fail for the same reason;
that holds of every base, also of one with question marks, ampersands or equals signs. What is
logged of a URL is the text in front of its first question mark. -/
theorem dialUrl_logged_alike {c c' : TunnelConfig} (hbase : c'.baseUrl = c.baseUrl)
    (hdevice : c'.deviceId = c.deviceId) :
    (dialUrl c').map withoutQuery = (dialUrl c).map withoutQuery ∧
      ∀ url, dialUrl c = .ok url →
        '?' ∉ (withoutQuery url).toList ∧ ∃ query, url = withoutQuery url ++ "?" ++ query := by
  refine ⟨?_, fun url h => eq_withoutQuery_append ?_⟩
  · rw [map_withoutQuery_dialUrl, map_withoutQuery_dialUrl, hbase, hdevice]
  · rw [toList_dialUrl h]
    simp

/-- A base that has a query itself: the log has neither that query nor the device id. -/
theorem dialUrl_logged_alike_query :
    let c : TunnelConfig :=
      ⟨"https://broker.example/x?a=1&b", "pier-1", "secret", "ws_control", true, .zero, .zero⟩
    let c' : TunnelConfig := { c with authToken := "other?", tunnelKey := "" }
    c'.baseUrl = c.baseUrl ∧ c'.deviceId = c.deviceId ∧
      (dialUrl c').map withoutQuery = (dialUrl c).map withoutQuery ∧
      ((dialUrl c).map withoutQuery).toOption = some "wss://broker.example/x" := by
  intro c c'
  have hlogged : ((dialUrl c).map withoutQuery).toOption = some "wss://broker.example/x" := by
    decide +kernel
  have hbase : c'.baseUrl = c.baseUrl := rfl
  have hdevice : c'.deviceId = c.deviceId := rfl
  exact ⟨hbase, hdevice, (dialUrl_logged_alike hbase hdevice).1, hlogged⟩

end DeviceRelay
