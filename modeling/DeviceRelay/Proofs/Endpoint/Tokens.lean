import DeviceRelay.Proofs.Endpoint.Query

/-!
# Tokens in a query

A request without an authorization header shows the token that the first field named `token` of its
query stands for, and no other. A token that was written as a component is read as itself, whatever
is in it and whatever other fields there are. No request shows an empty token.

* `UpgradeRequest.FirstField`: what the first field with a name is in a query.
* `UpgradeRequest.queryParam_of_firstField`: it is what is read for the name.
* `UpgradeRequest.queryToken_exact`: which token a request shows.
-/

namespace DeviceRelay.UpgradeRequest

/-- The query is a list of fields, and the first of them that has the name has the value. -/
def FirstField (r : UpgradeRequest) (name : String) (value : List Char) : Prop :=
  ∃ fields field, r.query = some (String.ofList (['&'].intercalate fields)) ∧
    (∀ f ∈ fields, '&' ∉ f) ∧
    fields.find? (fun f => (splitField f).1 = name.toList) = some field ∧
    (splitField field).2 = value

section Fields

variable {r : UpgradeRequest} {name : String} {value : List Char}

/-- The first value for a name is that of the first field with the name. -/
theorem findSome?_fieldValue (name : String) (fields : List (List Char)) :
    fields.findSome? (fieldValue name) =
      (fields.find? fun f => (splitField f).1 = name.toList).map
        fun f => decodeValue (splitField f).2 := by
  induction fields with
  | nil => rfl
  | cons field fields ih =>
    rw [List.findSome?_cons, List.find?_cons, ih, fieldValue]
    by_cases hname : (splitField field).1 = name.toList
    · simp [hname]
    · simp [hname]

/-- **What is read for a name** is what its first field stands for. -/
theorem queryParam_of_firstField (h : r.FirstField name value) :
    r.queryParam name = some (decodeValue value) := by
  obtain ⟨fields, field, hquery, hfields, hfirst, hvalue⟩ := h
  have hne : fields ≠ [] := by
    rintro rfl
    cases hfirst
  obtain ⟨path, query, headers⟩ := r
  obtain rfl : query = _ := hquery
  rw [queryParam_intercalate hne hfields, findSome?_fieldValue, hfirst, ← hvalue, Option.map_some]

end Fields

/-! ## The token that is shown -/

theorem bearerToken_of_no_header {r : UpgradeRequest} (h : r.header? "authorization" = none) :
    r.bearerToken = none := by
  unfold bearerToken
  rw [h]
  rfl

/-- Without an authorization header the query decides. -/
theorem shows_iff_of_no_header {r : UpgradeRequest} (h : r.header? "authorization" = none)
    (token : String) : r.shows token = true ↔ token ≠ "" ∧ r.queryParam "token" = some token := by
  simp [shows, bearerToken_of_no_header h]

theorem shows_empty (r : UpgradeRequest) : r.shows "" = false := rfl

/-- **Tokens in a query.** A request without an authorization header, the first `token` field of
whose query has a token written as a component, shows a token that is not empty exactly if it is
this one. An empty token is not shown by any request. -/
theorem queryToken_exact {r : UpgradeRequest} {s t : String} (hs : s ≠ "")
    (hheader : r.header? "authorization" = none)
    (hquery : r.FirstField "token" (Text.percentEncode t).toList) :
    (r.shows s = true ↔ s = t) ∧ ∀ r' : UpgradeRequest, r'.shows "" = false := by
  refine ⟨?_, shows_empty⟩
  rw [shows_iff_of_no_header hheader, queryParam_of_firstField hquery, decodeValue_percentEncode]
  constructor
  · rintro ⟨-, hread⟩
    exact (Option.some.inj hread).symm
  · rintro rfl
    exact ⟨hs, rfl⟩

/-- A token with separators and a plus sign, between a field without a value and a second field of
the same name. -/
theorem queryToken_exact_escaped :
    let r : UpgradeRequest := ⟨"/ws", some "a&token=x%26y%3D%2B%20%C3%A9&token=z", []⟩
    r.header? "authorization" = none ∧ r.FirstField "token" (Text.percentEncode "x&y=+ é").toList ∧
      r.shows "x&y=+ é" = true ∧ ¬r.shows "z" = true := by
  intro r
  have hquery : r.FirstField "token" (Text.percentEncode "x&y=+ é").toList :=
    ⟨["a".toList, "token=x%26y%3D%2B%20%C3%A9".toList, "token=z".toList],
      "token=x%26y%3D%2B%20%C3%A9".toList, by decide, by decide, by decide, by decide +kernel⟩
  exact ⟨rfl, hquery, (queryToken_exact (by decide) rfl hquery).1.mpr rfl,
    fun hz => absurd ((queryToken_exact (by decide) rfl hquery).1.mp hz) (by decide)⟩

end DeviceRelay.UpgradeRequest
