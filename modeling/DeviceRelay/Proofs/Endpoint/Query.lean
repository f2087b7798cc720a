import DeviceRelay.Endpoint.Access
import DeviceRelay.Proofs.Text.Cut
import DeviceRelay.Proofs.Text.Percent

/-!
# Fields of a query

A query is a list of fields that ampersands separate, and a field is a name and a value. What is
read for a name is the value of the first field with this name, and a value that is written as a
component stands for the text that it was written from.

* `UpgradeRequest.decodeValue_percentEncode`: the text of a component.
* `UpgradeRequest.queryParam_intercalate`: what is read from a list of fields.
-/

namespace DeviceRelay

theorem forall_ne_of_not_mem {α : Type} [DecidableEq α] {c : α} {s : List α} (h : c ∉ s) :
    ∀ d ∈ s, decide (d ≠ c) = true := by
  intro d hd
  rw [decide_eq_true_iff]
  rintro rfl
  exact h hd

namespace UpgradeRequest

/-! ## Values -/

/-- A text whose encoding is well formed is what it is decoded to. -/
theorem decodeLossy_bytes (s : String) : Text.decodeLossy (Text.bytes s) = s :=
  String.toList_inj.mp (Text.toList_decodeLossy_bytesOf s.toList)

/-- No separator of a query, and no plus sign, is in a component. -/
theorem not_mem_percentEncode {c : Char} (hc : ¬ Text.IsPlain c) (hescape : c ≠ '%') (s : String) :
    c ∉ (Text.percentEncode s).toList :=
  (Text.escaped_percentEncode s).not_mem hc hescape List.not_mem_nil

/-- **The value of a component** is the text that it was written from. -/
theorem decodeValue_percentEncode (s : String) :
    decodeValue (Text.percentEncode s).toList = s := by
  have hplus : '+' ∉ (Text.percentEncode s).toList :=
    not_mem_percentEncode (by decide) (by decide) s
  have hsame : (Text.percentEncode s).toList.map (fun c => if c = '+' then ' ' else c) =
      (Text.percentEncode s).toList := by
    refine (List.map_congr_left fun c hc => if_neg ?_).trans (List.map_id _)
    rintro rfl
    exact hplus hc
  unfold decodeValue
  rw [hsame]
  exact (congrArg Text.decodeLossy (Text.percentDecode_percentEncode s)).trans (decodeLossy_bytes s)

/-! ## Fields -/

/-- The value that a field has for a name, none where it is a field of another name. -/
def fieldValue (name : String) (field : List Char) : Option String :=
  if (splitField field).1 = name.toList then some (decodeValue (splitField field).2) else none

/-- A field is split at its first equals sign. -/
theorem fieldValue_append {key : List Char} (h : '=' ∉ key) (name : String) (value : List Char) :
    fieldValue name (key ++ '=' :: value) =
      if key = name.toList then some (decodeValue value) else none := by
  unfold fieldValue splitField
  rw [List.takeWhile_append_of_pos (forall_ne_of_not_mem h),
    List.dropWhile_append_of_pos (forall_ne_of_not_mem h)]
  simp

/-- **What is read from a query** is what its first field with the name has for it. -/
theorem queryParam_intercalate {fields : List (List Char)} (hne : fields ≠ [])
    (h : ∀ field ∈ fields, '&' ∉ field) (path : String) (headers : List (String × List UInt8))
    (name : String) :
    queryParam ⟨path, some (String.ofList (['&'].intercalate fields)), headers⟩ name =
      fields.findSome? (fieldValue name) := by
  unfold queryParam
  rw [Option.bind_some, String.toList_ofList, List.splitOn_intercalate '&' h hne]
  rfl

end UpgradeRequest

end DeviceRelay
