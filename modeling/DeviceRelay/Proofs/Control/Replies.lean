import DeviceRelay.Control.Protocol
import DeviceRelay.Proofs.Json.Size

/-!
# Replies to commands

Every reply to a command names the command, under the name that the table of commands has for it
and not under a text of the request. Only the refusal of an unknown command repeats a name that was
read.

* `ControlProtocol.cmd_execute`: the name in the reply to a command.
* `Reply.size_set_le`: the bytes that a field adds.
* `Reply.size_error`: the bytes of a failed answer that has a name.
-/

namespace DeviceRelay

open Json

/-! ## The name in a reply -/

namespace Reply

theorem get?_set (r : Reply) (k key : String) (v : Json) :
    (r.set k v).get? key = if k = key then some v else r.get? key :=
  lookup_insertMember key k v r.fields

theorem get?_set_of_ne {k key : String} (h : k ≠ key) (r : Reply) (v : Json) :
    (r.set k v).get? key = r.get? key := by
  rw [get?_set, if_neg h]

theorem get?_ok (cmd : String) : (ok cmd).get? "cmd" = some (.string cmd) := by
  unfold ok
  rw [get?_set, if_pos rfl]

theorem get?_error {cmd : String} (h : cmd.isEmpty = false) (code : String) :
    (error (some cmd) code).get? "cmd" = some (.string cmd) := by
  unfold error
  simp only [h]
  rw [get?_set, if_neg (by decide), if_neg (by decide), get?_set, if_pos rfl]

/-- A reply that says how a command ended says nothing else yet. -/
theorem get?_ok_of_ne {key : String} (h : "ok" ≠ key ∧ "cmd" ≠ key) (cmd : String) :
    (ok cmd).get? key = none := by
  unfold ok
  rw [get?_set_of_ne h.2, get?_set_of_ne h.1]
  rfl

theorem get?_error_of_ne {key : String} (h : "ok" ≠ key ∧ "cmd" ≠ key) (he : "error" ≠ key)
    (cmd : Option String) (code : String) : (error cmd code).get? key = none := by
  have hbase : ((Reply.mk []).set "ok" (.bool false)).get? key = none := by
    rw [get?_set_of_ne h.1]
    rfl
  unfold error
  dsimp only
  rw [get?_set_of_ne he]
  split
  · split
    · exact hbase
    · rw [get?_set_of_ne h.2, hbase]
  · exact hbase

end Reply

/-- The table of commands has each of them under its name. -/
theorem Command.ofName?_eq_some_iff {name : String} {cmd : Command} :
    ofName? name = some cmd ↔ name = cmd.name := by
  constructor
  · intro h
    have hname : cmd.name = name := by simpa using List.find?_some h
    exact hname.symm
  · rintro rfl
    cases cmd <;> decide

namespace ControlProtocol

theorem isEmpty_name (cmd : Command) : cmd.name.isEmpty = false := by
  cases cmd <;> decide

theorem escapedSize_name_le (cmd : Command) : escapedSize cmd.name ≤ 16 := by
  cases cmd <;> decide

theorem cmd_cameraReply {σ : Type} (cmd : Command) (facts : DeviceFacts) (apply : σ → Bool × σ)
    (media : σ) : (cameraReply cmd facts apply media).1.get? "cmd" = some (.string cmd.name) := by
  unfold cameraReply
  split
  · exact Reply.get?_error (isEmpty_name cmd) _
  · split
    · exact Reply.get?_ok _
    · exact Reply.get?_error (isEmpty_name cmd) _

theorem cmd_setConfigReply (request : Json) (updates : ConfigQueue) :
    (setConfigReply request updates).1.get? "cmd" = some (.string Command.setConfig.name) := by
  have hqueued : ((Reply.ok Command.setConfig.name).set "queued" (.bool true)).get? "cmd" =
      some (.string Command.setConfig.name) := by
    rw [Reply.get?_set_of_ne (by decide)]
    exact Reply.get?_ok _
  have hfailed : ((Reply.error (some Command.setConfig.name) "queue_failed").set "queued"
      (.bool false)).get? "cmd" = some (.string Command.setConfig.name) := by
    rw [Reply.get?_set_of_ne (by decide)]
    exact Reply.get?_error (isEmpty_name _) _
  unfold setConfigReply
  dsimp only
  split
  · split
    · exact hqueued
    · exact hfailed
  · split
    · exact hqueued
    · exact hfailed
  · exact Reply.get?_error (isEmpty_name _) _

theorem cmd_logReply (source : Option LogSource) (request : Json) (viaTunnel : Bool) :
    (logReply source request viaTunnel).get? "cmd" = some (.string getLogsCommand) := by
  have hname : getLogsCommand.isEmpty = false := by decide
  unfold logReply
  split
  · exact Reply.get?_error hname _
  · dsimp only
    split
    · repeat rw [Reply.get?_set_of_ne (by decide)]
      exact Reply.get?_ok _
    · exact Reply.get?_error hname _
    · exact Reply.get?_error hname _
    · unfold Reply.detail
      rw [Reply.get?_set_of_ne (by decide)]
      exact Reply.get?_error hname _
    · exact Reply.get?_error hname _

/-- The reply to a command names it. -/
theorem cmd_execute {σ : Type} (board : MediaBoard σ) (ctx : ControlContext) (client : ClientId)
    (cmd : Command) (request : Json) (state : ControlState) (media : σ) :
    (execute board ctx client cmd request state media).1.get? "cmd" = some (.string cmd.name) := by
  cases cmd with
  | setConfig => exact cmd_setConfigReply _ _
  | getLogs => exact cmd_logReply _ _ _
  | cameraSubscribe =>
    unfold execute
    dsimp only
    rw [Reply.get?_set_of_ne (by decide)]
    exact cmd_cameraReply .cameraSubscribe _ _ _
  | cameraSnapshot =>
    unfold execute
    dsimp only
    rw [Reply.get?_set_of_ne (by decide)]
    exact cmd_cameraReply .cameraSnapshot _ _ _
  | getRssi =>
    unfold execute rssiReply
    dsimp only
    split
    · simp [Reply.get?_set, Reply.get?_ok]
    · simp [Reply.get?_set, Reply.get?_ok]
  | _ => simp [execute, statusReply, claimReply, Reply.get?_set, Reply.get?_ok]

/-! ## Bare requests -/

/-- A text that names a command and holds nothing else is the request for it. -/
theorem parse_bareRequest {text : String} {cmd : Command}
    (h : text.toList = "\x7b\"cmd\":\"".toList ++ cmd.name.toList ++ "\"\x7d".toList) :
    Json.parse text = .ok (.object [("cmd", .string cmd.name)]) := by
  have hkey : StringAt _ "cmd" (":\"".toList ++ cmd.name.toList ++ "\"\x7d".toList) :=
    stringAt_plain (List.all_eq_true.mp (show "cmd".toList.all isPlain = true by decide)) _
  have hplain : cmd.name.toList.all isPlain = true := by
    cases cmd <;> decide
  have hname : StringAt (cmd.name.toList ++ "\"\x7d".toList) cmd.name ['}'] := by
    have hread := stringAt_plain (List.all_eq_true.mp hplain) ['}']
    rwa [String.ofList_toList] at hread
  have hbrace : skipBlanks text.toList =
      '{' :: '"' :: ("cmd".toList ++ '"' :: (":\"".toList ++ cmd.name.toList ++
        "\"\x7d".toList)) := by
    rw [h]
    rfl
  exact parse_eq_object_iff.mpr ⟨[("cmd", .string cmd.name)], ⟨_, [], hbrace,
    .members rfl (.close hkey rfl (reads_string_iff.mpr ⟨_, rfl, hname⟩) rfl), rfl⟩, rfl⟩

/-! ## Dispatch -/

section Dispatch

variable {σ : Type} {board : MediaBoard σ} {ctx : ControlContext} {client : ClientId}
  {text : String} {state : ControlState} {media : σ}

theorem dispatch_of_error {e : Json.ReadError} (h : Json.parse text = .error e) :
    (dispatch board ctx client text state media).1 =
      ⟨(Reply.error none "bad_json").detail e.message, .requester⟩ := by
  unfold dispatch
  rw [h]

theorem dispatch_of_unknown {request : Json} (h : Json.parse text = .ok request)
    (hn : Command.ofName? (Command.nameIn request) = none) :
    (dispatch board ctx client text state media).1 =
      ⟨.error (some (Command.nameIn request)) "unknown_cmd", .requester⟩ := by
  unfold dispatch
  rw [h]
  dsimp only
  rw [hn]

theorem dispatch_of_known {request : Json} {cmd : Command} (h : Json.parse text = .ok request)
    (hn : Command.ofName? (Command.nameIn request) = some cmd) :
    (dispatch board ctx client text state media).1 =
      ⟨(execute board ctx client cmd request state media).1, routeOf cmd⟩ := by
  unfold dispatch
  rw [h]
  dsimp only
  rw [hn]

end Dispatch

end ControlProtocol

/-! ## Sizes -/

namespace Reply

/-- The bytes of the text that is sent. -/
def size (r : Reply) : Nat := r.render.utf8ByteSize

theorem size_eq (r : Reply) : r.size = textSize (chars (.object r.fields)) := size_render _

/-- A field that is set adds its own bytes and a comma at most. -/
theorem size_set_le (r : Reply) (key : String) (value : Json) :
    (r.set key value).size ≤ r.size + escapedSize key + 4 + textSize value.chars := by
  rw [size_eq, size_eq]
  exact textSize_insertMember_le key value r.fields

/-- The bytes that some fields add, each with a comma. -/
def addedSize : (fields : List (String × Json)) → Nat
  | [] => 0
  | (key, value) :: fields => escapedSize key + 4 + textSize value.chars + addedSize fields

theorem size_foldl_set_le (fields : List (String × Json)) (r : Reply) :
    (fields.foldl (fun r m => r.set m.1 m.2) r).size ≤ r.size + addedSize fields := by
  induction fields generalizing r with
  | nil => exact Nat.le_refl _
  | cons m fields ih =>
    obtain ⟨key, value⟩ := m
    have hset := size_set_le r key value
    have hrest := ih (r.set key value)
    rw [addedSize, List.foldl_cons]
    dsimp only
    omega

theorem fields_error {cmd : String} (h : cmd.isEmpty = false) (code : String) :
    (error (some cmd) code).fields =
      [("cmd", .string cmd), ("error", .string code), ("ok", .bool false)] := by
  unfold error
  simp only [h]
  rfl

/-- The bytes of a failed answer that has a name. -/
theorem size_error {cmd : String} (h : cmd.isEmpty = false) (code : String) :
    (error (some cmd) code).size = 32 + escapedSize cmd + escapedSize code := by
  have hcmd : escapedSize "cmd" = 3 := by decide
  have herror : escapedSize "error" = 5 := by decide
  have hok : escapedSize "ok" = 2 := by decide
  have hfalse : textSize ['f', 'a', 'l', 's', 'e'] = 5 := by decide
  rw [size_eq, fields_error h, textSize_object]
  simp only [memberChars, followingSize, textSize_member, hcmd, herror, hok, hfalse, chars,
    textSize_stringChars]
  omega

end Reply

end DeviceRelay
