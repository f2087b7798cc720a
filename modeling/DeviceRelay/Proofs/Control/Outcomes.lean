import DeviceRelay.Proofs.Control.Replies
import DeviceRelay.Proofs.Json.Written

/-!
# How a command ends

A command succeeds, or it fails with a code. Its reply says so in `ok` and `error`, which no later
field replaces, and what it changes goes with how it ended: only a few commands change anything,
and none that was refused.

* `Reply.Envelope`: a reply that says how a command ended.
* `ControlProtocol.Outcome`: the ways to end, each with what was changed.
* `ControlProtocol.execute_outcome`: a command ends in one of them.
* `ControlProtocol.replies_are_envelopes`: what any text is answered with.
-/

namespace DeviceRelay

open Json

/-! ## Envelopes -/

namespace Reply

/-- The fields are in order, each of them once, and they say how the command ended: it failed with
a code, or it succeeded where there is none. -/
structure Envelope (failure : Option String) (r : Reply) : Prop where
  keys : KeysIncrease r.fields
  ok : r.get? "ok" = some (.bool failure.isNone)
  error : r.get? "error" = failure.map Json.string

/-- No other field changes what a reply says. -/
theorem Envelope.set {failure : Option String} {r : Reply} (h : r.Envelope failure) {key : String}
    (hkey : key ≠ "ok" ∧ key ≠ "error") (v : Json) : (r.set key v).Envelope failure where
  keys := keysIncrease_insertMember key v h.keys
  ok := (get?_set_of_ne hkey.1 r v).trans h.ok
  error := (get?_set_of_ne hkey.2 r v).trans h.error

theorem envelope_ok (cmd : String) : (ok cmd).Envelope none where
  keys := keysIncrease_insertMember _ _ (keysIncrease_insertMember _ _ .nil)
  ok := by rw [ok, get?_set_of_ne (by decide), get?_set, if_pos rfl]; rfl
  error := by rw [ok, get?_set_of_ne (by decide), get?_set_of_ne (by decide)]; rfl

theorem envelope_error (cmd : Option String) (code : String) :
    (error cmd code).Envelope (some code) := by
  have hbase : ((Reply.mk []).set "ok" (.bool false)).get? "ok" = some (.bool false) := by
    rw [get?_set, if_pos rfl]
  have hkeys : KeysIncrease ((Reply.mk []).set "ok" (.bool false)).fields :=
    keysIncrease_insertMember _ _ .nil
  unfold error
  generalize (Reply.mk []).set "ok" (.bool false) = base at hbase hkeys
  have hnamed : ∀ named : Reply, KeysIncrease named.fields →
      named.get? "ok" = some (.bool false) →
      (named.set "error" (.string code)).Envelope (some code) := fun named hk hok =>
    { keys := keysIncrease_insertMember _ _ hk
      ok := (get?_set_of_ne (by decide) _ _).trans hok
      error := by rw [get?_set, if_pos rfl]; rfl }
  dsimp only
  split
  · split
    · exact hnamed base hkeys hbase
    · exact hnamed _ (keysIncrease_insertMember _ _ hkeys)
        ((get?_set_of_ne (by decide) _ _).trans hbase)
  · exact hnamed base hkeys hbase

/-- A failure is repeated in a reply under the name of its command, where that has one. -/
theorem get?_cmd_error (cmd : Option String) (code : String) :
    (error cmd code).get? "cmd" = (cmd.filter fun name => !name.isEmpty).map Json.string := by
  cases cmd with
  | none => rfl
  | some name =>
    rw [Option.filter_some]
    cases hn : name.isEmpty with
    | true =>
      rw [String.isEmpty_iff.mp hn]
      rfl
    | false => exact get?_error hn code

theorem Envelope.isOk_eq {failure : Option String} {r : Reply} (h : r.Envelope failure) :
    r.isOk = failure.isNone := by
  unfold isOk
  rw [h.ok]
  cases failure <;> rfl

end Reply

namespace ControlProtocol

/-! ## Ways to end -/

section Outcome

variable {σ : Type} (board : MediaBoard σ) (ctx : ControlContext) (client : ClientId)
  (request : Json) (state : ControlState) (media : σ)

/-- The switch of the client that a command sets. -/
def switch? : Command → Option (σ → Bool × σ)
  | .cameraSubscribe => some fun m => board.setCamera m client (request.flag "enable" true)
  | .cameraSnapshot => some fun m => board.requestSnapshot m client
  | _ => none

/-- Whether a command that shows the claim code asks for a new one. -/
def rotation? : Command → Option Bool
  | .getInfo => some false
  | .getClaim => some (request.flag "rotate")
  | _ => none

/-- How a command may end: with which failure, if any, and with which changes. -/
inductive Outcome : Command → Option String → ControlState → σ → Prop where
  /-- It reports, and changes nothing. -/
  | told {cmd : Command} (hs : switch? board client request cmd = none)
      (hr : rotation? request cmd = none) (hc : cmd ≠ .setConfig) : Outcome cmd none state media
  /-- It is refused before anything is touched. -/
  | refused (cmd : Command) (failure : String) : Outcome cmd (some failure) state media
  /-- It asks the board, which may not know the client. -/
  | asked {cmd : Command} {apply : σ → Bool × σ}
      (hs : switch? board client request cmd = some apply) :
      Outcome cmd (if (apply media).1 then none else some "unknown_client") state (apply media).2
  /-- It shows the claim code, which may have to be drawn for it. -/
  | claimed {cmd : Command} {rotate : Bool} (hr : rotation? request cmd = some rotate) :
      Outcome cmd none
        { state with claims := (state.claims.current rotate ctx.now ctx.seed).2 } media
  /-- It puts an update into the queue, which is open and has room. -/
  | queued {update : Json} (hu : request.get? "config" = some update)
      (hopen : state.updates.isOpen = true)
      (hroom : state.updates.waiting.length < state.updates.capacity) :
      Outcome .setConfig none
        { state with
          updates := { state.updates with waiting := state.updates.waiting ++ [update] } } media

theorem cameraReply_outcome {board : MediaBoard σ} {client : ClientId} {request : Json}
    {cmd : Command} {apply : σ → Bool × σ} (hs : switch? board client request cmd = some apply) :
    ∃ failure, (cameraReply cmd ctx.facts apply media).1.Envelope failure ∧
      Outcome board ctx client request state media cmd failure state
        (cameraReply cmd ctx.facts apply media).2 := by
  have hasked : Outcome board ctx client request state media cmd _ state (apply media).2 :=
    .asked hs
  unfold cameraReply
  by_cases hcamera : (!ctx.facts.camera) = true
  · rw [if_pos hcamera]
    exact ⟨some _, Reply.envelope_error (some cmd.name) "camera_unavailable", .refused cmd _⟩
  · rw [if_neg hcamera]
    cases happly : apply media with
    | mk known media' =>
      rw [happly] at hasked
      cases known with
      | true => exact ⟨none, Reply.envelope_ok cmd.name, hasked⟩
      | false => exact ⟨some _, Reply.envelope_error (some cmd.name) "unknown_client", hasked⟩

/-- The answer to an update that is put into the queue, and the queue. -/
def answerUpdate (updates : ConfigQueue) (update : Json) : Reply × ConfigQueue :=
  match updates.push update with
  | (.queued, updates) =>
    ((Reply.ok Command.setConfig.name).set "queued" (.bool true), updates)
  | (_, updates) =>
    ((Reply.error (some Command.setConfig.name) "queue_failed").set "queued" (.bool false), updates)

/-- What a client is told is what happened to its update. -/
theorem answerUpdate_cases (updates : ConfigQueue) (update : Json) :
    (updates.isOpen = true ∧ updates.waiting.length < updates.capacity ∧
      answerUpdate updates update =
        ((Reply.ok Command.setConfig.name).set "queued" (.bool true),
          { updates with waiting := updates.waiting ++ [update] })) ∨
    answerUpdate updates update =
      ((Reply.error (some Command.setConfig.name) "queue_failed").set "queued" (.bool false),
        updates) := by
  unfold answerUpdate
  obtain heq | ⟨hne, hsame⟩ := updates.push_cases update
  · have htaken : (updates.push update).1 = .queued := congrArg Prod.fst heq
    obtain ⟨hopen, hroom⟩ := BoundedQueue.push_eq_queued_iff.mp htaken
    rw [heq]
    exact .inl ⟨hopen, hroom, rfl⟩
  · right
    split
    · rename_i heq
      rw [heq] at hne
      exact absurd rfl hne
    · rename_i heq
      rw [heq] at hsame
      rw [← hsame]

/-- A request has an update, or it is refused without one. -/
theorem setConfigReply_cases (request : Json) (updates : ConfigQueue) :
    (∃ update, request.get? "config" = some update ∧
      setConfigReply request updates = answerUpdate updates update) ∨
    setConfigReply request updates =
      (.error (some Command.setConfig.name) "missing_config", updates) := by
  unfold setConfigReply
  dsimp only
  split
  · exact .inl ⟨_, ‹_›, rfl⟩
  · exact .inl ⟨_, ‹_›, rfl⟩
  · exact .inr rfl

theorem setConfigReply_outcome :
    ∃ failure, (setConfigReply request state.updates).1.Envelope failure ∧
      Outcome board ctx client request state media .setConfig failure
        { state with updates := (setConfigReply request state.updates).2 } media := by
  obtain ⟨update, hu, heq⟩ | heq := setConfigReply_cases request state.updates
  · rw [heq]
    obtain ⟨hopen, hroom, heq⟩ | heq := answerUpdate_cases state.updates update
    · rw [heq]
      exact ⟨none, (Reply.envelope_ok _).set (by decide) _, .queued hu hopen hroom⟩
    · rw [heq]
      exact ⟨some _, (Reply.envelope_error _ _).set (by decide) _, .refused _ _⟩
  · rw [heq]
    exact ⟨_, Reply.envelope_error (some Command.setConfig.name) "missing_config", .refused _ _⟩

theorem logReply_envelope (source : Option LogSource) (request : Json) (viaTunnel : Bool) :
    ∃ failure, (logReply source request viaTunnel).Envelope failure := by
  unfold logReply
  split
  · exact ⟨_, Reply.envelope_error _ _⟩
  · dsimp only
    split
    · exact ⟨_, (((((((Reply.envelope_ok _).set (by decide) _).set (by decide) _).set
        (by decide) _).set (by decide) _).set (by decide) _).set (by decide) _).set (by decide) _⟩
    · exact ⟨_, Reply.envelope_error _ _⟩
    · exact ⟨_, Reply.envelope_error _ _⟩
    · exact ⟨_, (Reply.envelope_error _ _).set (by decide) _⟩
    · exact ⟨_, Reply.envelope_error _ _⟩

/-- **How a command ends** is what its reply says, and what it changes goes with that. -/
theorem execute_outcome (cmd : Command) :
    ∃ failure, (execute board ctx client cmd request state media).1.Envelope failure ∧
      Outcome board ctx client request state media cmd failure
        (execute board ctx client cmd request state media).2.1
        (execute board ctx client cmd request state media).2.2 := by
  cases cmd with
  | ping => exact ⟨_, (Reply.envelope_ok _).set (by decide) _, .told rfl rfl (by nofun)⟩
  | getStatus =>
    exact ⟨_, (((Reply.envelope_ok _).set (by decide) _).set (by decide) _).set (by decide) _,
      .told rfl rfl (by nofun)⟩
  | getInfo => exact ⟨_, (Reply.envelope_ok _).set (by decide) _, .claimed rfl⟩
  | getConfig => exact ⟨_, (Reply.envelope_ok _).set (by decide) _, .told rfl rfl (by nofun)⟩
  | getClaim =>
    exact ⟨_, ((Reply.envelope_ok _).set (by decide) _).set (by decide) _, .claimed rfl⟩
  | getRssi =>
    refine ⟨none, ?_, .told rfl rfl (by nofun)⟩
    have hok : (Reply.ok Command.getRssi.name).Envelope none := Reply.envelope_ok _
    unfold execute rssiReply
    dsimp only
    split
    · exact ((hok.set (by decide) _).set (by decide) _).set (by decide) _
    · exact (hok.set (by decide) _).set (by decide) _
  | getLogs =>
    obtain ⟨failure, henvelope⟩ := logReply_envelope ctx.log request client.isTunnel
    refine ⟨failure, henvelope, ?_⟩
    cases failure with
    | none => exact .told rfl rfl (by nofun)
    | some code => exact .refused _ code
  | cameraSubscribe =>
    have hs : switch? board client request .cameraSubscribe =
        some fun m => board.setCamera m client (request.flag "enable" true) := rfl
    obtain ⟨failure, henvelope, houtcome⟩ := cameraReply_outcome ctx state media hs
    have hkey : "subscribed" ≠ "ok" ∧ "subscribed" ≠ "error" := by decide
    exact ⟨failure, henvelope.set hkey _, houtcome⟩
  | cameraSnapshot =>
    have hs : switch? board client request .cameraSnapshot =
        some fun m => board.requestSnapshot m client := rfl
    obtain ⟨failure, henvelope, houtcome⟩ := cameraReply_outcome ctx state media hs
    have hkey : "queued" ≠ "ok" ∧ "queued" ≠ "error" := by decide
    exact ⟨failure, henvelope.set hkey _, houtcome⟩
  | cameraStatus =>
    exact ⟨_, ((Reply.envelope_ok _).set (by decide) _).set (by decide) _,
      .told rfl rfl (by nofun)⟩
  | setConfig => exact setConfigReply_outcome board ctx client request state media

/-! ## Texts -/

/-- **What a text comes to.** It is refused as it stands, or it is a request with the name of a
command, which ends in one of its ways. -/
theorem dispatch_outcome (text : String) :
    (∃ failure, (dispatch board ctx client text state media).1.reply.Envelope (some failure) ∧
      (dispatch board ctx client text state media).2 = (state, media)) ∨
    ∃ request cmd failure, Json.parse text = .ok request ∧ Command.nameIn request = cmd.name ∧
      (dispatch board ctx client text state media).1.reply.Envelope failure ∧
      Outcome board ctx client request state media cmd failure
        (dispatch board ctx client text state media).2.1
        (dispatch board ctx client text state media).2.2 := by
  unfold dispatch
  cases hparse : Json.parse text with
  | error e =>
    have hrefused : ((Reply.error none "bad_json").detail e.message).Envelope (some "bad_json") :=
      (Reply.envelope_error _ _).set (by decide) _
    exact .inl ⟨_, hrefused, rfl⟩
  | ok request =>
    dsimp only
    cases hname : Command.ofName? (Command.nameIn request) with
    | none =>
      exact .inl ⟨_, Reply.envelope_error (some (Command.nameIn request)) "unknown_cmd", rfl⟩
    | some cmd =>
      obtain ⟨failure, henvelope, houtcome⟩ :=
        execute_outcome board ctx client request state media cmd
      exact .inr ⟨request, cmd, failure, rfl, Command.ofName?_eq_some_iff.mp hname, henvelope,
        houtcome⟩

end Outcome

/-- A text is a request that names a command, not necessarily one of the table. -/
def Names (text name : String) : Prop :=
  name ≠ "" ∧ ∃ request, Json.parse text = .ok request ∧ request.get? "cmd" = some (.string name)

theorem nameIn_eq_iff {request : Json} {name : String} (h : name ≠ "") :
    Command.nameIn request = name ↔ request.get? "cmd" = some (.string name) := by
  unfold Command.nameIn Json.text Json.text?
  cases hcmd : request.get? "cmd" with
  | none => simp [h.symm]
  | some v => cases v <;> simp [Json.string?, h.symm]

theorem names_iff {text name : String} {request : Json} (h : Json.parse text = .ok request) :
    Names text name ↔ name ≠ "" ∧ Command.nameIn request = name := by
  refine and_congr_right fun hname => ?_
  rw [nameIn_eq_iff hname, h]
  constructor
  · rintro ⟨_, heq, hcmd⟩
    cases heq
    exact hcmd
  · exact fun hcmd => ⟨request, rfl, hcmd⟩

/-- A reply names the command as the request does, where that names one at all. -/
theorem cmd_dispatch {σ : Type} (board : MediaBoard σ) (ctx : ControlContext) (client : ClientId)
    (text : String) (state : ControlState) (media : σ) (v : Json) :
    (dispatch board ctx client text state media).1.reply.get? "cmd" = some v ↔
      ∃ name, Names text name ∧ v = .string name := by
  cases hparse : Json.parse text with
  | error e =>
    rw [dispatch_of_error hparse, Reply.detail, Reply.get?_set_of_ne (by decide),
      Reply.get?_cmd_error]
    refine iff_of_false (by nofun) ?_
    rintro ⟨_, ⟨-, _, hok, -⟩, -⟩
    cases hparse.symm.trans hok
  | ok request =>
    have hnamed : (dispatch board ctx client text state media).1.reply.get? "cmd" =
        ((some (Command.nameIn request)).filter fun name => !name.isEmpty).map Json.string := by
      cases hname : Command.ofName? (Command.nameIn request) with
      | none => rw [dispatch_of_unknown hparse hname, Reply.get?_cmd_error]
      | some cmd =>
        rw [dispatch_of_known hparse hname, cmd_execute, Command.ofName?_eq_some_iff.mp hname,
          Option.filter_some, isEmpty_name]
        rfl
    rw [hnamed]
    simp only [names_iff hparse, Option.map_eq_some_iff, Option.filter_eq_some_iff]
    constructor
    · rintro ⟨name, ⟨hname, hne⟩, rfl⟩
      have hne : name ≠ "" := by
        rintro rfl
        cases hne
      exact ⟨name, ⟨hne, Option.some.inj hname⟩, rfl⟩
    · rintro ⟨name, ⟨hne, hname⟩, rfl⟩
      exact ⟨name, ⟨congrArg some hname, by simpa using hne⟩, rfl⟩

/-- The report of the signal level is for everybody, and no other reply is. -/
theorem route_dispatch {σ : Type} (board : MediaBoard σ) (ctx : ControlContext)
    (client : ClientId) (text : String) (state : ControlState) (media : σ) :
    (dispatch board ctx client text state media).1.route = .broadcast ↔
      Names text Command.getRssi.name := by
  cases hparse : Json.parse text with
  | error e =>
    rw [dispatch_of_error hparse]
    refine iff_of_false (by nofun) ?_
    rintro ⟨-, _, hok, -⟩
    cases hparse.symm.trans hok
  | ok request =>
    have hasks : Names text Command.getRssi.name ↔
        Command.ofName? (Command.nameIn request) = some .getRssi := by
      rw [names_iff hparse, Command.ofName?_eq_some_iff]
      exact and_iff_right (by decide)
    rw [hasks]
    cases hname : Command.ofName? (Command.nameIn request) with
    | none =>
      rw [dispatch_of_unknown hparse hname]
      exact iff_of_false (by nofun) (by nofun)
    | some cmd =>
      rw [dispatch_of_known hparse hname]
      cases cmd <;> simp [routeOf]

theorem message_ne_empty (e : Json.ReadError) : e.message ≠ "" := by
  unfold Json.ReadError.message
  simp [String.append_eq_empty_iff, toString]

/-- **Replies are envelopes.** Whatever the text, its reply says whether the command succeeded, and
with which code it failed; it names the command just where the request names one; a text that
cannot be read is answered with the reason; and the reply is for everybody just where the request
asks for the signal level. -/
theorem replies_are_envelopes {σ : Type} (board : MediaBoard σ) (ctx : ControlContext)
    (client : ClientId) (text : String) (state : ControlState) (media : σ) :
    let r := (dispatch board ctx client text state media).1
    (∃ failure, r.reply.Envelope failure) ∧
    (∀ v, r.reply.get? "cmd" = some v ↔ ∃ name, Names text name ∧ v = .string name) ∧
    (∀ e, Json.parse text = .error e → r.reply.Envelope (some "bad_json") ∧
      ∃ detail, detail ≠ "" ∧ r.reply.get? "detail" = some (.string detail)) ∧
    (r.route = .broadcast ↔ Names text Command.getRssi.name) := by
  refine ⟨?_, cmd_dispatch board ctx client text state media, fun e hparse => ?_,
    route_dispatch board ctx client text state media⟩
  · obtain ⟨failure, henvelope, -⟩ | ⟨_, _, failure, -, -, henvelope, -⟩ :=
      dispatch_outcome board ctx client state media text
    · exact ⟨some failure, henvelope⟩
    · exact ⟨failure, henvelope⟩
  · rw [dispatch_of_error hparse]
    exact ⟨(Reply.envelope_error none "bad_json").set (by decide) _, e.message,
      message_ne_empty e, (Reply.get?_set _ _ _ _).trans (if_pos rfl)⟩

end ControlProtocol

end DeviceRelay
