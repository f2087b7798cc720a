import DeviceRelay.Proofs.Control.Secrecy
import DeviceRelay.Proofs.Document.ReadBack
import DeviceRelay.Proofs.Relays.Updates

/-!
# Writing back what was read

A client is shown the masked copy of the document. To the device a mask is a text like any other, so
a client that sends the copy back, as it was shown it, has what the device reads there for the new
document: what was masked is lost, numbers are what their digits are read as, and all else is as it
was. A copy that the device cannot read changes nothing.

* `ControlProtocol.updateRequest`: a request for a document to be merged.
* `ControlProtocol.parse_updateRequest_iff`: what the device reads where it was written.
* `Service.writeBack_masks`: what is left of a document that was read and written back.
-/

namespace DeviceRelay

open Json

namespace ControlProtocol

/-- A request for a document to be merged into the configuration. -/
def updateRequest (document : Json) : Json :=
  .object [("cmd", .string Command.setConfig.name), ("config", document)]

theorem ordered_updateRequest {document : Json} (h : document.Ordered) :
    (updateRequest document).Ordered := by
  have hkeys : "cmd" < "config" := by decide
  refine .object (List.pairwise_pair.mpr hkeys) ?_
  simp only [List.forall_mem_cons]
  exact ⟨.string _, h, List.forall_mem_nil _⟩

theorem depth_updateRequest (document : Json) :
    (updateRequest document).depth = document.depth + 1 := by
  simp [updateRequest, depth, memberDepth, oneMemberDepth]

theorem reread?_updateRequest (document : Json) :
    (updateRequest document).reread? = document.reread?.map updateRequest := by
  simp only [updateRequest, reread?, rereadMembers?, rereadMember?]
  cases document.reread? <;> rfl

/-- **What is read for a request that was written.** -/
theorem parse_updateRequest_iff {document request : Json} (h : document.Ordered) :
    Json.parse (updateRequest document).render = .ok request ↔
      document.depth < maxDepth ∧
        ∃ back, document.reread? = some back ∧ updateRequest back = request := by
  rw [parse_render_iff (ordered_updateRequest h), depth_updateRequest, reread?_updateRequest,
    Option.map_eq_some_iff, Nat.succ_le_iff]

/-- Where nothing waits, an object is queued. -/
theorem setConfigReply_ofDepth {request document : Json} (h : request.get? "config" = some document)
    (hobject : document.isObject = true) (depth : Nat) :
    setConfigReply request (.ofDepth depth) =
      ((Reply.ok Command.setConfig.name).set "queued" (.bool true),
        { ConfigQueue.ofDepth depth with waiting := [document] }) := by
  have hroom : (ConfigQueue.ofDepth depth).hasRoom = true :=
    decide_eq_true (Nat.lt_of_lt_of_le Nat.zero_lt_one (Nat.le_max_right depth 1))
  have hpush : (ConfigQueue.ofDepth depth).push document =
      (.queued, { ConfigQueue.ofDepth depth with waiting := [document] }) := by
    unfold BoundedQueue.push
    rw [hroom]
    rfl
  cases document with
  | object members =>
    unfold setConfigReply
    dsimp only
    rw [h]
    dsimp only
    rw [hpush]
  | _ => cases hobject

theorem names_configRequest : Names configRequest Command.getConfig.name :=
  (names_iff parse_configRequest).mpr (by decide)

end ControlProtocol

namespace Service

section Command

variable (s : Service) (ctx : ControlContext) (client : ClientId) {text : String}

/-- To ask for the configuration changes nothing. -/
theorem command_getConfig (htext : ControlProtocol.Names text Command.getConfig.name) :
    s.command ctx client text =
      (⟨(Reply.ok Command.getConfig.name).set "config" ctx.facts.config.redact, .requester⟩,
        s) := by
  obtain ⟨hne, request, hparse, hcmd⟩ := htext
  rw [s.command_eq _ _ hparse ((ControlProtocol.nameIn_eq_iff hne).mpr hcmd)]
  rfl

/-- A text that cannot be read changes nothing. -/
theorem command_unreadable {e : Json.ReadError} (hparse : Json.parse text = .error e) :
    s.command ctx client text =
      (⟨(Reply.error none "bad_json").detail e.message, .requester⟩, s) := by
  unfold command ControlProtocol.dispatch
  rw [hparse]
  rfl

/-- An object is queued, where nothing waits. -/
theorem command_update {document : Json} (hobject : document.isObject = true)
    (hparse : Json.parse text = .ok (ControlProtocol.updateRequest document)) (depth : Nat) :
    (s.withUpdates (.ofDepth depth)).command ctx client text =
      (⟨(Reply.ok Command.setConfig.name).set "queued" (.bool true), .requester⟩,
        s.withUpdates { ConfigQueue.ofDepth depth with waiting := [document] }) := by
  have hname : Command.nameIn (ControlProtocol.updateRequest document) =
      Command.setConfig.name := rfl
  have hget : (ControlProtocol.updateRequest document).get? "config" = some document := rfl
  have hreply := ControlProtocol.setConfigReply_ofDepth hget hobject depth
  rw [command_eq _ _ _ hparse hname]
  unfold ControlProtocol.execute withUpdates
  dsimp only
  rw [hreply]
  rfl

end Command

/-- An update leaves the queue to those that wait. -/
theorem state_applyUpdate (s : Service) (network : Network) (now : Duration) (update : Json) :
    (s.applyUpdate network now update).relays.state = s.relays.state := by
  unfold applyUpdate
  dsimp only
  split
  · exact DeviceRelays.state_applyCloud _ _ _ _
  · rfl

theorem config_applyUpdate (s : Service) (network : Network) (now : Duration) (update : Json) :
    (s.applyUpdate network now update).host.config = s.host.config.update update := by
  unfold applyUpdate
  dsimp only
  split
  · rfl
  · rfl

/-- The one update that waits is merged, and then none waits. -/
theorem applyNext?_waiting (s : Service) (depth : Nat) (update : Json) (network : Network)
    (now : Duration) :
    ∃ settled, (s.withUpdates { ConfigQueue.ofDepth depth with waiting := [update] }).applyNext?
        network now = some settled ∧
      settled.nextUpdate? = none ∧ settled.host.config = s.host.config.update update := by
  refine ⟨_, rfl, ?_, config_applyUpdate _ _ _ _⟩
  rw [nextUpdate?, state_applyUpdate]
  rfl

/-- A document that was written, and can be read, is queued, where nothing waits, and then
merged. -/
theorem written_document_merged (s : Service) {document back : Json} (hordered : document.Ordered)
    (hdepth : document.depth < maxDepth) (hback : document.reread? = some back)
    (hobject : back.isObject = true) (depth : Nat) (ctx : ControlContext) (client : ClientId)
    (network : Network) (now : Duration) :
    let text := (ControlProtocol.updateRequest document).render
    let written := (s.withUpdates (.ofDepth depth)).command ctx client text
    written.1 = ⟨(Reply.ok Command.setConfig.name).set "queued" (.bool true), .requester⟩ ∧
      ∃ settled, written.2.applyNext? network now = some settled ∧
        settled.nextUpdate? = none ∧ settled.host.config = s.host.config.update back := by
  intro text written
  have hparse := (ControlProtocol.parse_updateRequest_iff hordered).mpr ⟨hdepth, back, hback, rfl⟩
  obtain ⟨hreply, hqueued⟩ :=
    Prod.ext_iff.mp (s.command_update ctx client hobject hparse depth)
  obtain ⟨settled, happlied, hrest⟩ := s.applyNext?_waiting depth back network now
  refine ⟨hreply, settled, ?_, hrest⟩
  exact (congrArg (applyNext? · network now) hqueued).trans happlied

/-- A document that was written and cannot be read is refused and changes nothing. -/
theorem unreadable_document_refused (s : Service) {document : Json} (hordered : document.Ordered)
    (hunread : maxDepth ≤ document.depth ∨ document.reread? = none) (ctx : ControlContext)
    (client : ClientId) :
    ∃ e : ReadError, s.command ctx client (ControlProtocol.updateRequest document).render =
      (⟨(Reply.error none "bad_json").detail e.message, .requester⟩, s) := by
  cases hparse : Json.parse (ControlProtocol.updateRequest document).render with
  | error e => exact ⟨e, s.command_unreadable ctx client hparse⟩
  | ok request =>
    obtain ⟨hdepth, back, hback, -⟩ := (ControlProtocol.parse_updateRequest_iff hordered).mp hparse
    obtain hdeep | hnone := hunread
    · exact absurd hdepth (Nat.not_lt.mpr hdeep)
    · cases hnone.symm.trans hback

/-- **What is left of a document that is written back as it was read.** Nothing waits at a device,
a client asks for its configuration, and a client sends the document as it was shown. If the device
can read it there, that is accepted, and once it is applied the device has for its document what it
read: the masked copy, in which only texts under the keys of credentials have changed, with each
number as its digits are read. So the document is unchanged exactly where each credential was the
mask before and each number is read as itself, as every integer of 64 bits is. A copy nested too
deep to be read in a request, or with a number that is read as out of range, is refused, and nothing
changes. -/
theorem writeBack_masks (s : Service) (hordered : s.host.config.Ordered)
    (hobject : s.host.config.isObject = true) (depth : Nat) (log : Duration → Option LogSource)
    (network : Network) (reader writer : ClientId) (askedAt sentAt appliedAt : Duration)
    (seed seed' : Nat) {ask : String} (hask : ControlProtocol.Names ask Command.getConfig.name) :
    let idle := s.withUpdates (.ofDepth depth)
    let shown := s.host.config.redact
    let text := (ControlProtocol.updateRequest shown).render
    let asking := idle.relays.context (idle.host.facts askedAt) (log askedAt) askedAt seed
    let sending := idle.relays.context (idle.host.facts sentAt) (log sentAt) sentAt seed'
    let written := idle.command sending writer text
    idle.command asking reader ask =
        (⟨(Reply.ok Command.getConfig.name).set "config" shown, .requester⟩, idle) ∧
    (∀ back, shown.depth < maxDepth → shown.reread? = some back →
      written.1 = ⟨(Reply.ok Command.setConfig.name).set "queued" (.bool true), .requester⟩ ∧
      ∃ settled, written.2.applyNext? network appliedAt = some settled ∧
        settled.nextUpdate? = none ∧ settled.host.config = back ∧
        (settled.host.config = s.host.config ↔
          (∀ c ∈ s.host.config.credentials, c = mask) ∧
            ∀ n ∈ s.host.config.numbers, n.reread? = some n)) ∧
    (maxDepth ≤ shown.depth ∨ shown.reread? = none →
      ∃ e : ReadError, written =
        (⟨(Reply.error none "bad_json").detail e.message, .requester⟩, idle)) ∧
    SameBut isText s.host.config shown ∧
    ∀ n ∈ s.host.config.numbers, n.IsInteger → n.reread? = some n := by
  intro idle shown text asking sending written
  have hcopy : shown.Ordered := ordered_redact hordered
  refine ⟨idle.command_getConfig asking reader hask, fun back hdepth hback => ?_,
    fun hunread => idle.unreadable_document_refused hcopy hunread sending writer,
    sameBut_redact s.host.config, fun _ _ => Number.reread?_of_isInteger⟩
  have hback' : back.isObject = true :=
    isObject_of_reread?_redact hobject hback
  obtain ⟨hqueued, settled, happlied, hnone, hconfig⟩ :=
    s.written_document_merged hcopy hdepth hback hback' depth sending writer network appliedAt
  rw [update_of_reread?_redact hordered hobject hback] at hconfig
  refine ⟨hqueued, settled, happlied, hnone, hconfig, ?_⟩
  rw [hconfig, ← reread?_redact_eq_self_iff, hback, Option.some.injEq]

/-- A device with this document, where nothing waits and nobody is connected. -/
def savedDevice (document : Json) : Service where
  host := .new "pier" "10.0.0.2" document false .zero
  relays :=
    { control := .new controlPath controlLimits none
      camera := .new cameraPath cameraLimits none
      rssi := .new rssiPath rssiLimits none
      gate := .serial
      ticker := none
      state := ⟨.ofDepth updateDepth, .new claimLifetime⟩ }
  server := .empty
  deviceId := "pier"

/-- What a device with this document makes of a copy that is sent back. -/
def writtenBack (document : Json) : ControlReply × Service :=
  let s := savedDevice document
  s.command (s.relays.context (s.host.facts .zero) none .zero 0) ⟨1⟩
    (ControlProtocol.updateRequest document.redact).render

/-- A nested token becomes the mask, and a number its neighbour: sixteen digits are shown of it, and
the double that is read for them is not the one that was shown. -/
theorem writeBack_masks_nested :
    let document (token : String) (gain : UInt64) : Json := .object
      [("camera", .object [("gain", .number (.real ⟨gain⟩))]),
       ("cloudTunnel", .object [("authToken", .string token)])]
    let before := document "s3cret" 4636352168112277535
    let after := document mask 4636352168112277536
    before.redact.render = "\x7b\"camera\":\x7b\"gain\":94.52706955539223\x7d," ++
        "\"cloudTunnel\":\x7b\"authToken\":\"********\"\x7d\x7d" ∧
      ∃ settled, (writtenBack before).2.applyNext? .unreachable .zero = some settled ∧
        settled.host.config = after ∧ after ≠ before := by
  intro document before after
  have hordered : before.Ordered := by
    refine .object (by decide) ?_
    simp only [List.forall_mem_cons]
    refine ⟨.object (by decide) ?_, .object (by decide) ?_, List.forall_mem_nil _⟩
    · exact List.forall_mem_singleton.mpr (.number _)
    · exact List.forall_mem_singleton.mpr (.string _)
  have hback : before.redact.reread? = some after := by
    decide +kernel
  obtain ⟨-, hwritten, -⟩ := writeBack_masks (savedDevice before) hordered rfl updateDepth
    (fun _ => none) .unreachable ⟨1⟩ ⟨1⟩ .zero .zero .zero 0 0 ControlProtocol.names_configRequest
  obtain ⟨-, settled, happlied, -, hconfig, -⟩ := hwritten after (by decide) hback
  exact ⟨by decide +kernel, settled, happlied, hconfig, by decide⟩

/-- A client that sends back what it was shown, and is told that it is queued, costs the device its
token. -/
theorem token_lost_to_writeBack :
    let before : Json := .object [("token", .string "s3cret")]
    let s := savedDevice before
    let asking := s.relays.context (s.host.facts .zero) none .zero 0
    (s.command asking ⟨1⟩ ControlProtocol.configRequest).1 =
        ⟨(Reply.ok Command.getConfig.name).set "config" before.redact, .requester⟩ ∧
      (writtenBack before).1 =
        ⟨(Reply.ok Command.setConfig.name).set "queued" (.bool true), .requester⟩ ∧
      ∃ settled, (writtenBack before).2.applyNext? .unreachable .zero = some settled ∧
        settled.nextUpdate? = none ∧ settled.host.config ≠ before := by
  intro before s asking
  have hordered : before.redact.Ordered :=
    .object (by decide) (List.forall_mem_singleton.mpr (.string _))
  obtain ⟨hqueued, settled, happlied, hnone, hconfig⟩ :=
    s.written_document_merged hordered (by decide) rfl rfl updateDepth asking ⟨1⟩
      .unreachable .zero
  refine ⟨s.reply_configRequest asking ⟨1⟩, hqueued, settled, happlied, hnone, ?_⟩
  rw [hconfig]
  decide

end Service

end DeviceRelay
