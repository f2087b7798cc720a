import DeviceRelay.Proofs.Control.Effects
import DeviceRelay.Proofs.Relays.Following

/-!
# Updates between their acceptance and the document

Clients put updates into a queue, and the device takes them out again to merge them into its
document, each side at its own pace. What a client was told is what becomes of its update: those
that were accepted are merged in the order of acceptance, each of them once, and those that were
refused leave no trace.

* `UpdateMove`, `Service.act`: what happens at the queue, in any order.
* `Service.accepted`, `Service.applied`: the updates that clients were told are queued, and those
  that the device merged.
* `Service.Passed`: what a course does to the queue and the document.
* `Service.updates_in_order`: the updates of any course.
-/

namespace DeviceRelay

theorem BoundedQueue.capacity_of_pop {α : Type} {q q' : BoundedQueue α} {a : α}
    (h : q.pop = (.item a, q')) : q'.capacity = q.capacity := by
  unfold pop at h
  split at h
  · cases h
    rfl
  · split at h <;> cases h

/-! ## The relays -/

namespace DeviceRelays

theorem state_callTunnel (r : DeviceRelays) (network : Network) (index : Nat) (now : Duration)
    (e : TunnelEvent) : (r.callTunnel network index now e).state = r.state :=
  (fleet_foldl_deliverSeen _ _).2

/-- The cloud settings concern neither the queue nor the claim code. -/
theorem state_applyCloud (r : DeviceRelays) (network : Network) (settings : CloudSettings)
    (now : Duration) : (r.applyCloud network settings now).state = r.state := by
  unfold applyCloud
  generalize List.range r.tunnels.length = indices
  induction indices generalizing r with
  | nil => rfl
  | cons index indices ih =>
    rw [List.foldl_cons, ih, applyTo, state_callTunnel, state_callTunnel, state_callTunnel]

end DeviceRelays

/-! ## What a client is told -/

namespace ControlProtocol

/-- Where an update is accepted, the client is told that it waits. -/
theorem queued_of_isOk {request : Json} {updates : ConfigQueue}
    (h : (setConfigReply request updates).1.isOk = true) :
    (setConfigReply request updates).1.get? "queued" = some (.bool true) := by
  obtain ⟨update, -, heq⟩ | heq := setConfigReply_cases request updates
  · rw [heq] at h ⊢
    obtain ⟨-, -, heq⟩ | heq := answerUpdate_cases updates update
    · rw [heq, Reply.get?_set, if_pos rfl]
    · rw [heq] at h
      have hkey : "queued" ≠ "ok" ∧ "queued" ≠ "error" := by decide
      cases ((Reply.envelope_error _ _).set hkey _).isOk_eq.symm.trans h
  · rw [heq] at h
    cases (Reply.envelope_error _ _).isOk_eq.symm.trans h

end ControlProtocol

/-- What happens at a device, as far as its updates are concerned. -/
inductive UpdateMove where
  /-- A text of a client is executed. -/
  | command (ctx : ControlContext) (client : ClientId) (text : String)
  /-- The device takes the next update, if one waits, and applies it. -/
  | applied (network : Network) (now : Duration)
  /-- The queue takes no more updates. -/
  | closed
  /-- Anything else happens, which touches neither the queue nor the document. -/
  | elsewhere (f : Service → Service)

namespace Service

/-- The device with this queue of updates. -/
def withUpdates (s : Service) (updates : ConfigQueue) : Service :=
  { s with relays := { s.relays with state := { s.relays.state with updates := updates } } }

/-- The next update that waits. -/
def nextUpdate? (s : Service) : Option Json :=
  match s.relays.state.updates.pop.1 with
  | .item update => some update
  | .empty | .disconnected => none

/-- The device with the next update that waits in its document. -/
def mergeNext (s : Service) : Service :=
  match s.relays.state.updates.pop with
  | (.item update, updates) =>
    { s.withUpdates updates with host := s.host.applyUpdate update }
  | (.empty, _) | (.disconnected, _) => s

/-- The device applies an update by merging it, after which its tunnels may get their settings. -/
theorem applyNext?_cases (s : Service) (network : Network) (now : Duration) :
    (s.applyNext? network now).getD s = s.mergeNext ∨
      (s.applyNext? network now).getD s =
        { s.mergeNext with
          relays := s.mergeNext.relays.applyCloud network s.mergeNext.cloudSettings now } := by
  unfold applyNext? mergeNext
  cases s.relays.state.updates.pop with
  | mk popped updates =>
    cases popped with
    | empty | disconnected => exact .inl rfl
    | item update =>
      dsimp only [Option.getD_some]
      unfold applyUpdate
      dsimp only
      split
      · exact .inr rfl
      · exact .inl rfl

/-- The device after a move. -/
def act (s : Service) : UpdateMove → Service
  | .command ctx client text => (s.command ctx client text).2
  | .applied network now => (s.applyNext? network now).getD s
  | .closed => s.withUpdates s.relays.state.updates.close
  | .elsewhere f =>
    { (f s).withUpdates s.relays.state.updates with
      host := { (f s).host with config := s.host.config } }

def course (s : Service) (moves : List UpdateMove) : Service := moves.foldl act s

/-- The update of a request that is answered with its being queued. -/
def queuedBy (request : Json) (reply : Reply) : Option Json :=
  if Command.nameIn request = Command.setConfig.name ∧ reply.isOk = true ∧
      reply.get? "queued" = some (.bool true) then
    request.get? "config"
  else none

/-- The update that a client is told is queued. -/
def accepted? (s : Service) : UpdateMove → Option Json
  | .command ctx client text =>
    match Json.parse text with
    | .ok request => queuedBy request (s.command ctx client text).1.reply
    | .error _ => none
  | _ => none

/-- The update that the device applies. -/
def applied? (s : Service) : UpdateMove → Option Json
  | .applied _ _ => s.nextUpdate?
  | _ => none

/-- The updates that the moves of a course have, as `of` says, one after the other. -/
def traced (of : Service → UpdateMove → Option Json) : List UpdateMove → Service → List Json
  | [], _ => []
  | m :: moves, s => (of s m).toList ++ traced of moves (s.act m)

/-- The updates that clients are told are queued. -/
def accepted (s : Service) (moves : List UpdateMove) : List Json := traced accepted? moves s

/-- The updates that the device applies. -/
def applied (s : Service) (moves : List UpdateMove) : List Json := traced applied? moves s

/-- What a course does to the queue and the document, where clients were told that some updates are
queued, and the device applied some. -/
structure Passed (s s' : Service) (accepted applied : List Json) : Prop where
  waiting : s.relays.state.updates.waiting ++ accepted =
    applied ++ s'.relays.state.updates.waiting
  document : s'.host.config = applied.foldl Json.update s.host.config
  capacity : s'.relays.state.updates.capacity = s.relays.state.updates.capacity
  room : s.relays.state.updates.waiting.length ≤ s.relays.state.updates.capacity →
    s'.relays.state.updates.waiting.length ≤ s.relays.state.updates.capacity

variable {s : Service}

theorem Passed.refl (s : Service) : Passed s s [] [] where
  waiting := List.append_nil _
  document := rfl
  capacity := rfl
  room := id

/-- Nothing else of the device counts. -/
theorem Passed.congr {s' s'' : Service} {accepted applied : List Json}
    (h : Passed s s' accepted applied)
    (hwaiting : s''.relays.state.updates.waiting = s'.relays.state.updates.waiting)
    (hcapacity : s''.relays.state.updates.capacity = s'.relays.state.updates.capacity)
    (hconfig : s''.host.config = s'.host.config) : Passed s s'' accepted applied where
  waiting := by rw [hwaiting, h.waiting]
  document := hconfig.trans h.document
  capacity := hcapacity.trans h.capacity
  room := by rw [hwaiting]; exact h.room

theorem Passed.trans {s' s'' : Service} {accepted accepted' applied applied' : List Json}
    (h : Passed s s' accepted applied) (h' : Passed s' s'' accepted' applied') :
    Passed s s'' (accepted ++ accepted') (applied ++ applied') where
  waiting := by
    rw [← List.append_assoc, h.waiting, List.append_assoc, h'.waiting, List.append_assoc]
  document := by rw [List.foldl_append, ← h.document, h'.document]
  capacity := h'.capacity.trans h.capacity
  room hroom := h.capacity ▸ h'.room (h.capacity.symm ▸ h.room hroom)

/-! ## One move -/

section Command

variable {ctx : ControlContext} {client : ClientId} {text : String}

theorem accepted?_of_failed (h : (s.command ctx client text).1.reply.isOk = false) :
    s.accepted? (.command ctx client text) = none := by
  rw [accepted?]
  cases Json.parse text with
  | error => rfl
  | ok request => simp [queuedBy, h]

/-- Of the commands that succeed only one has an update. -/
theorem accepted?_of_isOk {request : Json} {cmd : Command}
    (hparse : Json.parse text = .ok request) (hname : Command.nameIn request = cmd.name)
    (hok : (s.command ctx client text).1.reply.isOk = true) :
    s.accepted? (.command ctx client text) =
      if cmd = .setConfig then request.get? "config" else none := by
  have hknown : Command.ofName? (Command.nameIn request) = some cmd :=
    Command.ofName?_eq_some_iff.mpr hname
  have hreply : (s.command ctx client text).1.reply =
      (ControlProtocol.execute Endpoint.mediaBoard ctx client cmd request s.relays.state
        s.relays.control).1 :=
    congrArg ControlReply.reply (ControlProtocol.dispatch_of_known hparse hknown)
  rw [accepted?, hparse]
  dsimp only [queuedBy]
  by_cases hcmd : cmd = .setConfig
  · subst hcmd
    have hqueued : (s.command ctx client text).1.reply.get? "queued" = some (.bool true) := by
      rw [hreply] at hok ⊢
      exact ControlProtocol.queued_of_isOk hok
    rw [if_pos ⟨hname, hok, hqueued⟩, if_pos rfl]
  · have hother : Command.nameIn request ≠ Command.setConfig.name := by
      intro hset
      have hset := hknown.symm.trans (Command.ofName?_eq_some_iff.mpr hset)
      exact hcmd (Option.some.inj hset)
    rw [if_neg fun h => hother h.1, if_neg hcmd]

/-- **A text** puts the update that its client is told is queued behind the others, and does nothing
else to the queue. -/
theorem passed_command :
    Passed s (s.command ctx client text).2 (s.accepted? (.command ctx client text)).toList [] := by
  obtain ⟨code, henvelope, hsame⟩ | ⟨henvelope, request, cmd, hparse, hname, hdoes⟩ :=
    s.command_cases ctx client text
  · rw [accepted?_of_failed henvelope.isOk_eq, hsame]
    exact .refl s
  · rw [accepted?_of_isOk hparse hname henvelope.isOk_eq]
    generalize (s.command ctx client text).2 = s' at hdoes ⊢
    cases hdoes with
    | subscribed | requested => exact (Passed.refl s).congr rfl rfl rfl
    | nothing h =>
      have hother : cmd ≠ .setConfig := by
        rintro rfl
        simp at h
      rw [if_neg hother]
      exact (Passed.refl s).congr rfl rfl rfl
    | shown hr | drawn hr =>
      have hother : cmd ≠ .setConfig := by
        rintro rfl
        cases hr
      rw [if_neg hother]
      exact (Passed.refl s).congr rfl rfl rfl
    | queued hu hopen hroom =>
      rw [if_pos rfl, hu]
      exact {
        waiting := rfl
        document := rfl
        capacity := rfl
        room := by
          intro _
          rw [withControl, List.length_append]
          exact hroom }

end Command

theorem passed_mergeNext (s : Service) : Passed s s.mergeNext [] s.nextUpdate?.toList := by
  unfold mergeNext nextUpdate?
  cases hpop : s.relays.state.updates.pop with
  | mk popped updates =>
    cases popped with
    | empty | disconnected => exact .refl s
    | item update =>
      have hwaiting := BoundedQueue.waiting_of_pop hpop
      exact {
        waiting := (List.append_nil _).trans hwaiting
        document := rfl
        capacity := BoundedQueue.capacity_of_pop hpop
        room := by
          intro hroom
          rw [hwaiting] at hroom
          exact Nat.le_of_succ_le hroom }

/-- **The device** takes the oldest update and merges it, whatever that means for its tunnels. -/
theorem passed_applied (network : Network) (now : Duration) :
    Passed s (s.act (.applied network now)) [] (s.applied? (.applied network now)).toList := by
  have hmerged := passed_mergeNext s
  rw [act]
  obtain heq | heq := s.applyNext?_cases network now
  · rw [heq]
    exact hmerged
  · have hstate := s.mergeNext.relays.state_applyCloud network s.mergeNext.cloudSettings now
    rw [heq]
    exact hmerged.congr (by rw [hstate]) (by rw [hstate]) rfl

theorem passed_act (m : UpdateMove) :
    Passed s (s.act m) (s.accepted? m).toList (s.applied? m).toList := by
  cases m with
  | command ctx client text => exact passed_command
  | applied network now => exact passed_applied network now
  | closed => exact (Passed.refl s).congr rfl rfl rfl
  | elsewhere f => exact (Passed.refl s).congr rfl rfl rfl

/-! ## Courses -/

theorem passed_course (s : Service) (moves : List UpdateMove) :
    Passed s (s.course moves) (s.accepted moves) (s.applied moves) := by
  induction moves generalizing s with
  | nil => exact .refl s
  | cons m moves ih => exact (passed_act m).trans (ih (s.act m))

theorem traced_append (of : Service → UpdateMove → Option Json) (pre post : List UpdateMove)
    (s : Service) :
    traced of (pre ++ post) s = traced of pre s ++ traced of post (s.course pre) := by
  induction pre generalizing s with
  | nil => rfl
  | cons m pre ih =>
    rw [List.cons_append, traced, traced, ih, List.append_assoc]
    rfl

theorem course_append (s : Service) (pre post : List UpdateMove) :
    s.course (pre ++ post) = (s.course pre).course post := List.foldl_append

/-- A text that is refused may as well not have been sent. -/
theorem course_of_refused {ctx : ControlContext} {client : ClientId} {text : String}
    (pre post : List UpdateMove)
    (h : ((s.course pre).command ctx client text).1.reply.get? "error" ≠ none) :
    s.course (pre ++ .command ctx client text :: post) = s.course (pre ++ post) ∧
      s.applied (pre ++ .command ctx client text :: post) = s.applied (pre ++ post) := by
  obtain ⟨-, -, hsame⟩ | ⟨henvelope, -⟩ := (s.course pre).command_cases ctx client text
  · have hact : (s.course pre).act (.command ctx client text) = s.course pre := hsame
    rw [course_append, course_append, applied, applied, traced_append, traced_append, traced, hact]
    refine ⟨?_, rfl⟩
    rw [course, List.foldl_cons, hact]
    rfl
  · exact absurd henvelope.error h

/-- **No update is lost, duplicated or reordered.** Clients send texts, the device takes updates,
and other things happen, in any order. At every point the updates that clients were told are queued
are those that were applied, in the same order, and then those that wait; the document is what the
applied ones have made of it; and no more of them wait than the queue is deep. A text that is
answered with an error may as well not have been sent. -/
theorem updates_in_order (s : Service) (depth : Nat) (moves : List UpdateMove) :
    let started := s.withUpdates (.ofDepth depth)
    let s' := started.course moves
    started.accepted moves = started.applied moves ++ s'.relays.state.updates.waiting ∧
    s'.host.config = (started.applied moves).foldl Json.update s.host.config ∧
    s'.relays.state.updates.waiting.length ≤ max 1 depth ∧
    ∀ pre ctx client text post, moves = pre ++ .command ctx client text :: post →
      ((started.course pre).command ctx client text).1.reply.get? "error" ≠ none →
        s' = started.course (pre ++ post) ∧
          started.applied moves = started.applied (pre ++ post) := by
  intro started s'
  have hpassed : Passed started s' (started.accepted moves) (started.applied moves) :=
    passed_course started moves
  have hempty : started.relays.state.updates = ⟨max depth 1, [], true⟩ := rfl
  refine ⟨?_, hpassed.document, ?_, ?_⟩
  · simpa [hempty] using hpassed.waiting
  · have hroom := hpassed.room (by simp [hempty])
    rw [hempty, Nat.max_comm] at hroom
    exact hroom
  · rintro pre ctx client text post rfl hrefused
    exact course_of_refused pre post hrefused

end Service

end DeviceRelay
