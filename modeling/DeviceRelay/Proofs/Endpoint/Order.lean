import DeviceRelay.Proofs.Endpoint.Ledger

/-!
# The order in which the handler is told

Every notice comes once, so the handler gets the events of an endpoint in the order of their
production exactly when no event overtakes a notice that a task still carries. The order in which
concurrent calls come to the line makes no difference to that.

* `Endpoint.ConnectedFirst`: the handler hears of a client before it gets anything from it.
* `Endpoint.handled_in_order_iff`: when the handler is told in order.
-/

namespace DeviceRelay

/-- The client that the handler must know when it gets this event. -/
def EndpointEvent.needs : EndpointEvent → Option ClientId
  | .connected _ => none
  | .disconnected id => some id
  | .frame id _ => if id.isTunnel then none else some id

namespace Endpoint

/-- A local client is connected before a frame of it comes and before it is disconnected. -/
def ConnectedFirst (events : List EndpointEvent) : Prop :=
  ∀ before event after id, events = before ++ event :: after → event.needs = some id →
    .connected id ∈ before

theorem ConnectedFirst.append {events more : List EndpointEvent} (h : ConnectedFirst events)
    (hmore : ∀ event ∈ more, ∀ id, event.needs = some id → .connected id ∈ events) :
    ConnectedFirst (events ++ more) := by
  intro before event after id heq hneeds
  rcases List.append_eq_append_iff.mp heq with ⟨rest, rfl, hrest⟩ | ⟨rest, hevents, hrest⟩
  · have hevent : event ∈ more := hrest ▸ List.mem_append_right rest List.mem_cons_self
    exact List.mem_append_left _ (hmore event hevent id hneeds)
  · cases rest with
    | nil =>
      have hcons : event :: after = more := hrest
      have hevent : event ∈ more := hcons ▸ List.mem_cons_self
      rw [List.append_nil] at hevents
      exact hevents ▸ hmore event hevent id hneeds
    | cons first rest =>
      obtain ⟨rfl, -⟩ := List.cons.inj hrest
      exact h before event rest id hevents hneeds

theorem ConnectedFirst.of_append {events more : List EndpointEvent}
    (h : ConnectedFirst (events ++ more)) : ConnectedFirst events := by
  intro before event after id heq
  exact h before event (after ++ more) id (by simp [heq])

/-! ## The order of production -/

/-- A call tells of a tracked client only, unless it admits it. -/
theorem needs_of_mem_moves {e : Endpoint} {c : Call} {event : EndpointEvent} {id : ClientId}
    (h : .notify event ∈ e.moves c ∨ .enqueue event ∈ e.moves c ∨ .offer event ∈ e.moves c)
    (hneeds : event.needs = some id) : id ∈ e.clientIds := by
  rcases h with h | h | h
  · cases does_of_mem h with
    | leaves hid =>
      cases hneeds
      exact (List.mem_filter.mp hid).1
    | comes => cases hneeds
  · cases does_of_mem h with
    | delivers hid =>
      rw [EndpointEvent.needs] at hneeds
      split at hneeds
      · cases hneeds
      · cases hneeds
        exact hid.resolve_left ‹_›
  · cases does_of_mem h with
    | relays => cases hneeds

variable {limits : EndpointLimits}

theorem connectedFirst_told {path : String} {token : Option String} {calls : List Call}
    (h : (course (new path limits token) calls).admitted.length < UInt32.size - 2) :
    ConnectedFirst (EventLine.course (course (new path limits token) calls).moves).told := by
  induction calls using List.reverseRecOn with
  | nil =>
    intro before event after id heq
    exact absurd heq.symm (by simp [course, EventLine.course])
  | append_singleton calls c ih =>
    have hlt := Nat.lt_of_le_of_lt (length_admitted_le (new path limits token) calls [c]) h
    have hs : Roster limits _ := roster_course hlt
    have hl := ledger_course hlt
    rw [course_append_singleton, Course.next, EventLine.course_append]
    obtain ⟨events, htold, hevents⟩ := EventLine.told_foldl_next _ _
    rw [htold]
    refine (ih hlt).append fun event hevent id hneeds => ?_
    have hid := hs.mem_admitted (needs_of_mem_moves (hevents event hevent) hneeds)
    exact hl.perm_told.mem_iff.mp (hl.connected_mem_iff.mpr hid)

/-! ## The order of handling -/

/-- Each notice comes at most once, whichever moves have reached the line. -/
theorem count_told_le_one {s : Course} (hs : Roster limits s) (hl : Ledger s)
    {ms : List EventLine.Move} (hms : ms.Subperm s.moves) (event : EndpointEvent)
    (hevent : .notify event ∈ ms) : (EventLine.course ms).told.count event ≤ 1 := by
  obtain ⟨id, hid⟩ := hl.notices event (hms.subset hevent)
  have hnoframe : ∀ id f, event ≠ .frame id f := by
    rintro id' f rfl
    simp at hid
  obtain ⟨henqueue, hoffer⟩ := hl.not_mem_moves event hnoframe
  rw [EventLine.count_told (fun hmem => henqueue (hms.subset hmem))
    fun hmem => hoffer (hms.subset hmem)]
  refine Nat.le_trans (hms.count_le _) ?_
  rcases hid with rfl | rfl
  · rw [hl.connected]
    exact List.nodup_iff_count_le_one.mp hs.admitted_nodup id
  · rw [hl.disconnected]
    exact List.nodup_iff_count_le_one.mp hs.nodup.2.1 id

/-- **When the handler is told in order.** The line holds what the calls have given it, in the order
of their production, and what the handler gets of that is in the same order exactly when no event
overtakes a notice. Calls that run at the same time may bring their events in any other order, and
some of them later: for the order that they bring them in, the same is true. Where no event
overtakes, each client is connected first. -/
theorem handled_in_order_iff (path : String) (limits : EndpointLimits) (token : Option String)
    (calls : List Call)
    (h : (course (new path limits token) calls).admitted.length < UInt32.size - 2) :
    let s := course (new path limits token) calls
    let l := EventLine.course s.moves
    (s.endpoint.events = l.line ∧ s.handled = l.handled) ∧
    (s.handled ++ s.endpoint.events.queued <+: l.told ↔ ¬ EventLine.Overtaken s.moves) ∧
    (∀ ms, ms.Subperm s.moves → ((EventLine.course ms).entered <+: (EventLine.course ms).told ↔
      ¬ EventLine.Overtaken ms)) ∧
    (¬ EventLine.Overtaken s.moves → ConnectedFirst s.handled) := by
  intro s l
  have hs : Roster limits s := roster_course h
  have hl : Ledger s := ledger_course h
  have hiff (ms : List EventLine.Move) (hms : ms.Subperm s.moves) :
      (EventLine.course ms).entered <+: (EventLine.course ms).told ↔ ¬ EventLine.Overtaken ms :=
    EventLine.entered_prefix_told_iff (count_told_le_one hs hl hms)
  have hentered : s.handled ++ s.endpoint.events.queued = l.entered := by
    rw [hl.handled, hl.line]
    rfl
  refine ⟨⟨hl.line, hl.handled⟩, ?_, hiff, fun hnot => ?_⟩
  · rw [hentered]
    exact hiff s.moves (.refl _)
  · have htold := EventLine.entered_append_carried hnot
    rw [EventLine.Course.entered, ← hl.handled, List.append_assoc] at htold
    exact (htold ▸ connectedFirst_told h).of_append

/-- A client comes, is heard and leaves. -/
def visit : List Call :=
  [.accept (.new 1), .deliver ⟨1⟩ (.text "hi"), .release ⟨1⟩, .handle, .handle, .handle]

/-- The line is never full then, and the handler is told in order. -/
theorem handled_in_order_visit :
    (course (new "/pier" pairLimits none) visit).admitted.length < UInt32.size - 2 ∧
      (course (new "/pier" pairLimits none) visit).handled =
        [.connected ⟨1⟩, .frame ⟨1⟩ (.text "hi"), .disconnected ⟨1⟩] ∧
      ConnectedFirst (course (new "/pier" pairLimits none) visit).handled := by
  have hlt : (course (new "/pier" pairLimits none) visit).admitted.length < UInt32.size - 2 := by
    decide +kernel
  obtain ⟨-, hiff, -, hfirst⟩ := handled_in_order_iff "/pier" pairLimits none visit hlt
  exact ⟨hlt, by decide +kernel, hfirst (hiff.mp (by decide +kernel))⟩

/-- So many clients that the line is full and the notices of the last one, and of the one that had
to go for it, are carried. -/
def crowd : List Call := List.replicate 34 (.accept (.new 16))

/-- The handler finds the last client but one gone, as soon as it is told of it. -/
def foundGone : List Call :=
  crowd ++ .hangUp ⟨33⟩ :: List.replicate 64 .handle ++
    [.sendTo ⟨33⟩ (.text "hi"), .handle, .carry 0, .carry 0, .handle, .handle]

/-- The last client leaves before its notice has entered the line. -/
def leftEarly : List Call :=
  crowd ++ [.handle, .release ⟨34⟩] ++ List.replicate 64 .handle

/-- The notice that a client has left overtakes those that are carried, if it is the notice of its
own coming. -/
theorem order_lost_to_full_line :
    ¬ (course (new "/pier" pairLimits none) foundGone).handled <+:
        (EventLine.course (course (new "/pier" pairLimits none) foundGone).moves).told ∧
      .disconnected ⟨34⟩ ∈ (course (new "/pier" pairLimits none) leftEarly).handled ∧
      .connected ⟨34⟩ ∉ (course (new "/pier" pairLimits none) leftEarly).handled := by
  refine ⟨?_, ?_, ?_⟩ <;> decide +kernel

end Endpoint

end DeviceRelay
