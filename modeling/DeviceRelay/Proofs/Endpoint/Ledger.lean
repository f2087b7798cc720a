import DeviceRelay.Proofs.Endpoint.Roster
import Mathlib.Data.List.Count

/-!
# What the handler is told about clients

Clients come and leave in several ways, and a client that is found to be gone may be released by its
own connection as well. However they do, the handler is told once of each client that comes and once
of each that leaves.

* `Endpoint.Does`: what a call may do to the line of events.
* `Endpoint.Ledger`: how the line of events accounts for the clients.
* `Endpoint.Ledger.next`, `Endpoint.ledger_course`: it does so after any calls.
* `Endpoint.notices_course`: the notices among the events.
-/

namespace DeviceRelay

namespace Endpoint

/-! ## The moves of a call -/

section Moves

variable {e : Endpoint} {c : Call}

/-- What a call may do to the line of events. -/
inductive Does (e : Endpoint) (c : Call) : EventLine.Move → Prop where
  | leaves {id : ClientId} (h : id ∈ e.leavers c) : Does e c (.notify (.disconnected id))
  | comes {id : ClientId} (h : id ∈ e.arrivals c) : Does e c (.notify (.connected id))
  /-- A frame of the tunnel or of a tracked client. -/
  | delivers {id : ClientId} {f : Frame} (h : id.isTunnel = true ∨ id ∈ e.clientIds) :
    Does e c (.enqueue (.frame id f))
  | relays {f : Frame} : Does e c (.offer (.frame .tunnel f))
  | carries {index : Nat} : Does e c (.carry index)
  | takes (h : c = .handle) : Does e c .take

theorem does_of_mem {m : EventLine.Move} (h : m ∈ e.moves c) : Does e c m := by
  rcases List.mem_append.mp h with h | h
  · obtain ⟨id, hid, rfl⟩ := List.mem_map.mp h
    exact .leaves hid
  · cases c with
    | accept outbox =>
      rw [List.mem_singleton.mp h]
      exact .comes List.mem_cons_self
    | deliver id f =>
      rw [lineMoves] at h
      split at h
      · rw [List.mem_singleton.mp h]
        exact .delivers ‹_›
      · cases h
    | deliverFromTunnel f =>
      rw [List.mem_singleton.mp h]
      exact .relays
    | carry index =>
      rw [List.mem_singleton.mp h]
      exact .carries
    | handle =>
      rw [List.mem_singleton.mp h]
      exact .takes rfl
    | _ => cases h

theorem count_disconnected_moves (e : Endpoint) (c : Call) (id : ClientId) :
    (e.moves c).count (.notify (.disconnected id)) = (e.leavers c).count id := by
  have hline : EventLine.Move.notify (.disconnected id) ∉ e.lineMoves c := by
    cases c <;> simp [lineMoves]
  rw [moves, List.count_append, List.count_eq_zero.mpr hline, Nat.add_zero]
  exact List.count_map_of_injective (e.leavers c)
    (fun id => EventLine.Move.notify (.disconnected id)) (fun _ _ h => by simpa using h) id

theorem count_connected_moves (e : Endpoint) (c : Call) (id : ClientId) :
    (e.moves c).count (.notify (.connected id)) = (e.arrivals c).count id := by
  have hleave : EventLine.Move.notify (.connected id) ∉
      (e.leavers c).map fun id => .notify (.disconnected id) := by
    simp
  rw [moves, List.count_append, List.count_eq_zero.mpr hleave, Nat.zero_add]
  cases c with
  | accept outbox => simp [lineMoves, arrivals, List.count_singleton, beq_eq_decide]
  | deliver id f =>
    rw [lineMoves]
    split <;> simp [arrivals]
  | _ => simp [lineMoves, arrivals]

theorem moves_handle (e : Endpoint) : e.moves .handle = [.take] := by
  have hsame : (e.apply .handle).clientIds = e.clientIds := rfl
  have hnone : e.leavers .handle = [] := List.filter_eq_nil_iff.mpr fun id hid => by
    simpa [hsame] using hid
  rw [moves, hnone]
  rfl

end Moves

/-! ## The ledger -/

/-- How the line of events accounts for the clients. -/
structure Ledger (s : Course) : Prop where
  line : s.endpoint.events = (EventLine.course s.moves).line
  handled : s.handled = (EventLine.course s.moves).handled
  connected : ∀ id, s.moves.count (.notify (.connected id)) = s.admitted.count id
  disconnected : ∀ id, s.moves.count (.notify (.disconnected id)) =
    (s.endpoint.departed.map Departed.id).count id
  notices : ∀ event, .notify event ∈ s.moves →
    ∃ id, event = .connected id ∨ event = .disconnected id
  frames : ∀ event, .enqueue event ∈ s.moves ∨ .offer event ∈ s.moves →
    ∃ id f, event = .frame id f

namespace Ledger

variable {s : Course}

/-- **A line that accounts for the clients does so after one more call.** -/
theorem next (h : Ledger s) {c : Call} (heff : Effect s.endpoint c) : Ledger (s.next c) where
  line := by
    rw [Course.next, EventLine.course_append, EventLine.line_foldl_next, ← h.line]
    exact heff.events
  handled := by
    rw [Course.next, EventLine.course_append]
    by_cases hc : c = .handle
    · rw [hc, moves_handle, if_pos rfl, h.handled, h.line]
      rfl
    · have hnot : .take ∉ s.endpoint.moves c := by
        intro h
        cases does_of_mem h with
        | takes h => exact hc h
      rw [EventLine.handled_foldl_next hnot, if_neg hc, List.append_nil]
      exact h.handled
  connected id := by
    rw [Course.next, List.count_append, List.count_append, h.connected, count_connected_moves]
  disconnected id := by
    have hdeparted : (s.next c).endpoint.departed.map Departed.id = _ := heff.departed_ids
    rw [hdeparted, Course.next, List.count_append, List.count_append, h.disconnected,
      count_disconnected_moves, List.count_reverse, Nat.add_comm]
  notices event hevent := by
    rcases List.mem_append.mp hevent with hevent | hevent
    · exact h.notices event hevent
    · cases does_of_mem hevent with
      | leaves => exact ⟨_, .inr rfl⟩
      | comes => exact ⟨_, .inl rfl⟩
  frames event hevent := by
    rw [Course.next, List.mem_append, List.mem_append, or_or_or_comm] at hevent
    rcases hevent with hevent | hevent
    · exact h.frames event hevent
    · rcases hevent with hevent | hevent <;> cases does_of_mem hevent <;> exact ⟨_, _, rfl⟩

/-- An event that is no frame came only as a notice. -/
theorem not_mem_moves (h : Ledger s) (event : EndpointEvent)
    (hne : ∀ id f, event ≠ .frame id f) :
    .enqueue event ∉ s.moves ∧ .offer event ∉ s.moves := by
  rw [← not_or]
  intro hmem
  obtain ⟨id, f, hframe⟩ := h.frames event hmem
  exact hne id f hframe

end Ledger

theorem ledger_course {path : String} {limits : EndpointLimits} {token : Option String}
    {calls : List Call}
    (h : (course (new path limits token) calls).admitted.length < UInt32.size - 2) :
    Ledger (course (new path limits token) calls) := by
  induction calls using List.reverseRecOn with
  | nil => exact ⟨rfl, rfl, fun _ => rfl, fun _ => rfl, by simp [course], by simp [course]⟩
  | append_singleton calls c ih =>
    have hlt := Nat.lt_of_le_of_lt (length_admitted_le (new path limits token) calls [c]) h
    rw [course_append_singleton]
    exact (ih hlt).next ((roster_course hlt).effect hlt c)

/-! ## Notices -/

/-- Every event that came, be it handled, in the line or carried. -/
def Course.events (s : Course) : List EndpointEvent :=
  s.handled ++ s.endpoint.events.queued ++ s.endpoint.events.carried

section Notices

variable {s : Course}

theorem Ledger.perm_told (h : Ledger s) : s.events.Perm (EventLine.course s.moves).told := by
  rw [Course.events, h.handled, h.line]
  exact EventLine.perm_told s.moves

theorem Ledger.count_connected (h : Ledger s) (id : ClientId) :
    s.events.count (.connected id) = s.admitted.count id := by
  obtain ⟨henqueue, hoffer⟩ := h.not_mem_moves (.connected id) fun _ _ => nofun
  rw [h.perm_told.count_eq, EventLine.count_told henqueue hoffer, h.connected]

theorem Ledger.count_disconnected (h : Ledger s) (id : ClientId) :
    s.events.count (.disconnected id) = (s.endpoint.departed.map Departed.id).count id := by
  obtain ⟨henqueue, hoffer⟩ := h.not_mem_moves (.disconnected id) fun _ _ => nofun
  rw [h.perm_told.count_eq, EventLine.count_told henqueue hoffer, h.disconnected]

theorem Ledger.connected_mem_iff (h : Ledger s) {id : ClientId} :
    .connected id ∈ s.events ↔ id ∈ s.admitted := by
  rw [← List.count_pos_iff, h.count_connected, List.count_pos_iff]

theorem Ledger.disconnected_mem_iff (h : Ledger s) {id : ClientId} :
    .disconnected id ∈ s.events ↔ id ∈ s.endpoint.departed.map Departed.id := by
  rw [← List.count_pos_iff, h.count_disconnected, List.count_pos_iff]

end Notices

/-- **The handler is told once of each client that comes and once of each that leaves**, so the
clients of which it is told the one and not the other are those that are tracked. -/
theorem notices_course (path : String) (limits : EndpointLimits) (token : Option String)
    (calls : List Call)
    (h : (course (new path limits token) calls).admitted.length < UInt32.size - 2) :
    let s := course (new path limits token) calls
    (∀ id, s.events.count (.connected id) = if id ∈ s.admitted then 1 else 0) ∧
    (∀ id, s.events.count (.disconnected id) =
      if id ∈ s.admitted ∧ id ∉ s.endpoint.clientIds then 1 else 0) ∧
    ∀ id, id ∈ s.endpoint.clientIds ↔ .connected id ∈ s.events ∧ .disconnected id ∉ s.events := by
  intro s
  have hs : Roster limits s := roster_course h
  have hl : Ledger s := ledger_course h
  obtain ⟨-, hdeparted, hapart⟩ := hs.nodup
  have hleft : ∀ id, id ∈ s.endpoint.departed.map Departed.id ↔
      id ∈ s.admitted ∧ id ∉ s.endpoint.clientIds := by
    intro id
    rw [hs.mem_admitted_iff]
    have := hapart id
    tauto
  refine ⟨fun id => ?_, fun id => ?_, fun id => ?_⟩
  · rw [hl.count_connected, hs.admitted_nodup.count]
  · simp only [hl.count_disconnected, hdeparted.count, hleft]
  · have hmem : id ∈ s.endpoint.clientIds → id ∈ s.admitted := hs.mem_admitted
    rw [hl.connected_mem_iff, hl.disconnected_mem_iff, hleft]
    tauto

/-- A client hangs up, a frame to all finds it gone, and then its connection releases it too. -/
def releasedTwice : List Call :=
  [.accept (.new 1), .accept (.new 1), .hangUp ⟨1⟩, .broadcast (.text "hi"), .release ⟨1⟩]

/-- The handler is told once that this client left, and not that the other one did. -/
theorem notices_course_released_twice :
    (course (new "/pier" pairLimits none) releasedTwice).admitted.length < UInt32.size - 2 ∧
      (course (new "/pier" pairLimits none) releasedTwice).events.count (.disconnected ⟨1⟩) = 1 ∧
      (course (new "/pier" pairLimits none) releasedTwice).events.count (.disconnected ⟨2⟩) =
        0 := by
  have hlt : (course (new "/pier" pairLimits none) releasedTwice).admitted.length <
      UInt32.size - 2 := by decide +kernel
  have hgone := (notices_course "/pier" pairLimits none releasedTwice hlt).2.1
  exact ⟨hlt, (hgone ⟨1⟩).trans (if_pos (by decide +kernel)),
    (hgone ⟨2⟩).trans (if_neg (by decide +kernel))⟩

end Endpoint

end DeviceRelay
