import DeviceRelay.Outbound.Client

/-!
# The queue of a client

Messages enter the queue of a client at its end, one by one, and only when its owner submits them.
The network takes the oldest or drops them all.

* `OutboundClient.submit_cases`: a message is put at the end, or nothing changes.
* `OutboundClient.submit_of_outbox`, `submit_refused`: what becomes of a message.
* `OutboundClient.waiting_taskStep`: what is left after a step of the network.
-/

namespace DeviceRelay

theorem BoundedQueue.waiting_pop_suffix {α : Type} (q : BoundedQueue α) :
    q.pop.2.waiting <:+ q.waiting := by
  unfold pop
  split
  · rename_i a waiting hq
    rw [hq]
    exact List.suffix_cons a waiting
  · exact List.suffix_rfl

namespace OutboundClient

/-- The messages that wait for the network, first come first. -/
def waiting (c : OutboundClient) : List Message := (c.outbox.map BoundedQueue.waiting).getD []

/-- The client with one more message at the end of its queue. -/
def enqueue (c : OutboundClient) (m : Message) : OutboundClient :=
  { c with outbox := c.outbox.map fun q => { q with waiting := q.waiting ++ [m] } }

variable {c c' : OutboundClient}

theorem waiting_enqueue (h : c.outbox.isSome = true) (m : Message) :
    (c.enqueue m).waiting = c.waiting ++ [m] := by
  obtain ⟨q, hq⟩ := Option.isSome_iff_exists.mp h
  simp [waiting, enqueue, hq]

/-- **What is submitted** is put at the end of the queue, or the client stays as it is. -/
theorem submit_cases (c : OutboundClient) (length : Nat) (m : Message) :
    (c.outbox.isSome = true ∧ c.submit length m = (.ok .queued, c.enqueue m)) ∨
      (c.submit length m).1 ≠ .ok .queued ∧ (c.submit length m).2 = c := by
  unfold submit enqueue
  split
  · exact .inr ⟨nofun, rfl⟩
  · split
    · exact .inr ⟨nofun, rfl⟩
    · cases hq : c.outbox with
      | none => exact .inr ⟨nofun, rfl⟩
      | some q =>
        obtain heq | ⟨hne, hsame⟩ := q.push_cases m
        · exact .inl ⟨rfl, by simp [heq]⟩
        · refine .inr ⟨by simpa using hne, ?_⟩
          dsimp only
          rw [hsame, ← hq]

theorem submit_of_outbox {length : Nat} {m : Message} {q : BoundedQueue Message}
    (hc : c.isConnected = true) (hl : length ≤ c.bufferSize) (hq : c.outbox = some q) :
    c.submit length m = (.ok (q.push m).1, { c with outbox := some (q.push m).2 }) := by
  unfold submit
  rw [hc, if_neg (by decide), if_neg (Nat.not_lt.mpr hl), hq]

/-- A client without a session, and one that gets too large a message, stay as they are. -/
theorem submit_refused {length : Nat} {m : Message}
    (h : ¬ (c.isConnected = true ∧ length ≤ c.bufferSize ∧ c.outbox.isSome = true)) :
    ∃ err, c.submit length m = (.error err, c) := by
  unfold submit
  cases hc : c.isConnected with
  | false => exact ⟨_, rfl⟩
  | true =>
    by_cases hl : c.bufferSize < length
    · exact ⟨_, by rw [if_neg (by decide), if_pos hl]⟩
    · cases hq : c.outbox with
      | none => exact ⟨_, by rw [if_neg (by decide), if_neg hl]⟩
      | some q => exact absurd ⟨hc, Nat.not_lt.mp hl, by rw [hq]; rfl⟩ h

/-! ## The network -/

theorem outbox_afterSession (c : OutboundClient) (task : NetworkTask) (now held : Duration) :
    (c.afterSession task now held).1.outbox = c.outbox := by
  unfold afterSession abort
  split
  · rfl
  · dsimp only
    split <;> rfl

theorem outbox_endSession (c : OutboundClient) (task : NetworkTask) (now since : Duration) :
    (c.endSession task now since).1.outbox = none :=
  outbox_afterSession ..

/-- What the network does to the queue: the oldest message is taken, or the session ends or begins,
and with it the queue. -/
inductive Drained (c : OutboundClient) : Option (BoundedQueue Message) → Prop where
  | stays : Drained c c.outbox
  | sends : Drained c (c.outbox.map fun q => q.pop.2)
  | ends : Drained c none
  | begins : Drained c (some (.new outboxDepth))

theorem drained_stepOf {task : NetworkTask} {now : Duration} {s : NetworkStep}
    {events : List ClientEvent} (h : c.stepOf task now s = some (c', events)) :
    c.Drained c'.outbox := by
  cases s with
  | start | dialed | received | transmitted =>
    simp only [stepOf] at h
    split at h <;> cases h
    constructor
  | woken =>
    simp only [stepOf] at h
    split at h
    · obtain ⟨-, h⟩ := Option.ite_none_right_eq_some.mp h
      cases h
      exact .stays
    · cases h
  | stopped =>
    obtain ⟨-, h⟩ := Option.ite_none_right_eq_some.mp h
    split at h <;> cases h <;> exact .stays
  | dialFailed e =>
    simp only [stepOf] at h
    split at h
    · obtain ⟨rfl, -⟩ := Prod.mk.inj (Option.some.inj h)
      rw [outbox_afterSession]
      exact .stays
    · cases h
  | peerClosed | broken e | saidGoodbye =>
    simp only [stepOf] at h
    split at h
    · have hc : (c.endSession task now _).1 = c' := congrArg Prod.fst (Option.some.inj h)
      rw [← hc, outbox_endSession]
      exact .ends
    · cases h

theorem Drained.suffix {outbox : Option (BoundedQueue Message)} (h : c.Drained outbox) :
    (outbox.map BoundedQueue.waiting).getD [] <:+ c.waiting := by
  cases h with
  | stays => exact List.suffix_rfl
  | sends =>
    unfold waiting
    cases c.outbox with
    | none => exact List.suffix_rfl
    | some q => exact q.waiting_pop_suffix
  | ends => exact List.nil_suffix
  | begins => exact List.nil_suffix

/-- **A step of the network** puts nothing into the queue. -/
theorem waiting_taskStep {number : Nat} {now : Duration} {s : NetworkStep}
    {events : List ClientEvent} (h : c.taskStep number now s = some (c', events)) :
    c'.waiting <:+ c.waiting := by
  obtain ⟨task, -, hstep⟩ := Option.bind_eq_some_iff.mp h
  exact (drained_stepOf hstep).suffix

/-- A new client has no queue. -/
theorem outbox_begin {config : ClientConfig} (h : new.begin config = .ok c) : c.outbox = none := by
  unfold begin at h
  split at h
  · cases h
  · cases h
    rfl

end OutboundClient

end DeviceRelay
