import DeviceRelay.Proofs.Endpoint.Ledger
import DeviceRelay.Proofs.Endpoint.Limits

/-!
# What the handler is told of a client

A frame of a local client has its place in the line of events as soon as it is delivered, in the
line or in front of it, so the handler takes the frames of each client in the order of delivery.

* `EventLine.filterMap_entered`: what has its place at once.
* `Endpoint.Course.frames`, `Endpoint.given`: the frames of a client, and where they come from.
* `Endpoint.Accounts`, `Endpoint.accounts_course`: all that an endpoint accounts for.
-/

namespace DeviceRelay

/-- The frame of an event that a client is the sender of. -/
def EndpointEvent.frameOf? (id : ClientId) : EndpointEvent → Option Frame
  | .frame other f => if other = id then some f else none
  | _ => none

namespace EventLine

/-- The event that enters a line, or waits in front of it. -/
def Move.enqueued? : Move → Option EndpointEvent
  | .enqueue e => some e
  | _ => none

/-- What comes neither as a notice nor from the tunnel has its place at once. -/
theorem filterMap_entered {α : Type} (p : EndpointEvent → Option α) {ms : List Move}
    (hnotify : ∀ e, .notify e ∈ ms → p e = none) (hoffer : ∀ e, .offer e ∈ ms → p e = none) :
    (course ms).entered.filterMap p = (ms.filterMap Move.enqueued?).filterMap p := by
  induction ms using List.reverseRecOn with
  | nil => rfl
  | append_singleton ms m ih =>
    have hnone : ∀ e, m = .notify e ∨ m = .offer e → p e = none := by
      rintro e (rfl | rfl)
      · exact hnotify e (by simp)
      · exact hoffer e (by simp)
    have hstep : ((course ms).line.entering m).filterMap p =
        ([m].filterMap Move.enqueued?).filterMap p := by
      cases m with
      | notify e =>
        rw [entering]
        split <;> simp [Move.enqueued?, hnone e (.inl rfl)]
      | enqueue e => rfl
      | offer e =>
        rw [entering]
        split <;> simp [Move.enqueued?, hnone e (.inr rfl)]
      | carry index =>
        rw [entering]
        cases hc : (course ms).line.carried[index]? with
        | none => rfl
        | some e =>
          have hcarried := notify_mem_of_carried (List.mem_of_getElem? hc)
          simp [Move.enqueued?, hnotify e (List.mem_append_left _ hcarried)]
      | take => rfl
    rw [course_append_singleton, entered_next, List.filterMap_append, hstep,
      ih (fun e he => hnotify e (List.mem_append_left _ he))
        fun e he => hoffer e (List.mem_append_left _ he),
      List.filterMap_append, List.filterMap_append]

end EventLine

namespace Endpoint

/-! ## Limits -/

/-- Clients that leave do not change the limits. -/
theorem leaving_limits (e : Endpoint) : Leaving (fun e e' => e'.limits = e.limits) e where
  keeps := Keeps.limits
  andKeeps h h' := h'.limits.trans h
  release := limits_release e
  fanOut _ _ := limits_releaseAll _ _

theorem limits_apply (e : Endpoint) (c : Call) : (e.apply c).limits = e.limits := by
  cases hc : c.expels with
  | false =>
    obtain ⟨e', he', heq⟩ := (leaving_limits e).apply hc
    rw [heq]
    exact he'
  | true =>
    cases c with
    | accept outbox =>
      rw [apply, accept_snd]
    | closeAll =>
      rw [apply, closeAll]
      dsimp only
      rw [foldl_depart]
    | _ => cases hc

/-! ## Calls in a row -/

theorem endpoint_foldl_next (calls : List Call) (s : Course) :
    (calls.foldl Course.next s).endpoint = calls.foldl apply s.endpoint := by
  induction calls generalizing s with
  | nil => rfl
  | cons c calls ih => exact ih (s.next c)

theorem mem_admitted_foldl_next {id : ClientId} (calls : List Call) {s : Course}
    (h : id ∈ s.admitted) : id ∈ (calls.foldl Course.next s).admitted := by
  induction calls generalizing s with
  | nil => exact h
  | cons c calls ih => exact ih (List.mem_append_left _ h)

theorem length_admitted_foldl_next (calls : List Call) (s : Course) :
    s.admitted.length ≤ (calls.foldl Course.next s).admitted.length := by
  induction calls generalizing s with
  | nil => exact Nat.le_refl _
  | cons c calls ih =>
    refine Nat.le_trans ?_ (ih (s.next c))
    rw [Course.next, List.length_append]
    exact Nat.le_add_right _ _

/-! ## Frames of a client -/

/-- The frames of a client among the events that the handler has taken or will take next. -/
def Course.frames (s : Course) (id : ClientId) : List Frame :=
  (s.handled ++ s.endpoint.events.queued).filterMap (EndpointEvent.frameOf? id)

/-- The frames of a client among what the line of events was given. -/
def given (id : ClientId) (ms : List EventLine.Move) : List Frame :=
  (ms.filterMap EventLine.Move.enqueued?).filterMap (EndpointEvent.frameOf? id)

section Given

variable {id : ClientId}

theorem given_append (id : ClientId) (ms ms' : List EventLine.Move) :
    given id (ms ++ ms') = given id ms ++ given id ms' := by
  rw [given, List.filterMap_append, List.filterMap_append]
  rfl

theorem given_moves (e : Endpoint) {c : Call} (hc : ∀ f, c ≠ .deliver id f) :
    given id (e.moves c) = [] := by
  have hleave : given id ((e.leavers c).map fun id => .notify (.disconnected id)) = [] := by
    rw [given, List.filterMap_map]
    refine (congrArg _ ?_).trans List.filterMap_nil
    exact List.filterMap_eq_nil_iff.mpr fun _ _ => rfl
  rw [moves, given_append, hleave, List.nil_append]
  cases c with
  | deliver other f =>
    have hne : other ≠ id := by
      rintro rfl
      exact hc f rfl
    rw [lineMoves]
    split <;> simp [given, EventLine.Move.enqueued?, EndpointEvent.frameOf?, hne]
  | _ => rfl

theorem given_next {c : Call} (hc : ∀ f, c ≠ .deliver id f) (s : Course) :
    given id (s.next c).moves = given id s.moves := by
  rw [Course.next, given_append, given_moves _ hc, List.append_nil]

theorem given_foldl_next {calls : List Call} (h : ∀ f, .deliver id f ∉ calls) (s : Course) :
    given id (calls.foldl Course.next s).moves = given id s.moves := by
  induction calls generalizing s with
  | nil => rfl
  | cons c calls ih =>
    have hc : ∀ f, c ≠ .deliver id f := fun f heq => h f (heq ▸ List.mem_cons_self)
    rw [List.foldl_cons, ih fun f hf => h f (List.mem_cons_of_mem _ hf), given_next hc]

theorem given_deliver {s : Course} (h : id ∈ s.endpoint.clientIds) (f : Frame) :
    given id (s.next (.deliver id f)).moves = given id s.moves ++ [f] := by
  have hstay : (s.endpoint.apply (.deliver id f)).clientIds = s.endpoint.clientIds := by
    rw [apply, deliver_eq]
    rfl
  have hnone : s.endpoint.leavers (.deliver id f) = [] :=
    List.filter_eq_nil_iff.mpr fun other hother => by simpa [hstay] using hother
  rw [Course.next, given_append, moves, hnone, lineMoves, if_pos (.inr h)]
  simp [given, EventLine.Move.enqueued?, EndpointEvent.frameOf?]

end Given

/-- Where the frames in a line come from. -/
structure Framed (s : Course) : Prop where
  enqueued : ∀ id f, .enqueue (.frame id f) ∈ s.moves → id.isTunnel = true ∨ id ∈ s.admitted
  offered : ∀ event, .offer event ∈ s.moves → ∃ f, event = .frame .tunnel f

/-- An endpoint that accounts for its clients and for what it told of them. -/
structure Accounts (limits : EndpointLimits) (s : Course) : Prop where
  roster : Roster limits s
  ledger : Ledger s
  framed : Framed s
  limits : s.endpoint.limits = limits

namespace Accounts

variable {limits : EndpointLimits} {s : Course} {id : ClientId}

theorem next (h : Accounts limits s) (hlt : s.admitted.length < UInt32.size - 2) (c : Call) :
    Accounts limits (s.next c) where
  roster := h.roster.next hlt c
  ledger := h.ledger.next (h.roster.effect hlt c)
  framed := by
    refine ⟨fun id f hmem => ?_, fun event hmem => ?_⟩
    · rcases List.mem_append.mp hmem with hmem | hmem
      · exact (h.framed.enqueued id f hmem).imp_right (List.mem_append_left _)
      · cases does_of_mem hmem with
        | delivers hid =>
          exact hid.imp_right fun hid => List.mem_append_left _ (h.roster.mem_admitted hid)
    · rcases List.mem_append.mp hmem with hmem | hmem
      · exact h.framed.offered event hmem
      · cases does_of_mem hmem with
        | relays => exact ⟨_, rfl⟩
  limits := (limits_apply s.endpoint c).trans h.limits

/-- The frames of a local client are those that were given to the line, in that order. -/
theorem frames_eq (h : Accounts limits s) (hid : id.isTunnel = false) :
    s.frames id = given id s.moves := by
  rw [Course.frames, h.ledger.handled, h.ledger.line]
  refine EventLine.filterMap_entered _ (fun event hmem => ?_) fun event hmem => ?_
  · obtain ⟨other, rfl | rfl⟩ := h.ledger.notices event hmem <;> rfl
  · obtain ⟨f, rfl⟩ := h.framed.offered event hmem
    have hne : ClientId.tunnel ≠ id := by
      rintro rfl
      cases hid
    exact if_neg hne

/-- Nothing was given of a client that has not come. -/
theorem given_eq_nil (h : Accounts limits s) (hid : id.isTunnel = false) (hnew : id ∉ s.admitted) :
    given id s.moves = [] := by
  rw [given, List.filterMap_eq_nil_iff]
  intro event hevent
  obtain ⟨m, hm, hmove⟩ := List.mem_filterMap.mp hevent
  cases m with
  | enqueue event' =>
    cases hmove
    obtain ⟨other, f, rfl⟩ := h.ledger.frames event (.inl hm)
    have hne : other ≠ id := by
      rintro rfl
      rcases h.framed.enqueued other f hm with ht | hcame
      · rw [ht] at hid
        cases hid
      · exact hnew hcame
    exact if_neg hne
  | _ => cases hmove

/-- A client that has left does not come back. -/
theorem not_mem_next (h : Accounts limits s) (hlt : s.admitted.length < UInt32.size - 2)
    (hid : id ∈ s.admitted) (hout : id ∉ s.endpoint.clientIds) (c : Call) :
    id ∉ (s.next c).endpoint.clientIds := by
  intro hmem
  rcases List.mem_append.mp ((h.roster.effect hlt c).ids.mem_iff.mp hmem) with hcame | hstayed
  · exact h.roster.fresh hlt hcame hid
  · exact hout (List.mem_filter.mp hstayed).1

/-- The handler is told once that a client left. -/
theorem count_disconnected (h : Accounts limits s) (hid : id ∈ s.admitted) :
    s.events.count (.disconnected id) = if id ∈ s.endpoint.clientIds then 0 else 1 := by
  obtain ⟨-, hdeparted, hapart⟩ := h.roster.nodup
  rw [h.ledger.count_disconnected, hdeparted.count]
  split
  · rename_i hleft
    rw [if_neg fun hin => hapart id hin hleft]
  · rename_i hstayed
    rw [if_pos ((h.roster.mem_admitted_iff.mp hid).resolve_right hstayed)]

end Accounts

theorem Accounts.foldl_next {limits : EndpointLimits} {s : Course} {calls : List Call}
    (h : Accounts limits s)
    (hlt : (calls.foldl Course.next s).admitted.length < UInt32.size - 2) :
    Accounts limits (calls.foldl Course.next s) := by
  induction calls generalizing s with
  | nil => exact h
  | cons c calls ih =>
    refine ih (h.next ?_ c) hlt
    exact Nat.lt_of_le_of_lt (length_admitted_foldl_next (c :: calls) s) hlt

theorem accounts_new (path : String) (limits : EndpointLimits) (token : Option String) :
    Accounts limits (course (new path limits token) []) :=
  ⟨roster_new path limits token, ledger_course (show 0 < UInt32.size - 2 by decide),
    ⟨nofun, nofun⟩, rfl⟩

end Endpoint

end DeviceRelay
