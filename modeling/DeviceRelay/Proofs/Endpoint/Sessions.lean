import DeviceRelay.Endpoint.Session
import DeviceRelay.Proofs.Endpoint.Frames

/-!
# What comes of a session

A session reads items while anything else happens to the endpoint: other clients come and go, frames
are sent, the client itself may have to leave. Whatever happens, the session falls into two parts.
In the first one the client is tracked, and its frames reach the line of events. The second one
starts with the item that ends the session or with the call by which the client leaves; after that
the client is not tracked and nothing of it is heard.

* `Endpoint.reaction`: the calls by which a session answers an item.
* `Endpoint.session`: a session, with all that happened to the endpoint.
* `Endpoint.Attended.next`: what one more event does to the two parts.
* `Endpoint.session_law`: what comes of a session.
-/

namespace DeviceRelay

/-- Whether an item ends the session that it comes to. -/
def Incoming.ends (limits : EndpointLimits) : Incoming → Bool
  | .data f => limits.maxMessageLength < f.length
  | .ping | .pong => false
  | .close | .failed | .ended => true

namespace Endpoint

/-! ## The calls of a session -/

/-- The frames of an event that a session hands on, unless it has ended. -/
def SessionEvent.frames {α : Type} : SessionEvent α → List Frame
  | .item (.data f) => if f.isEmpty then [] else [f]
  | _ => []

/-- The calls by which the session of a client answers an item. -/
def reaction (e : Endpoint) (id : ClientId) (i : Incoming) : List Call :=
  if e.isOut id then [.release id]
  else
    match i with
    | .data f =>
      if f.isEmpty then []
      else if e.limits.maxMessageLength < f.length then [.copyTo id oversizeNotice, .release id]
      else [.deliver id f]
    | .ping | .pong => []
    | .close | .failed | .ended => [.release id]

section Reaction

variable {e : Endpoint} {id : ClientId} {i : Incoming}

theorem isOut_eq_false_iff : e.isOut id = false ↔ id ∈ e.clientIds := by
  rw [isOut, Option.isNone_eq_false_iff]
  exact ClientTable.find?_isSome_iff

theorem isOut_eq_true_iff : e.isOut id = true ↔ id ∉ e.clientIds := by
  rw [← isOut_eq_false_iff, Bool.not_eq_false]

theorem reaction_of_out (h : id ∉ e.clientIds) (i : Incoming) :
    e.reaction id i = [.release id] := if_pos (isOut_eq_true_iff.mpr h)

theorem reaction_of_long (h : id ∈ e.clientIds) {f : Frame}
    (hf : e.limits.maxMessageLength < f.length) :
    e.reaction id (.data f) = [.copyTo id oversizeNotice, .release id] := by
  have hin : ¬ e.isOut id = true := by simp [isOut_eq_false_iff.mpr h]
  have hsome : ¬ f.isEmpty = true := by
    simp [Frame.isEmpty, Nat.ne_of_gt (Nat.lt_of_le_of_lt (Nat.zero_le _) hf)]
  unfold reaction
  rw [if_neg hin]
  dsimp only
  rw [if_neg hsome, if_pos hf]

/-- Of the items that end a session, a frame that is too large is answered. -/
theorem reaction_of_ends (h : id ∈ e.clientIds) (hi : i.ends e.limits = true) :
    e.reaction id i = [.release id] ∨
      e.reaction id i = [.copyTo id oversizeNotice, .release id] := by
  have hin : ¬ e.isOut id = true := by simp [isOut_eq_false_iff.mpr h]
  cases i with
  | data f => exact .inr (reaction_of_long h (by simpa [Incoming.ends] using hi))
  | ping => cases hi
  | pong => cases hi
  | close => exact .inl (if_neg hin)
  | failed => exact .inl (if_neg hin)
  | ended => exact .inl (if_neg hin)

theorem reaction_of_ongoing (h : id ∈ e.clientIds) (hi : i.ends e.limits = false) :
    e.reaction id i = (SessionEvent.item i : SessionEvent Call).frames.map (.deliver id) := by
  have hin : ¬ e.isOut id = true := by simp [isOut_eq_false_iff.mpr h]
  unfold reaction
  rw [if_neg hin]
  cases i with
  | data f =>
    have hshort : ¬ e.limits.maxMessageLength < f.length := by simpa [Incoming.ends] using hi
    dsimp only
    rw [if_neg hshort, SessionEvent.frames]
    split <;> rfl
  | ping => rfl
  | pong => rfl
  | close => cases hi
  | failed => cases hi
  | ended => cases hi

theorem receive_snd : (e.receive id i).2 = true ↔ id ∈ e.clientIds ∧ i.ends e.limits = false := by
  unfold receive
  by_cases h : id ∈ e.clientIds
  · rw [if_neg (by simp [isOut_eq_false_iff.mpr h])]
    cases i with
    | data f =>
      have hempty : f.isEmpty = true → f.length = 0 := by simp [Frame.isEmpty]
      dsimp only
      split
      · simp [h, Incoming.ends, hempty ‹_›]
      · split <;> simp_all [Incoming.ends]
    | _ => simp [h, Incoming.ends]
  · rw [if_pos (isOut_eq_true_iff.mpr h)]
    simp [h]

theorem not_mem_release (hn : e.clientIds.Nodup) (id : ClientId) :
    id ∉ (e.release id).2.clientIds := by
  by_cases h : id ∈ e.clientIds
  · rw [(departs_release hn h).ids]
    simp
  · rwa [release_of_not_mem h]

/-- The client is released with the notice in its queue, as far as the queue took it. -/
theorem release_copyTo (hn : e.clientIds.Nodup) (h : id ∈ e.clientIds) (m : Message) :
    ((e.copyTo id m).release id).2 = ((e.queueTo [id] m).release id).2 := by
  obtain ⟨c, hc⟩ := Option.isSome_iff_exists.mp (ClientTable.find?_isSome_iff.mpr h)
  rw [copyTo_of_find? hn hc]
  split
  case isTrue hclosed =>
    have hgone : e.isGone m id = true := by simp [isGone, hc, hclosed]
    rw [release_queueTo hn h hgone, release_of_not_mem (not_mem_release hn id), queueTo]
    simp [ClientTable.map_id]
  case isFalse => rfl

theorem receive_fst (hn : e.clientIds.Nodup) (id : ClientId) (i : Incoming) :
    (e.receive id i).1 = (e.reaction id i).foldl apply e := by
  unfold receive reaction
  by_cases h : id ∈ e.clientIds
  · have hin : ¬ e.isOut id = true := by simp [isOut_eq_false_iff.mpr h]
    rw [if_neg hin, if_neg hin]
    cases i with
    | data f =>
      dsimp only
      split
      · rfl
      · split
        · have hqueue : { e with table := e.table.modify id fun c =>
              { c with outbox := (c.outbox.push oversizeNotice).2 } } =
                e.queueTo [id] oversizeNotice := by
            rw [ClientTable.modify_eq_map hn, queueTo]
            simp only [List.mem_singleton, Client.receive]
          rw [hqueue]
          exact (release_copyTo hn h oversizeNotice).symm
        · rfl
    | _ => rfl
  · rw [if_pos (isOut_eq_true_iff.mpr h), if_pos (isOut_eq_true_iff.mpr h)]
    rfl

end Reaction

/-! ## Sessions -/

/-- A session, and all that has happened to its endpoint. -/
structure Session where
  course : Course
  /-- Whether the session goes on. -/
  live : Bool
  deriving DecidableEq, Repr

def Session.next (id : ClientId) (s : Session) : SessionEvent Call → Session
  | .item i =>
    if s.live then
      ⟨(s.course.endpoint.reaction id i).foldl Course.next s.course,
        (s.course.endpoint.receive id i).2⟩
    else s
  | .other c => { s with course := s.course.next c }

def Session.run (id : ClientId) (s : Session) (events : List (SessionEvent Call)) : Session :=
  events.foldl (Session.next id) s

section Run

variable (id : ClientId) (s : Session)

theorem run_append_singleton (events : List (SessionEvent Call)) (x : SessionEvent Call) :
    s.run id (events ++ [x]) = (s.run id events).next id x := by
  rw [Session.run, List.foldl_append]
  rfl

/-- What happens in a session are calls. -/
theorem exists_calls_next (x : SessionEvent Call) :
    ∃ calls : List Call, (s.next id x).course = calls.foldl Course.next s.course := by
  cases x with
  | item i =>
    rw [Session.next]
    split
    · exact ⟨_, rfl⟩
    · exact ⟨[], rfl⟩
  | other c => exact ⟨[c], rfl⟩

theorem exists_calls_run (events : List (SessionEvent Call)) :
    ∃ calls : List Call, (s.run id events).course = calls.foldl Course.next s.course := by
  induction events using List.reverseRecOn with
  | nil => exact ⟨[], rfl⟩
  | append_singleton events x ih =>
    obtain ⟨calls, hcalls⟩ := ih
    obtain ⟨last, hlast⟩ := exists_calls_next id (s.run id events) x
    exact ⟨calls ++ last, by rw [run_append_singleton, hlast, hcalls, List.foldl_append]⟩

theorem length_admitted_next (x : SessionEvent Call) :
    s.course.admitted.length ≤ (s.next id x).course.admitted.length := by
  obtain ⟨calls, hcalls⟩ := exists_calls_next id s x
  rw [hcalls]
  exact length_admitted_foldl_next calls s.course

theorem mem_admitted_run {id : ClientId} {s : Session} (h : id ∈ s.course.admitted)
    (events : List (SessionEvent Call)) : id ∈ (s.run id events).course.admitted := by
  obtain ⟨calls, hcalls⟩ := exists_calls_run id s events
  rw [hcalls]
  exact mem_admitted_foldl_next calls h

end Run

theorem Accounts.run {limits : EndpointLimits} {s : Session} {id : ClientId}
    {events : List (SessionEvent Call)} (h : Accounts limits s.course)
    (hlt : (s.run id events).course.admitted.length < UInt32.size - 2) :
    Accounts limits (s.run id events).course := by
  obtain ⟨calls, hcalls⟩ := exists_calls_run id s events
  rw [hcalls] at hlt ⊢
  exact h.foldl_next hlt

/-- A session as it is watched is a session. -/
theorem serve_append {α : Type} (act : Endpoint → α → Endpoint) (id : ClientId)
    (s : Endpoint × Bool) (events : List (SessionEvent α)) (more : List (SessionEvent α)) :
    serve act id s (events ++ more) = serve act id (serve act id s events) more := by
  induction events generalizing s with
  | nil => rfl
  | cons x events ih => cases x <;> exact ih _

theorem serve_run {limits : EndpointLimits} {s : Session} {id : ClientId}
    {events : List (SessionEvent Call)} (h : Accounts limits s.course)
    (hlt : (s.run id events).course.admitted.length < UInt32.size - 2) :
    serve apply id (s.course.endpoint, s.live) events =
      ((s.run id events).course.endpoint, (s.run id events).live) := by
  induction events using List.reverseRecOn with
  | nil => rfl
  | append_singleton events x ih =>
    rw [run_append_singleton] at hlt ⊢
    have hlt := Nat.lt_of_le_of_lt (length_admitted_next id _ x) hlt
    have hs : Accounts limits (s.run id events).course := h.run hlt
    rw [serve_append, ih hlt]
    generalize s.run id events = s' at hs
    cases x with
    | item i =>
      cases hlive : s'.live with
      | false => simp [serve, Session.next, hlive]
      | true =>
        have hreact := receive_fst hs.roster.nodup.1 id i
        simp [serve, Session.next, hlive, endpoint_foldl_next, ← hreact]
    | other c => rfl

/-! ## One event -/

section Next

variable {limits : EndpointLimits} {s : Session} {id : ClientId} {i : Incoming}

theorem next_ongoing (h : Accounts limits s.course) (hlive : s.live = true)
    (hin : id ∈ s.course.endpoint.clientIds) (hi : i.ends limits = false) :
    (s.next id (.item i)).live = true ∧
      id ∈ (s.next id (.item i)).course.endpoint.clientIds ∧
      given id (s.next id (.item i)).course.moves =
        given id s.course.moves ++ (SessionEvent.item i : SessionEvent Call).frames := by
  rw [← h.limits] at hi
  have hreact := reaction_of_ongoing hin hi
  rw [Session.next, if_pos hlive]
  dsimp only
  refine ⟨receive_snd.mpr ⟨hin, hi⟩, ?_⟩
  rw [hreact]
  cases hframes : (SessionEvent.item i : SessionEvent Call).frames with
  | nil => exact ⟨hin, (List.append_nil _).symm⟩
  | cons f more =>
    have hmore : more = [] := by
      cases i with
      | data g =>
        rw [SessionEvent.frames] at hframes
        split at hframes <;> cases hframes
        rfl
      | _ => cases hframes
    rw [hmore]
    refine ⟨?_, given_deliver hin f⟩
    have hstay : (s.course.endpoint.apply (.deliver id f)).clientIds =
        s.course.endpoint.clientIds := by
      rw [apply, deliver_eq]
      rfl
    exact hstay ▸ hin

theorem not_mem_foldl_reaction {e : Endpoint} (hn : e.clientIds.Nodup) (hin : id ∈ e.clientIds)
    (hi : i.ends e.limits = true) : id ∉ ((e.reaction id i).foldl apply e).clientIds := by
  rcases reaction_of_ends hin hi with heq | heq
  · rw [heq]
    exact not_mem_release hn id
  · have hleft : id ∉ ((e.queueTo [id] oversizeNotice).release id).2.clientIds :=
      not_mem_release ((clientIds_queueTo e [id] oversizeNotice).symm ▸ hn) id
    rw [← release_copyTo hn hin] at hleft
    rw [heq]
    exact hleft

theorem next_ending (h : Accounts limits s.course) (hlive : s.live = true)
    (hin : id ∈ s.course.endpoint.clientIds) (hi : i.ends limits = true) :
    (s.next id (.item i)).live = false ∧
      id ∉ (s.next id (.item i)).course.endpoint.clientIds ∧
      given id (s.next id (.item i)).course.moves = given id s.course.moves := by
  rw [← h.limits] at hi
  rw [Session.next, if_pos hlive]
  dsimp only
  refine ⟨?_, ?_, given_foldl_next (fun f hf => ?_) _⟩
  · rw [← Bool.not_eq_true, receive_snd]
    simp [hi]
  · rw [endpoint_foldl_next]
    exact not_mem_foldl_reaction h.roster.nodup.1 hin hi
  · rcases reaction_of_ends hin hi with heq | heq <;> simp [heq] at hf

/-- Once the client is not tracked, an item ends the session and nothing else. -/
theorem next_out (h : Accounts limits s.course) (hid : id ∈ s.course.admitted)
    (hout : id ∉ s.course.endpoint.clientIds) {x : SessionEvent Call}
    (hx : ∀ f, x ≠ .other (.deliver id f))
    (hlt : (s.next id x).course.admitted.length < UInt32.size - 2) :
    id ∉ (s.next id x).course.endpoint.clientIds ∧
      given id (s.next id x).course.moves = given id s.course.moves ∧
      ((s.next id x).live = false ↔ s.live = false ∨ ∃ i, x = .item i) := by
  have hbefore := Nat.lt_of_le_of_lt (length_admitted_next id s x) hlt
  cases x with
  | item i =>
    cases hlive : s.live with
    | false => simpa [Session.next, hlive] using hout
    | true =>
      have hreceive : (s.course.endpoint.receive id i).2 = false := by
        rw [← Bool.not_eq_true, receive_snd]
        simp [hout]
      rw [Session.next, if_pos hlive, reaction_of_out hout]
      refine ⟨h.not_mem_next hbefore hid hout (.release id), given_foldl_next (fun f hf => ?_) _, ?_⟩
      · simp at hf
      · simp [hreceive]
  | other c =>
    have hc : ∀ f, c ≠ .deliver id f := fun f heq => hx f (heq ▸ rfl)
    exact ⟨h.not_mem_next hbefore hid hout c, given_next hc s.course, by simp [Session.next]⟩

/-- A frame that is too large is answered in the queue of the client, as far as that takes it. -/
theorem connection?_of_long {e : Endpoint} (hn : e.clientIds.Nodup) {c : Client}
    (hc : e.table.find? id = some c) {f : Frame} (hf : e.limits.maxMessageLength < f.length) :
    ((e.reaction id (.data f)).foldl apply e).connection? id =
      some ⟨(c.outbox.push oversizeNotice).2, false, false⟩ := by
  obtain ⟨hmem, hid⟩ := ClientTable.mem_of_find? hc
  have hin : id ∈ e.clientIds := hid ▸ List.mem_map_of_mem hmem
  have hqueue : (e.queueTo [id] oversizeNotice).table.find? id = some (c.receive oversizeNotice) := by
    rw [queueTo, ClientTable.find?_map (fun c => by split <;> rfl), hc]
    simp [hid]
  have hn' : (e.queueTo [id] oversizeNotice).clientIds.Nodup :=
    (clientIds_queueTo e [id] oversizeNotice).symm ▸ hn
  have hout := ClientTable.find?_eq_none_iff.mpr (not_mem_release hn' id)
  have hleft : (((e.copyTo id oversizeNotice).release id).2).connection? id =
      some ⟨(c.outbox.push oversizeNotice).2, false, false⟩ := by
    rw [release_copyTo hn hin, connection?, hout, release_of_find? hqueue]
    simp [Client.receive]
  rw [reaction_of_long hin hf]
  exact hleft

end Next

/-! ## All events -/

/-- What came of a session whose events fall into two parts. -/
structure Attended (limits : EndpointLimits) (id : ClientId) (s : Session)
    (heard rest : List (SessionEvent Call)) : Prop where
  ongoing : ∀ i, .item i ∈ heard → i.ends limits = false
  ending : ∀ i more, rest = .item i :: more → i.ends limits = true
  /-- The client is tracked throughout the first part, and not any more in the second. -/
  tracked : ∀ parts more, heard ++ rest = parts ++ more →
    (id ∈ (s.run id parts).course.endpoint.clientIds ↔ parts <+: heard)
  given : given id (s.run id (heard ++ rest)).course.moves =
    given id s.course.moves ++ heard.flatMap SessionEvent.frames
  answered : ∀ f more, rest = .item (.data f) :: more →
    ∃ c, (s.run id heard).course.endpoint.table.find? id = some c ∧
      (s.run id (heard ++ [.item (.data f)])).course.endpoint.connection? id =
        some ⟨(c.outbox.push oversizeNotice).2, false, false⟩
  live : (s.run id (heard ++ rest)).live = false ↔ ∃ i, .item i ∈ rest

section Attended

variable {limits : EndpointLimits} {id : ClientId} {s : Session}
  {heard rest : List (SessionEvent Call)}

theorem Attended.mem_iff (h : Attended limits id s heard rest) :
    id ∈ (s.run id (heard ++ rest)).course.endpoint.clientIds ↔ rest = [] := by
  rw [h.tracked (heard ++ rest) [] (List.append_nil _).symm]
  constructor
  · intro hinit
    have hle := hinit.length_le
    rw [List.length_append] at hle
    exact List.length_eq_zero_iff.mp (by omega)
  · rintro rfl
    exact ⟨[], by simp⟩

/-- The client hears on. -/
theorem Attended.heard_append (h : Attended limits id s heard []) {x : SessionEvent Call}
    (hongoing : ∀ i, x = .item i → i.ends limits = false)
    (hlive : ((s.run id heard).next id x).live = true)
    (hin : id ∈ ((s.run id heard).next id x).course.endpoint.clientIds)
    (hgiven : Endpoint.given id ((s.run id heard).next id x).course.moves =
      Endpoint.given id (s.run id heard).course.moves ++ x.frames) :
    Attended limits id s (heard ++ [x]) [] := by
  have hbefore := h.given
  rw [List.append_nil] at hbefore
  refine ⟨?_, nofun, ?_, ?_, nofun, ?_⟩
  · intro i hi
    rcases List.mem_append.mp hi with hi | hi
    · exact h.ongoing i hi
    · exact hongoing i (List.mem_singleton.mp hi).symm
  · intro parts more heq
    rw [List.append_nil] at heq
    obtain rfl | ⟨more', rfl⟩ := List.prefix_concat_iff.mp ⟨more, heq.symm⟩
    · rw [run_append_singleton]
      simp [hin]
    · have hpart := h.tracked parts more' (List.append_nil _)
      simp [hpart]
  · rw [List.append_nil, run_append_singleton, hgiven, hbefore, List.flatMap_append,
      List.append_assoc, List.flatMap_singleton]
  · rw [List.append_nil, run_append_singleton, hlive]
    simp

/-- The client leaves, or has left before. -/
theorem Attended.rest_append (h : Attended limits id s heard rest) {x : SessionEvent Call}
    (hending : rest = [] → ∀ i, x = .item i → i.ends limits = true)
    (hout : id ∉ ((s.run id (heard ++ rest)).next id x).course.endpoint.clientIds)
    (hgiven : Endpoint.given id ((s.run id (heard ++ rest)).next id x).course.moves =
      Endpoint.given id (s.run id (heard ++ rest)).course.moves)
    (hanswered : rest = [] → ∀ f, x = .item (.data f) →
      ∃ c, (s.run id heard).course.endpoint.table.find? id = some c ∧
        ((s.run id heard).next id x).course.endpoint.connection? id =
          some ⟨(c.outbox.push oversizeNotice).2, false, false⟩)
    (hlive : ((s.run id (heard ++ rest)).next id x).live = false ↔
      (s.run id (heard ++ rest)).live = false ∨ ∃ i, x = .item i) :
    Attended limits id s heard (rest ++ [x]) := by
  refine ⟨h.ongoing, ?_, ?_, ?_, ?_, ?_⟩
  · intro i more heq
    cases rest with
    | nil => exact hending rfl i (List.cons.inj heq).1
    | cons y rest => exact h.ending i rest (congrArg (· :: rest) (List.cons.inj heq).1)
  · intro parts more heq
    rw [← List.append_assoc] at heq
    obtain rfl | ⟨more', hmore⟩ := List.prefix_concat_iff.mp ⟨more, heq.symm⟩
    · rw [run_append_singleton]
      refine iff_of_false hout fun hinit => ?_
      have hle := hinit.length_le
      simp only [List.length_append, List.length_singleton] at hle
      omega
    · exact h.tracked parts more' hmore.symm
  · rw [← List.append_assoc, run_append_singleton, hgiven, h.given]
  · intro f more heq
    cases rest with
    | nil =>
      obtain rfl : x = .item (.data f) := (List.cons.inj heq).1
      rw [run_append_singleton]
      exact hanswered rfl f rfl
    | cons y rest => exact h.answered f rest (congrArg (· :: rest) (List.cons.inj heq).1)
  · rw [← List.append_assoc, run_append_singleton, hlive, h.live]
    constructor
    · rintro (⟨i, hi⟩ | ⟨i, rfl⟩)
      · exact ⟨i, List.mem_append_left _ hi⟩
      · exact ⟨i, by simp⟩
    · rintro ⟨i, hi⟩
      rcases List.mem_append.mp hi with hi | hi
      · exact .inl ⟨i, hi⟩
      · exact .inr ⟨i, (List.mem_singleton.mp hi).symm⟩

/-- A client that is tracked hears one more event, or leaves by it. -/
theorem Attended.next (h : Attended limits id s heard [])
    (hs : Accounts limits (s.run id heard).course) {x : SessionEvent Call}
    (hx : ∀ f, x ≠ .other (.deliver id f)) :
    Attended limits id s (heard ++ [x]) [] ∨ Attended limits id s heard [x] := by
  have hin := h.mem_iff.mpr rfl
  have hlive := h.live
  rw [List.append_nil] at hin hlive
  have hlive : (s.run id heard).live = true := by simpa using hlive
  cases x with
  | item i =>
    cases hi : i.ends limits with
    | false =>
      obtain ⟨hlive', hin', hgiven⟩ := next_ongoing hs hlive hin hi
      left
      refine h.heard_append (fun j hj => ?_) hlive' hin' hgiven
      cases hj
      exact hi
    | true =>
      obtain ⟨hlive', hout, hgiven⟩ := next_ending hs hlive hin hi
      right
      refine h.rest_append (fun _ j hj => ?_) ?_ ?_ (fun _ f hf => ?_) ?_
      · cases hj
        exact hi
      · rwa [List.append_nil]
      · rwa [List.append_nil]
      · cases hf
        obtain ⟨c, hc⟩ := Option.isSome_iff_exists.mp (ClientTable.find?_isSome_iff.mpr hin)
        rw [← hs.limits] at hi
        refine ⟨c, hc, ?_⟩
        rw [Session.next, if_pos hlive]
        dsimp only
        rw [endpoint_foldl_next]
        exact connection?_of_long hs.roster.nodup.1 hc (by simpa [Incoming.ends] using hi)
      · rw [List.append_nil]
        exact iff_of_true hlive' (.inr ⟨i, rfl⟩)
  | other c =>
    have hc : ∀ f, c ≠ .deliver id f := fun f heq => hx f (heq ▸ rfl)
    have hgiven := given_next hc (s.run id heard).course
    by_cases hstay : id ∈ ((s.run id heard).next id (.other c)).course.endpoint.clientIds
    · left
      exact h.heard_append nofun hlive hstay (hgiven.trans (List.append_nil _).symm)
    · right
      refine h.rest_append (fun _ => nofun) ?_ ?_ (fun _ => nofun) ?_
      · rwa [List.append_nil]
      · rw [List.append_nil]
        exact hgiven
      · rw [List.append_nil]
        simp [Session.next]

/-- **What comes of a session falls into two parts**, whatever happens meanwhile. -/
theorem exists_attended {events : List (SessionEvent Call)} (h : Accounts limits s.course)
    (hlive : s.live = true) (hin : id ∈ s.course.endpoint.clientIds)
    (hown : ∀ f, .other (.deliver id f) ∉ events)
    (hlt : (s.run id events).course.admitted.length < UInt32.size - 2) :
    ∃ heard rest, events = heard ++ rest ∧ Attended limits id s heard rest := by
  induction events using List.reverseRecOn with
  | nil =>
    refine ⟨[], [], rfl, nofun, nofun, fun parts more heq => ?_, ?_, nofun, ?_⟩
    · obtain ⟨rfl, -⟩ := List.append_eq_nil_iff.mp heq.symm
      simpa [Session.run] using hin
    · simp [Session.run]
    · simp [Session.run, hlive]
  | append_singleton events x ih =>
    rw [run_append_singleton] at hlt
    have hbefore := Nat.lt_of_le_of_lt (length_admitted_next id _ x) hlt
    have hx : ∀ f, x ≠ .other (.deliver id f) := fun f heq => hown f (by simp [heq])
    obtain ⟨heard, rest, rfl, ha⟩ := ih (fun f hf => hown f (List.mem_append_left _ hf)) hbefore
    have hs : Accounts limits (s.run id (heard ++ rest)).course := h.run hbefore
    cases rest with
    | nil =>
      rw [List.append_nil] at hs ⊢
      rcases ha.next hs hx with ha | ha
      · exact ⟨heard ++ [x], [], (List.append_nil _).symm, ha⟩
      · exact ⟨heard, [x], rfl, ha⟩
    | cons y rest =>
      have hid := mem_admitted_run (h.roster.mem_admitted hin) (heard ++ y :: rest)
      have hout := fun hmem => List.cons_ne_nil y rest (ha.mem_iff.mp hmem)
      obtain ⟨hgone, hgiven, hends⟩ := next_out hs hid hout hx hlt
      exact ⟨heard, y :: rest ++ [x], by simp, ha.rest_append nofun hgone hgiven nofun hends⟩

end Attended

/-- **The law of a session.** The client of a connection is admitted, and then items come while
anything may happen to the endpoint, except that no one else delivers a frame in the client's name.
What happens falls into what is heard of the client and a rest. The client is tracked as long as
what is heard lasts, and not any more after that. The rest starts with an item that ends the
session or with a call by which the client leaves. The frames that the handler gets from the client
are the non-empty ones among what is heard, in order; none of them is over the limit. A frame that is
too large is answered wherever the client's queue has room. The handler is told once that the client
left, or not at all if there is no rest, and the session is over once an item comes in the rest.
The law is that of fewer than `2 ^ 32 - 2` admissions, which is how long no id comes back: after
that the id of the client may be given to another one. -/
theorem session_law (path : String) (limits : EndpointLimits) (token : Option String)
    (before : List Call) (outbox : BoundedQueue Message) (events : List (SessionEvent Call)) :
    let start := course (new path limits token) before
    let id := (start.endpoint.accept outbox).1
    let run := Session.run id ⟨start.next (.accept outbox), true⟩
    (∀ f, .other (.deliver id f) ∉ events) →
    (run events).course.admitted.length < UInt32.size - 2 →
    serve apply id ((start.endpoint.accept outbox).2, true) events =
      ((run events).course.endpoint, (run events).live) ∧
    ∃ heard rest, events = heard ++ rest ∧
      (∀ i, .item i ∈ heard → i.ends limits = false) ∧
      (∀ i more, rest = .item i :: more → i.ends limits = true) ∧
      (∀ parts more, events = parts ++ more →
        (id ∈ (run parts).course.endpoint.clientIds ↔ parts <+: heard)) ∧
      (run events).course.frames id = heard.flatMap SessionEvent.frames ∧
      (∀ f more, rest = .item (.data f) :: more →
        ∃ c q, (run heard).course.endpoint.table.find? id = some c ∧
          (run (heard ++ [.item (.data f)])).course.endpoint.connection? id =
            some ⟨q, false, false⟩ ∧
          (c.outbox.isOpen = true → c.outbox.waiting.length < c.outbox.capacity →
            q.waiting = c.outbox.waiting ++ [oversizeNotice])) ∧
      (run events).course.events.count (.disconnected id) = (if rest = [] then 0 else 1) ∧
      ((run events).live = false ↔ ∃ i, .item i ∈ rest) := by
  intro start id run hown hlt
  let first : Session := ⟨start.next (.accept outbox), true⟩
  obtain ⟨calls, hcalls⟩ := exists_calls_run id first events
  have hfirst : first.course.admitted.length < UInt32.size - 2 := by
    refine Nat.lt_of_le_of_lt ?_ hlt
    rw [hcalls]
    exact length_admitted_foldl_next calls first.course
  have hstart : start.admitted.length < UInt32.size - 2 :=
    Nat.lt_of_le_of_lt (length_admitted_foldl_next [.accept outbox] start) hfirst
  have hs₀ : Accounts limits start := (accounts_new path limits token).foldl_next hstart
  have hs : Accounts limits first.course := hs₀.next hstart (.accept outbox)
  obtain ⟨hfresh, htracked, -, -, -⟩ := hs₀.roster.admission hstart outbox
  have hcame := hs.roster.mem_admitted htracked
  have hlocal := hs.roster.isTunnel_of_mem (Nat.lt_trans hfirst (by decide)) hcame
  have hnothing : given id first.course.moves = [] := by
    refine (given_next (fun f => ?_) start).trans (hs₀.given_eq_nil hlocal hfresh)
    nofun
  obtain ⟨heard, rest, rfl, ha⟩ := exists_attended hs rfl htracked hown hlt
  have hend : Accounts limits (run (heard ++ rest)).course := hs.run hlt
  refine ⟨serve_run hs hlt, heard, rest, rfl, ha.ongoing, ha.ending, ha.tracked, ?_, ?_, ?_,
    ha.live⟩
  · rw [hend.frames_eq hlocal]
    exact ha.given.trans (congrArg (· ++ _) hnothing)
  · intro f more heq
    obtain ⟨c, hc, hconnection⟩ := ha.answered f more heq
    refine ⟨c, _, hc, hconnection, fun hopen hroom => ?_⟩
    rw [BoundedQueue.waiting_push, if_pos (BoundedQueue.push_eq_queued_iff.mpr ⟨hopen, hroom⟩)]
  · rw [hend.count_disconnected (mem_admitted_run hcame _)]
    exact if_congr ha.mem_iff rfl rfl

/-- A client says one word, then nothing, and then too much; meanwhile another one comes. -/
def tooMuch : List (SessionEvent Call) :=
  [.item (.data (.text "hi")), .item .ping, .other (.accept (.new 1)), .item (.data (.text "")),
    .item (.data (.binary (List.replicate 9 0))), .item .close]

/-- Of that the word is heard, and the rest starts with the frame that is too large. -/
theorem session_law_too_much :
    let run := Session.run ⟨1⟩ ⟨(course (new "/pier" pairLimits none) []).next (.accept (.new 1)), true⟩
    (∀ f, .other (.deliver ⟨1⟩ f) ∉ tooMuch) ∧
    (run tooMuch).course.admitted.length < UInt32.size - 2 ∧
    (∃ heard rest, tooMuch = heard ++ rest ∧
      (run tooMuch).course.frames ⟨1⟩ = heard.flatMap SessionEvent.frames ∧
      (run tooMuch).course.events.count (.disconnected ⟨1⟩) = (if rest = [] then 0 else 1)) ∧
    (run tooMuch).course.frames ⟨1⟩ = [.text "hi"] ∧ (run tooMuch).live = false := by
  intro run
  have hown : ∀ f, .other (.deliver ⟨1⟩ f) ∉ tooMuch := by simp [tooMuch]
  have hlt : (run tooMuch).course.admitted.length < UInt32.size - 2 := by decide +kernel
  obtain ⟨-, heard, rest, heq, -, -, -, hframes, -, hcount, -⟩ :=
    session_law "/pier" pairLimits none [] (.new 1) tooMuch hown hlt
  exact ⟨hown, hlt, ⟨heard, rest, heq, hframes, hcount⟩, by decide +kernel, by decide +kernel⟩

end Endpoint

end DeviceRelay
