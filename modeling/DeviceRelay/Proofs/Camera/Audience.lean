import DeviceRelay.Camera.Hub
import DeviceRelay.Proofs.Endpoint.Topics

/-!
# The audience of camera frames

Whether anybody could receive a frame is asked before one is captured, and the question is put to
the same clients and tunnels that a frame goes to. So a frame is tried on somebody exactly if there
is an audience: a subscriber whose queue is closed is found out by the attempt, and one whose queue
is full loses the frame, but both count.

* `Endpoint.total_fanOut_pos_iff`: whether a message to many is tried at all.
* `Camera.share`: the part of one endpoint in the report on a frame.
* `Camera.Offered`: a frame is offered to every endpoint on its own.
* `Camera.audience_agrees`: the question and the frame agree.
-/

namespace DeviceRelay

/-! ## A message to many is tried on somebody -/

namespace Endpoint

section Attempts

variable {e : Endpoint} {wanted : Client → Bool}

/-- The first of some tracked clients is found, whoever has gone by the time of the others. -/
theorem releaseAll_pos {id : ClientId} {ids : List ClientId} (h : id ∈ e.clientIds) :
    1 ≤ (e.releaseAll (id :: ids)).1 := by
  obtain ⟨c, hc⟩ := Option.isSome_iff_exists.mp (ClientTable.find?_isSome_iff.mpr h)
  unfold releaseAll
  rw [List.foldl_cons]
  dsimp only
  rw [release_of_find? hc]
  refine List.foldlRecOn (motive := fun r : Nat × Endpoint => 1 ≤ r.1) ids _ ?_ fun r hr id _ => ?_
  · exact Nat.le_refl 1
  · dsimp only
    split
    · exact Nat.le_succ_of_le hr
    · exact hr

/-- A message that nobody is meant to get changes nothing. -/
theorem fanOut_of_nobody (h : ∀ c ∈ e.table.clients, wanted c = false) (m : Message) :
    e.fanOut wanted m = (.zero, e) := by
  have hnobody : e.table.clients.filter wanted = [] :=
    List.filter_eq_nil_iff.mpr fun c hc => by simp [h c hc]
  have hsame : e.queueWanted wanted m = e := by
    rw [queueWanted, ClientTable.map_eq_self fun c hc => by simp [h c hc]]
  rw [fanOut_def, closedIds, hnobody, hsame]
  rfl

/-- Ids need not be distinct here: of several clients with one id the first release finds one. -/
theorem total_fanOut_pos_iff (e : Endpoint) (wanted : Client → Bool) (m : Message) :
    1 ≤ (e.fanOut wanted m).1.total ↔ ∃ c ∈ e.table.clients, wanted c = true := by
  constructor
  · intro hpos
    by_contra hno
    have hnobody : ∀ c ∈ e.table.clients, wanted c = false := fun c hc =>
      eq_false_of_ne_true fun hw => hno ⟨c, hc, hw⟩
    rw [fanOut_of_nobody hnobody] at hpos
    exact absurd hpos (Nat.not_succ_le_zero 0)
  · rintro ⟨c, hc, hw⟩
    have hmem : c ∈ e.table.clients.filter wanted := List.mem_filter.mpr ⟨hc, hw⟩
    rw [fanOut_def, Report.total]
    dsimp only
    cases hp : (c.outbox.push m).1 with
    | queued =>
      have hqueued : 0 < (e.table.clients.filter wanted).countP
          fun c => (c.outbox.push m).1 = .queued :=
        List.countP_pos_iff.mpr ⟨c, hmem, decide_eq_true hp⟩
      omega
    | full =>
      have hfull : 0 < (e.table.clients.filter wanted).countP
          fun c => (c.outbox.push m).1 = .full :=
        List.countP_pos_iff.mpr ⟨c, hmem, decide_eq_true hp⟩
      omega
    | closed =>
      have hgone : c.id ∈ e.closedIds wanted m :=
        List.mem_map_of_mem (List.mem_filter.mpr ⟨hmem, decide_eq_true hp⟩)
      have hsub : e.closedIds wanted m ⊆ (e.queueWanted wanted m).clientIds :=
        clientIds_queueWanted e wanted m ▸
          ((List.filter_sublist.trans List.filter_sublist).map Client.id).subset
      have hreleased : 1 ≤ ((e.queueWanted wanted m).releaseAll (e.closedIds wanted m)).1 := by
        cases hids : e.closedIds wanted m with
        | nil =>
          rw [hids] at hgone
          cases hgone
        | cons id ids => exact releaseAll_pos (hsub (hids ▸ List.mem_cons_self))
      omega

end Attempts

end Endpoint

namespace Camera

open Endpoint

/-! ## One endpoint -/

section One

variable {e : Endpoint} {bytes : List UInt8}

/-- The part of one endpoint in the report on a frame: nothing if it refuses the frame. -/
def share (bytes : List UInt8) (e : Endpoint) : Report :=
  match (e.publishTopic .camera bytes).1 with
  | .ok report => report
  | .error _ => .zero

/-- An endpoint has an audience if a frame would be sent through its tunnel or to a local client. -/
theorem hasAudience_singleton_iff :
    hasAudience [e] = true ↔
      e.asksFar .camera = true ∨ ∃ c ∈ e.table.clients, subscribed .camera c = true := by
  have hfar : tunnelListens e = e.asksFar .camera := rfl
  simp only [hasAudience, List.any_cons, List.any_nil, Bool.or_false, Bool.or_eq_true,
    decide_eq_true_eq, hfar, subscribers, List.countP_pos_iff, or_assoc]
  refine or_congr_right ?_
  rw [← exists_or]
  refine exists_congr fun c => ?_
  rw [← and_or_left, subscribed, Topic.isFor, Bool.or_eq_true]

/-- Of a frame that fits something is reported exactly if there is an audience. -/
theorem total_share_pos_iff (hfits : bytes.length ≤ e.limits.maxBroadcastLength) :
    1 ≤ (share bytes e).total ↔ hasAudience [e] = true := by
  have hlocal := total_fanOut_pos_iff e (subscribed .camera) (.data (.binary bytes))
  rw [hasAudience_singleton_iff, share, publishTopic_eq hfits]
  dsimp only
  rw [Report.total_add, ← hlocal, total_farReport]
  cases e.asksFar .camera with
  | true => simp
  | false => simp

/-- Without an audience no frame gets anywhere: at most a far end that is not there is no longer
waiting for a snapshot. -/
theorem publishTopic_of_no_audience (h : hasAudience [e] = false) (bytes : List UInt8) :
    (e.publishTopic .camera bytes).2 =
      { e with tunnelTopics := (e.publishTopic .camera bytes).2.tunnelTopics } := by
  have hnone : ¬ (e.asksFar .camera = true ∨ ∃ c ∈ e.table.clients, subscribed .camera c = true) :=
    fun hsome => Bool.false_ne_true (h.symm.trans (hasAudience_singleton_iff.mpr hsome))
  obtain ⟨hfar, hlocal⟩ := not_or.mp hnone
  have hnobody : ∀ c ∈ e.table.clients, subscribed .camera c = false := fun c hc =>
    eq_false_of_ne_true fun hc' => hlocal ⟨c, hc, hc'⟩
  by_cases hfits : bytes.length ≤ e.limits.maxBroadcastLength
  · have hserved : e.serveLocal .camera bytes = { e with tunnelTopics := e.tunnelTopics.served } := by
      rw [serveLocal, wants_eq_subscribed, fanOut_of_nobody hnobody, serveClients,
        ClientTable.map_eq_self fun c hc => ?_]
      have hwants : c.topics.wants .camera = false :=
        (c.topics.wants_eq_isFor .camera).trans (hnobody c hc)
      rw [TopicSet.served_of_wants_eq_false hwants]
    rw [publishTopic_eq hfits, hserved, if_neg hfar]
  · rw [publishTopic_of_limit_lt (Nat.lt_of_not_le hfits)]

end One

/-! ## All endpoints -/

section All

variable {endpoints : List Endpoint} {bytes : List UInt8}

theorem hasAudience_cons (e : Endpoint) (endpoints : List Endpoint) :
    hasAudience (e :: endpoints) = (hasAudience [e] || hasAudience endpoints) := by
  simp [hasAudience]

theorem hasAudience_eq_false_iff :
    hasAudience endpoints = false ↔ ∀ e ∈ endpoints, hasAudience [e] = false := by
  simp [hasAudience]

theorem publish_cons (bytes : List UInt8) (e : Endpoint) (endpoints : List Endpoint) :
    publish bytes (e :: endpoints) =
      ((share bytes e).add (publish bytes endpoints).1,
        (e.publishTopic .camera bytes).2 :: (publish bytes endpoints).2) := rfl

theorem total_publish_pos_iff (hfits : ∀ e ∈ endpoints, bytes.length ≤ e.limits.maxBroadcastLength) :
    1 ≤ (publish bytes endpoints).1.total ↔ hasAudience endpoints = true := by
  induction endpoints with
  | nil => exact iff_of_false (Nat.not_succ_le_zero 0) Bool.false_ne_true
  | cons e endpoints ih =>
    have hhere := total_share_pos_iff (hfits e List.mem_cons_self)
    have hthere := ih fun e he => hfits e (List.mem_cons_of_mem _ he)
    rw [publish_cons, Report.total_add, hasAudience_cons, Bool.or_eq_true, ← hhere, ← hthere]
    omega

/-- Every endpoint is offered the frame, whatever became of it at the others. -/
structure Offered (bytes : List UInt8) (endpoints : List Endpoint) (total : Report)
    (endpoints' : List Endpoint) : Prop where
  each : endpoints' = endpoints.map fun e => (e.publishTopic .camera bytes).2
  total : total = (endpoints.map (share bytes)).foldr Report.add .zero
  /-- An endpoint that refuses the frame stays as it is and counts nothing. -/
  refused : ∀ e ∈ endpoints, e.limits.maxBroadcastLength < bytes.length →
    (e.publishTopic .camera bytes).2 = e ∧ share bytes e = .zero

theorem offered_publish (bytes : List UInt8) (endpoints : List Endpoint) :
    Offered bytes endpoints (publish bytes endpoints).1 (publish bytes endpoints).2 := by
  have hparts : publish bytes endpoints =
      ((endpoints.map (share bytes)).foldr Report.add .zero,
        endpoints.map fun e => (e.publishTopic .camera bytes).2) := by
    induction endpoints with
    | nil => rfl
    | cons e endpoints ih =>
      rw [publish_cons, ih]
      rfl
  rw [hparts]
  refine ⟨rfl, rfl, fun e _ hlong => ?_⟩
  rw [share, publishTopic_of_limit_lt hlong]
  exact ⟨rfl, rfl⟩

/-- **The question agrees with the frame.** Where a frame fits every endpoint, it is tried on
somebody exactly if there is an audience. Without one, no frame of any length changes a table, a
queue or a tunnel. In any case every endpoint is offered the frame. -/
theorem audience_agrees (endpoints : List Endpoint) (bytes : List UInt8) :
    ((∀ e ∈ endpoints, bytes.length ≤ e.limits.maxBroadcastLength) →
      (hasAudience endpoints = true ↔ 1 ≤ (publish bytes endpoints).1.total)) ∧
    (hasAudience endpoints = false → ∀ e ∈ endpoints, (e.publishTopic .camera bytes).2 =
      { e with tunnelTopics := (e.publishTopic .camera bytes).2.tunnelTopics }) ∧
    Offered bytes endpoints (publish bytes endpoints).1 (publish bytes endpoints).2 := by
  refine ⟨fun hfits => (total_publish_pos_iff hfits).symm, fun hnone e he => ?_,
    offered_publish bytes endpoints⟩
  exact publishTopic_of_no_audience (hasAudience_eq_false_iff.mp hnone e he) bytes

/-- An endpoint for shorter frames, whose far end is subscribed to all frames but is not there. -/
def absentAudience : Endpoint :=
  (((Endpoint.new "/ui" ⟨1, 8, 4⟩ none).attachTunnel (.new "/ui" .usual)).setTopic .tunnel .camera
    true).2

/-- A frame is tried on nobody at the first endpoint and on the subscribers of the second, who also
get a frame that the first endpoint refuses. -/
theorem audience_agrees_mixed :
    (∀ e ∈ [absentAudience, mixedSubscribers], [0xab].length ≤ e.limits.maxBroadcastLength) ∧
      (hasAudience [absentAudience, mixedSubscribers] = true ↔
        1 ≤ (publish [0xab] [absentAudience, mixedSubscribers]).1.total) ∧
      (publish [0xab] [absentAudience, mixedSubscribers]).1 = ⟨2, 1, 1⟩ ∧
      hasAudience [absentAudience] = false ∧
      (∀ e ∈ [absentAudience], (e.publishTopic .camera [0xab]).2 =
        { e with tunnelTopics := (e.publishTopic .camera [0xab]).2.tunnelTopics }) ∧
      share (List.replicate 6 0xab) absentAudience = .zero ∧
      (publish (List.replicate 6 0xab) [absentAudience, mixedSubscribers]).1 = ⟨2, 1, 1⟩ := by
  have hfits : ∀ e ∈ [absentAudience, mixedSubscribers],
      [0xab].length ≤ e.limits.maxBroadcastLength := by decide
  have hnone : hasAudience [absentAudience] = false := by decide
  have hoffered :=
    (audience_agrees [absentAudience, mixedSubscribers] (List.replicate 6 0xab)).2.2
  refine ⟨hfits, (audience_agrees _ [0xab]).1 hfits, by decide, hnone,
    (audience_agrees _ [0xab]).2.1 hnone, ?_, ?_⟩
  · exact (hoffered.refused absentAudience List.mem_cons_self (by decide)).2
  · rw [hoffered.total]
    decide

end All

end Camera

end DeviceRelay
