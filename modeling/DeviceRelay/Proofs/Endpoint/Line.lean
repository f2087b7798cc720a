import DeviceRelay.Endpoint.Events
import Mathlib.Data.List.Induction
import Mathlib.Data.List.Perm.Basic

/-!
# The order of events in a line

Events come to a line in the order in which they are produced, and the handler takes them in the
order in which they entered it. A notice that is carried by a task has been produced and has not
entered yet, so an event that enters meanwhile overtakes it. Without that the two orders agree.

* `EventLine.Move`, `EventLine.course`: what can happen to a line, and what comes of it.
* `EventLine.perm_told`: every event that came is handled, in the line or carried, once.
* `EventLine.entered_prefix_told_iff`: the handler takes events in the order of their production
  exactly when none overtakes.
-/

namespace DeviceRelay

namespace EventLine

/-! ## What can happen to a line -/

/-- An event comes one of the three ways, a task runs, or the handler takes an event. -/
inductive Move where
  | notify (e : EndpointEvent)
  | enqueue (e : EndpointEvent)
  | offer (e : EndpointEvent)
  | carry (index : Nat)
  | take
  deriving DecidableEq, Repr

def move (l : EventLine) : Move → EventLine
  | .notify e => l.notify e
  | .enqueue e => l.enqueue e
  | .offer e => l.offer e
  | .carry index => (l.runCarrier index).getD l
  | .take => (l.pop.map Prod.snd).getD l

/-- The event that comes. One that is offered to a full line is dropped and does not count. -/
def told (l : EventLine) : Move → List EndpointEvent
  | .notify e | .enqueue e => [e]
  | .offer e => if l.hasRoom then [e] else []
  | .carry _ | .take => []

/-- The event that the handler takes. -/
def taken (l : EventLine) : Move → List EndpointEvent
  | .take => (l.pop.map Prod.fst).toList
  | _ => []

/-- The event that gets its place in the line, or in front of it. -/
def entering (l : EventLine) : Move → List EndpointEvent
  | .notify e | .offer e => if l.hasRoom then [e] else []
  | .enqueue e => [e]
  | .carry index => l.carried[index]?.toList
  | .take => []

/-- Whether an event gets its place while a notice that came earlier is still carried. -/
def overtakes (l : EventLine) : Move → Bool
  | .notify _ | .offer _ => l.hasRoom && !l.carried.isEmpty
  | .enqueue _ => !l.carried.isEmpty
  | .carry index => 0 < index && index < l.carried.length
  | .take => false

/-- The events that have their place, in the order in which the handler will take them. -/
def queued (l : EventLine) : List EndpointEvent := l.waiting ++ l.blocked

/-- A line, and what has gone through it. -/
structure Course where
  line : EventLine
  /-- The events that came, in the order of their production. -/
  told : List EndpointEvent
  /-- The events that the handler took, in its order. -/
  handled : List EndpointEvent
  deriving DecidableEq, Repr

namespace Course

def next (s : Course) (m : Move) : Course :=
  ⟨s.line.move m, s.told ++ s.line.told m, s.handled ++ s.line.taken m⟩

/-- The events that have entered the line, in the order in which the handler takes them. -/
def entered (s : Course) : List EndpointEvent := s.handled ++ s.line.queued

end Course

/-- What comes of some moves, from an empty line. -/
def course (ms : List Move) : Course := ms.foldl Course.next ⟨.empty, [], []⟩

/-- At some move an event overtakes a notice. -/
def Overtaken (ms : List Move) : Prop :=
  ∃ before m after, ms = before ++ m :: after ∧ (course before).line.overtakes m = true

/-! ## One move -/

theorem blocked_of_hasRoom {l : EventLine} (h : l.hasRoom = true) : l.blocked = [] := by
  simpa [hasRoom] using (Bool.and_eq_true_iff.mp h).2

theorem queued_enqueue (l : EventLine) (e : EndpointEvent) :
    (l.enqueue e).queued = l.queued ++ [e] := by
  by_cases h : l.hasRoom = true
  · simp [enqueue, queued, h, blocked_of_hasRoom h]
  · simp [enqueue, queued, h]

theorem carried_enqueue (l : EventLine) (e : EndpointEvent) :
    (l.enqueue e).carried = l.carried := by
  unfold enqueue
  split <;> rfl

theorem queued_notify (l : EventLine) (e : EndpointEvent) :
    (l.notify e).queued = l.queued ++ if l.hasRoom then [e] else [] := by
  by_cases h : l.hasRoom = true
  · simp [notify, queued, h, blocked_of_hasRoom h]
  · simp [notify, queued, h]

theorem carried_notify (l : EventLine) (e : EndpointEvent) :
    (l.notify e).carried = l.carried ++ if l.hasRoom then [] else [e] := by
  by_cases h : l.hasRoom = true <;> simp [notify, h]

theorem queued_offer (l : EventLine) (e : EndpointEvent) :
    (l.offer e).queued = l.queued ++ if l.hasRoom then [e] else [] := by
  by_cases h : l.hasRoom = true
  · simp [offer, queued, h, blocked_of_hasRoom h]
  · simp [offer, h]

theorem carried_offer (l : EventLine) (e : EndpointEvent) : (l.offer e).carried = l.carried := by
  unfold offer
  split <;> rfl

theorem move_carry_of_some {l : EventLine} {index : Nat} {e : EndpointEvent}
    (h : l.carried[index]? = some e) :
    l.move (.carry index) = { l with carried := l.carried.eraseIdx index }.enqueue e := by
  simp [move, runCarrier, h]

theorem move_carry_of_none {l : EventLine} {index : Nat} (h : l.carried[index]? = none) :
    l.move (.carry index) = l := by
  simp [move, runCarrier, h]

theorem carried_take (l : EventLine) : (l.move .take).carried = l.carried := by
  obtain ⟨waiting, blocked, carried⟩ := l
  cases waiting with
  | nil => rfl
  | cons e waiting => cases blocked <;> rfl

/-- The line is first in, first out. -/
theorem taken_append_queued (l : EventLine) (m : Move) :
    l.taken m ++ (l.move m).queued = l.queued ++ l.entering m := by
  cases m with
  | notify e => exact queued_notify l e
  | enqueue e => exact queued_enqueue l e
  | offer e => exact queued_offer l e
  | carry index =>
    cases hc : l.carried[index]? with
    | none =>
      rw [move_carry_of_none hc]
      simp [taken, entering, hc]
    | some e =>
      rw [move_carry_of_some hc, queued_enqueue]
      simp [taken, entering, queued, hc]
  | take =>
    obtain ⟨waiting, blocked, carried⟩ := l
    cases waiting with
    | nil => simp [taken, move, pop, entering, queued]
    | cons e waiting => cases blocked <;> simp [taken, move, pop, entering, queued]

theorem mem_carried_move {l : EventLine} {m : Move} {e : EndpointEvent}
    (h : e ∈ (l.move m).carried) : e ∈ l.carried ∨ m = .notify e := by
  cases m with
  | notify e' =>
    rw [move, carried_notify] at h
    rcases List.mem_append.mp h with h | h
    · exact .inl h
    · split at h
      · cases h
      · exact .inr (congrArg Move.notify (List.mem_singleton.mp h).symm)
  | enqueue e' => exact .inl (carried_enqueue l e' ▸ h)
  | offer e' => exact .inl (carried_offer l e' ▸ h)
  | carry index =>
    cases hc : l.carried[index]? with
    | none => exact .inl (move_carry_of_none hc ▸ h)
    | some e' =>
      rw [move_carry_of_some hc, carried_enqueue] at h
      exact .inl (List.mem_of_mem_eraseIdx h)
  | take => exact .inl (carried_take l ▸ h)

/-- Where nothing overtakes, what is carried enters in the order in which it came. -/
theorem entering_append_carried {l : EventLine} {m : Move} (h : l.overtakes m = false) :
    l.entering m ++ (l.move m).carried = l.carried ++ l.told m := by
  cases m with
  | notify e =>
    rw [move, carried_notify, entering, told]
    by_cases hr : l.hasRoom = true
    · have hc : l.carried = [] := by simpa [overtakes, hr] using h
      simp [hr, hc]
    · simp [hr]
  | enqueue e =>
    have hc : l.carried = [] := by simpa [overtakes] using h
    rw [move, carried_enqueue, entering, told, hc]
    rfl
  | offer e =>
    rw [move, carried_offer, entering, told]
    by_cases hr : l.hasRoom = true
    · have hc : l.carried = [] := by simpa [overtakes, hr] using h
      simp [hr, hc]
    · simp [hr]
  | carry index =>
    cases hc : l.carried[index]? with
    | none =>
      rw [move_carry_of_none hc]
      simp [entering, told, hc]
    | some e =>
      have hlt : index < l.carried.length := (List.getElem?_eq_some_iff.mp hc).1
      have hzero : index = 0 := by
        by_contra hne
        simp [overtakes, hlt, Nat.pos_of_ne_zero hne] at h
      subst hzero
      rw [move_carry_of_some hc, carried_enqueue]
      obtain ⟨x, rest, hx⟩ := List.exists_cons_of_length_pos hlt
      rw [hx] at hc
      cases hc
      simp [entering, told, hx]
  | take => rw [carried_take, entering, told, List.nil_append, List.append_nil]

/-- In any case each event that is carried enters once, and no other stays behind. -/
theorem entering_append_carried_perm (l : EventLine) (m : Move) :
    (l.entering m ++ (l.move m).carried).Perm (l.carried ++ l.told m) := by
  cases m with
  | notify e =>
    rw [move, carried_notify, entering, told]
    by_cases hr : l.hasRoom = true
    · simpa [hr] using (List.perm_append_singleton e l.carried).symm
    · simp [hr]
  | enqueue e =>
    rw [move, carried_enqueue, entering, told]
    exact (List.perm_append_singleton e l.carried).symm
  | offer e =>
    rw [move, carried_offer, entering, told]
    by_cases hr : l.hasRoom = true
    · simpa [hr] using (List.perm_append_singleton e l.carried).symm
    · simp [hr]
  | carry index =>
    cases hc : l.carried[index]? with
    | none =>
      rw [move_carry_of_none hc]
      simp [entering, told, hc]
    | some e =>
      obtain ⟨hlt, rfl⟩ := List.getElem?_eq_some_iff.mp hc
      rw [move_carry_of_some hc, carried_enqueue]
      simpa [entering, told, hc] using List.getElem_cons_eraseIdx_perm hlt
  | take => rw [carried_take, entering, told, List.nil_append, List.append_nil]

/-- An event that overtakes gets its place before the first notice that is carried. It has just
come, or is carried behind that notice. -/
theorem entering_of_overtakes {l : EventLine} {m : Move} (h : l.overtakes m = true) :
    ∃ x first rest, l.entering m = [x] ∧ l.carried = first :: rest ∧
      (x ∈ rest ∨ l.told m = [x]) := by
  have hcons (hne : l.carried.isEmpty = false) : ∃ first rest, l.carried = first :: rest :=
    List.exists_cons_of_ne_nil (by simpa using hne)
  cases m with
  | notify e =>
    obtain ⟨hr, hne⟩ := Bool.and_eq_true_iff.mp h
    obtain ⟨first, rest, hc⟩ := hcons (by simpa using hne)
    exact ⟨e, first, rest, if_pos hr, hc, .inr rfl⟩
  | enqueue e =>
    obtain ⟨first, rest, hc⟩ := hcons (by simpa [overtakes] using h)
    exact ⟨e, first, rest, rfl, hc, .inr rfl⟩
  | offer e =>
    obtain ⟨hr, hne⟩ := Bool.and_eq_true_iff.mp h
    obtain ⟨first, rest, hc⟩ := hcons (by simpa using hne)
    exact ⟨e, first, rest, if_pos hr, hc, .inr (if_pos hr)⟩
  | carry index =>
    obtain ⟨hpos, hlt⟩ := Bool.and_eq_true_iff.mp h
    obtain ⟨first, rest, hc⟩ := List.exists_cons_of_length_pos
      (Nat.lt_of_le_of_lt (Nat.zero_le _) (by simpa using hlt))
    obtain ⟨k, rfl⟩ := Nat.exists_eq_succ_of_ne_zero (Nat.ne_of_gt (by simpa using hpos))
    have hk : k < rest.length := by simpa [hc] using hlt
    exact ⟨rest[k], first, rest, by simp [entering, hc, hk], hc, .inl (List.getElem_mem hk)⟩
  | take => cases h

/-! ## A course of moves -/

theorem course_append (ms ms' : List Move) :
    course (ms ++ ms') = ms'.foldl Course.next (course ms) := List.foldl_append

theorem course_append_singleton (ms : List Move) (m : Move) :
    course (ms ++ [m]) = (course ms).next m := course_append ms [m]

theorem line_foldl_next (ms : List Move) (s : Course) :
    (ms.foldl Course.next s).line = ms.foldl move s.line := by
  induction ms generalizing s with
  | nil => rfl
  | cons m ms ih => exact ih (s.next m)

/-- The handler takes an event only at its own move. -/
theorem handled_foldl_next {ms : List Move} (h : .take ∉ ms) (s : Course) :
    (ms.foldl Course.next s).handled = s.handled := by
  induction ms generalizing s with
  | nil => rfl
  | cons m ms ih =>
    obtain ⟨hm, hms⟩ := not_or.mp (fun hmem => h (List.mem_cons.mpr hmem))
    have hnone : s.line.taken m = [] := by
      cases m with
      | take => exact absurd rfl hm
      | _ => rfl
    rw [List.foldl_cons, ih hms, Course.next, hnone, List.append_nil]

/-- Every event came at some move. -/
theorem told_foldl_next (ms : List Move) (s : Course) : ∃ events,
    (ms.foldl Course.next s).told = s.told ++ events ∧
      ∀ e ∈ events, .notify e ∈ ms ∨ .enqueue e ∈ ms ∨ .offer e ∈ ms := by
  induction ms generalizing s with
  | nil => exact ⟨[], (List.append_nil _).symm, nofun⟩
  | cons m ms ih =>
    obtain ⟨events, htold, hevents⟩ := ih (s.next m)
    refine ⟨s.line.told m ++ events, htold.trans (List.append_assoc _ _ _), fun e he => ?_⟩
    rcases List.mem_append.mp he with he | he
    · cases m with
      | notify e' => simp [List.mem_singleton.mp he]
      | enqueue e' => simp [List.mem_singleton.mp he]
      | offer e' =>
        rw [told] at he
        split at he
        · simp [List.mem_singleton.mp he]
        · cases he
      | carry index => cases he
      | take => cases he
    · simpa [or_assoc] using (hevents e he).imp (List.mem_cons_of_mem m)
        (Or.imp (List.mem_cons_of_mem m) (List.mem_cons_of_mem m))

/-- An event that only comes as a notice comes as often as it is given. -/
theorem count_told {ms : List Move} {e : EndpointEvent} (henqueue : .enqueue e ∉ ms)
    (hoffer : .offer e ∉ ms) : (course ms).told.count e = ms.count (.notify e) := by
  induction ms using List.reverseRecOn with
  | nil => rfl
  | append_singleton ms m ih =>
    rw [List.mem_append, not_or] at henqueue hoffer
    have hstep : ((course ms).line.told m).count e = [m].count (.notify e) := by
      cases m with
      | notify e' => simp [told, List.count_singleton, beq_eq_decide]
      | enqueue e' =>
        have hne : e' ≠ e := by
          rintro rfl
          exact henqueue.2 List.mem_cons_self
        simp [told, hne]
      | offer e' =>
        have hne : e' ≠ e := by
          rintro rfl
          exact hoffer.2 List.mem_cons_self
        rw [told]
        split <;> simp [hne]
      | carry index => simp [told]
      | take => simp [told]
    rw [course_append_singleton, Course.next, List.count_append, List.count_append,
      ih henqueue.1 hoffer.1, hstep]

theorem entered_next (s : Course) (m : Move) :
    (s.next m).entered = s.entered ++ s.line.entering m := by
  unfold Course.entered Course.next
  rw [List.append_assoc, taken_append_queued, List.append_assoc]

theorem overtaken_append_singleton {ms : List Move} {m : Move} :
    Overtaken (ms ++ [m]) ↔ Overtaken ms ∨ (course ms).line.overtakes m = true := by
  constructor
  · rintro ⟨before, m', after, heq, h⟩
    rcases List.eq_nil_or_concat after with rfl | ⟨after, m'', rfl⟩
    · obtain ⟨rfl, hm⟩ := List.append_inj' heq rfl
      cases hm
      exact .inr h
    · have heq' : ms ++ [m] = (before ++ m' :: after) ++ [m''] := by simpa using heq
      obtain ⟨rfl, -⟩ := List.append_inj' heq' rfl
      exact .inl ⟨before, m', after, rfl, h⟩
  · rintro (⟨before, m', after, rfl, h⟩ | h)
    · exact ⟨before, m', after ++ [m], by simp, h⟩
    · exact ⟨ms, m, [], rfl, h⟩

/-- **Nothing is lost and nothing comes twice**: each event that came is handled, has its place or
is carried. -/
theorem perm_told (ms : List Move) :
    ((course ms).entered ++ (course ms).line.carried).Perm (course ms).told := by
  induction ms using List.reverseRecOn with
  | nil => exact .refl _
  | append_singleton ms m ih =>
    rw [course_append_singleton, entered_next, List.append_assoc]
    have hstep := entering_append_carried_perm (course ms).line m
    refine (hstep.append_left (course ms).entered).trans ?_
    rw [← List.append_assoc]
    exact ih.append_right _

/-- Where nothing overtakes, the events are in the order of their production throughout. -/
theorem entered_append_carried {ms : List Move} (h : ¬ Overtaken ms) :
    (course ms).entered ++ (course ms).line.carried = (course ms).told := by
  induction ms using List.reverseRecOn with
  | nil => rfl
  | append_singleton ms m ih =>
    rw [overtaken_append_singleton, not_or] at h
    rw [course_append_singleton, entered_next, List.append_assoc]
    have hstep := entering_append_carried (eq_false_of_ne_true h.2)
    rw [show ((course ms).next m).line = (course ms).line.move m from rfl, hstep,
      ← List.append_assoc, ih h.1]
    rfl

/-- What is carried came as a notice. -/
theorem notify_mem_of_carried {ms : List Move} {e : EndpointEvent}
    (h : e ∈ (course ms).line.carried) : .notify e ∈ ms := by
  induction ms using List.reverseRecOn with
  | nil => cases h
  | append_singleton ms m ih =>
    rw [course_append_singleton] at h
    rcases mem_carried_move h with h | rfl
    · exact List.mem_append_left _ (ih h)
    · exact List.mem_append_right _ List.mem_cons_self

/-- Once an event has overtaken a notice, the two orders differ at the place that it took. -/
theorem Overtaken.differs {ms : List Move} (h : Overtaken ms)
    (hone : ∀ e, .notify e ∈ ms → (course ms).told.count e ≤ 1) :
    ∃ same x first, x ≠ first ∧ same ++ [x] <+: (course ms).entered ∧
      same ++ [first] <+: (course ms).told := by
  induction ms using List.reverseRecOn with
  | nil =>
    obtain ⟨before, m, after, heq, -⟩ := h
    simp at heq
  | append_singleton ms m ih =>
    have htold : (course (ms ++ [m])).told = (course ms).told ++ (course ms).line.told m := by
      rw [course_append_singleton]
      rfl
    have hentered : (course (ms ++ [m])).entered =
        (course ms).entered ++ (course ms).line.entering m := by
      rw [course_append_singleton, entered_next]
    by_cases hms : Overtaken ms
    · -- The places that are taken stay taken.
      have hbefore : ∀ e, .notify e ∈ ms → (course ms).told.count e ≤ 1 := by
        intro e he
        have hle := hone e (List.mem_append_left _ he)
        rw [htold, List.count_append] at hle
        omega
      obtain ⟨same, x, first, hne, hx, hfirst⟩ := ih hms hbefore
      rw [htold, hentered]
      exact ⟨same, x, first, hne, hx.trans (List.prefix_append _ _),
        hfirst.trans (List.prefix_append _ _)⟩
    · have hm := (overtaken_append_singleton.mp h).resolve_left hms
      obtain ⟨x, first, rest, hx, hc, hfrom⟩ := entering_of_overtakes hm
      have hsame := entered_append_carried hms
      rw [hc] at hsame
      refine ⟨(course ms).entered, x, first, ?_, ?_, ?_⟩
      · rintro rfl
        have hfirst : .notify x ∈ ms := notify_mem_of_carried (by rw [hc]; exact List.mem_cons_self)
        have hle := hone x (List.mem_append_left _ hfirst)
        rw [htold, ← hsame, List.count_append, List.count_append, List.count_cons_self] at hle
        rcases hfrom with hrest | htold
        · have hpos := List.count_pos_iff.mpr hrest
          omega
        · rw [htold, List.count_singleton_self] at hle
          omega
      · exact ⟨[], by rw [List.append_nil, hentered, hx]⟩
      · rw [htold, ← hsame]
        exact ⟨rest ++ (course ms).line.told m, by simp⟩

/-- **The order of events.** Where each notice comes once, the handler takes the events in the
order of their production exactly when none overtakes a notice. -/
theorem entered_prefix_told_iff {ms : List Move}
    (hone : ∀ e, .notify e ∈ ms → (course ms).told.count e ≤ 1) :
    (course ms).entered <+: (course ms).told ↔ ¬ Overtaken ms := by
  constructor
  · intro hpre h
    obtain ⟨same, x, first, hne, hx, hfirst⟩ := h.differs hone
    have hboth := List.prefix_of_prefix_length_le (hx.trans hpre) hfirst (by simp)
    have heq := List.append_cancel_left (hboth.eq_of_length (by simp))
    exact hne (List.cons.inj heq).1
  · intro h
    exact ⟨_, entered_append_carried h⟩

end EventLine

end DeviceRelay
