import DeviceRelay.Outbound.Client

/-!
# What a client tells of its session

A client that does not reconnect has one session at most. It tells that it is connected, then of
the messages, and then at most once that it is disconnected; of a failure it may tell at any time.

* `SessionPhase.next`: what may be told next.
* `OutboundClient.OneShot`: a client that does not reconnect, by what it has told so far.
* `OutboundClient.OneShot.taskStep`: such a client tells only what may be told next.
-/

namespace DeviceRelay

/-- How much was told of a session. -/
inductive SessionPhase where
  | before
  | during
  | after
  deriving DecidableEq, Repr

namespace SessionPhase

/-- After one more event, none where the event may not be told then. -/
def next : SessionPhase → ClientEvent → Option SessionPhase
  | p, .failed _ => some p
  | .before, .connected => some .during
  | .during, .message _ _ => some .during
  | .during, .disconnected => some .after
  | _, _ => none

/-- After some more events, none where one of them may not be told. -/
def after? (p : SessionPhase) (events : List ClientEvent) : Option SessionPhase :=
  events.foldlM next p


@[simp] theorem after?_cons (p : SessionPhase) (e : ClientEvent) (events : List ClientEvent) :
    p.after? (e :: events) = (p.next e).bind (·.after? events) := rfl

theorem after?_append (p : SessionPhase) (events more : List ClientEvent) :
    p.after? (events ++ more) = (p.after? events).bind (·.after? more) :=
  List.foldlM_append

end SessionPhase

namespace OutboundClient

/-- The task of a client that does not reconnect. -/
inductive TaskAt : List NetworkTask → SessionPhase → Prop where
  | dials (task : NetworkTask) (h : task.phase = .starting ∨ task.phase = .dialing) :
      TaskAt [task] .before
  | serves (task : NetworkTask) (since : Duration) (h : task.phase = .inSession since) :
      TaskAt [task] .during
  | ended (p : SessionPhase) (h : p ≠ .during) : TaskAt [] p

/-- A client that does not reconnect and was not asked to stop, by what it has told. -/
structure OneShot (c : OutboundClient) (p : SessionPhase) : Prop where
  once : c.autoReconnect = false
  wanted : c.stopRequested = false
  task : TaskAt c.tasks p

variable {c c' : OutboundClient} {p : SessionPhase}

/-- A new client has told nothing. -/
theorem oneShot_begin {config : ClientConfig} (h : new.begin config = .ok c)
    (honce : config.autoReconnect = false) : c.OneShot .before := by
  unfold begin at h
  split at h
  · cases h
  · cases h
    exact ⟨honce, rfl, .dials _ (.inl rfl)⟩

theorem OneShot.setOutbox (h : c.OneShot p) (outbox : Option (BoundedQueue Message)) :
    ({ c with outbox := outbox } : OutboundClient).OneShot p :=
  ⟨h.once, h.wanted, h.task⟩

/-- After its session, or a dial that failed, the task of such a client ends. -/
theorem afterSession_of_once {task : NetworkTask} (honce : c.autoReconnect = false)
    (htasks : c.tasks = [task]) (now held : Duration) :
    c.afterSession task now held = ({ c with tasks := [] }, []) := by
  have hrest : (c.stopRequested || !c.autoReconnect) = true := by simp [honce]
  unfold afterSession abort
  rw [if_pos hrest, htasks]
  simp

theorem endSession_of_once {task : NetworkTask} (honce : c.autoReconnect = false)
    (htasks : c.tasks = [task]) (now since : Duration) :
    c.endSession task now since =
      ({ c with outbox := none, isConnected := false, tasks := [] }, [.disconnected]) := by
  unfold endSession
  dsimp only
  rw [afterSession_of_once (c := { c with outbox := none, isConnected := false }) honce htasks]

/-- While such a client dials, its task finds its configuration, connects, or fails. -/
theorem oneShot_stepOf_dials {task : NetworkTask} (honce : c.autoReconnect = false)
    (hwanted : c.stopRequested = false) (htasks : c.tasks = [task])
    (hphase : task.phase = .starting ∨ task.phase = .dialing) {now : Duration} {s : NetworkStep}
    {events : List ClientEvent} (hstep : c.stepOf task now s = some (c', events)) :
    ∃ p', SessionPhase.before.after? events = some p' ∧ c'.OneShot p' := by
  cases s with
  | start =>
    simp only [stepOf] at hstep
    split at hstep
    · cases hstep
      refine ⟨.before, rfl, honce, hwanted, ?_⟩
      rw [htasks]
      simpa using TaskAt.dials _ (.inr rfl)
    · cases hstep
  | dialed =>
    simp only [stepOf] at hstep
    split at hstep
    · cases hstep
      refine ⟨.during, rfl, honce, hwanted, ?_⟩
      simpa [setPhase, htasks] using TaskAt.serves { task with phase := .inSession now } now rfl
    · cases hstep
  | dialFailed e =>
    simp only [stepOf, afterSession_of_once honce htasks] at hstep
    split at hstep
    · cases hstep
      exact ⟨.before, rfl, honce, hwanted, .ended .before nofun⟩
    · cases hstep
  | stopped => simp [stepOf, hwanted] at hstep
  | received | transmitted | peerClosed | broken | saidGoodbye | woken =>
    obtain hphase | hphase := hphase <;> simp [stepOf, hphase] at hstep

/-- In its session such a client hands on messages, and tells of the end once. -/
theorem oneShot_stepOf_serves {task : NetworkTask} (honce : c.autoReconnect = false)
    (hwanted : c.stopRequested = false) (htasks : c.tasks = [task]) {since : Duration}
    (hphase : task.phase = .inSession since) {now : Duration} {s : NetworkStep}
    {events : List ClientEvent} (hstep : c.stepOf task now s = some (c', events)) :
    ∃ p', SessionPhase.during.after? events = some p' ∧ c'.OneShot p' := by
  have hserves : TaskAt c.tasks .during := htasks ▸ .serves task since hphase
  have hended : TaskAt [] .after := .ended .after nofun
  cases s with
  | received payload isBinary =>
    simp only [stepOf, hphase] at hstep
    cases hstep
    exact ⟨.during, rfl, honce, hwanted, hserves⟩
  | transmitted =>
    simp only [stepOf, hphase] at hstep
    cases hstep
    exact ⟨.during, rfl, honce, hwanted, hserves⟩
  | peerClosed =>
    simp only [stepOf, hphase, endSession_of_once honce htasks] at hstep
    cases hstep
    exact ⟨.after, rfl, honce, hwanted, hended⟩
  | broken e =>
    simp only [stepOf, hphase, endSession_of_once honce htasks] at hstep
    cases hstep
    exact ⟨.after, rfl, honce, hwanted, hended⟩
  | stopped => simp [stepOf, hwanted] at hstep
  | start | dialed | dialFailed | saidGoodbye | woken => simp [stepOf, hphase] at hstep

/-- **A step of the task** of a client that does not reconnect tells only what may be told then. -/
theorem OneShot.taskStep (h : c.OneShot p) {number : Nat} {now : Duration} {s : NetworkStep}
    {events : List ClientEvent} (hstep : c.taskStep number now s = some (c', events)) :
    ∃ p', p.after? events = some p' ∧ c'.OneShot p' := by
  obtain ⟨task, hfind, hstep⟩ := Option.bind_eq_some_iff.mp hstep
  have hmem := List.mem_of_find?_eq_some hfind
  obtain ⟨honce, hwanted, htask⟩ := h
  generalize htasks : c.tasks = tasks at htask hmem
  cases htask with
  | dials task' hphase =>
    obtain rfl := List.mem_singleton.mp hmem
    exact oneShot_stepOf_dials honce hwanted htasks hphase hstep
  | serves task' since hphase =>
    obtain rfl := List.mem_singleton.mp hmem
    exact oneShot_stepOf_serves honce hwanted htasks hphase hstep
  | ended _ _ => cases hmem

end OutboundClient

end DeviceRelay
