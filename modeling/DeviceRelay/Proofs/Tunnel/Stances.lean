import DeviceRelay.Proofs.Tunnel.Moves
import DeviceRelay.Tunnel.Fleet

/-!
# Where a worker stands to the dial gate

A worker goes to the gate to ask for a permit, and passes it with one or without. With one it is
said to hold it until it gives it back or is gone. No other event takes a worker to the gate, past
it or away from it than a step of the worker itself or the call that aborts it.

* `Tunnel.stance`: where the worker of a tunnel stands.
* `Tunnel.DialEnds`: the ways in which a dial leaves the gate or ends its hold.
* `Tunnel.stance_of_step`: what an event does to where the worker stands.
* `Tunnel.DialEnds.stance_eq_away`: whatever ends a dial takes its worker away.
-/

namespace DeviceRelay

/-- Where a worker stands to the gate. -/
inductive Stance where
  | away
  /-- It waits for a permit, or was just given one. -/
  | asking
  /-- It is past the gate with a permit, and has not given it back. -/
  | holding
  deriving DecidableEq, Repr

def WorkerPhase.stance : WorkerPhase → Stance
  | .queueing _ => .asking
  | .installing _ true | .connecting _ true _ => .holding
  | _ => .away

theorem WorkerPhase.wantsPermit_eq (p : WorkerPhase) :
    p.wantsPermit = decide (p.stance ≠ .away) := by
  cases p with
  | installing a permit => cases permit <;> rfl
  | connecting a permit since => cases permit <;> rfl
  | _ => rfl

namespace Tunnel

variable {t t' : Tunnel} {now : Duration} {e : TunnelEvent} {seen : List TunnelEffect}

def stance (t : Tunnel) : Stance := (t.worker.map (·.phase.stance)).getD .away

/-- The ways in which a dial leaves the gate or ends its hold: what happens, and where the worker
is then. -/
inductive DialEnds (t : Tunnel) (w : Worker) : TunnelEvent → Prop where
  | stoppedQueueing (a : Attempt) (hp : w.phase = .queueing a) : DialEnds t w (.worker .stopped)
  | waitExpired (a : Attempt) (hp : w.phase = .queueing a) : DialEnds t w (.worker (.passed false))
  /-- The client refuses the configuration. -/
  | rejected (a : Attempt) (permit : Bool) (hp : w.phase = .installing a permit)
      (hrefused : (t.install a).2 = false) : DialEnds t w (.worker .locked)
  | connected (a : Attempt) (permit : Bool) (since : Duration)
      (hp : w.phase = .connecting a permit since) : DialEnds t w (.worker .sawConnected)
  | stopped (a : Attempt) (permit : Bool) (since : Duration)
      (hp : w.phase = .connecting a permit since) : DialEnds t w (.worker .stopped)
  /-- The connection was not up in two seconds. -/
  | holdOver (a : Attempt) (permit : Bool) (since : Duration)
      (hp : w.phase = .connecting a permit since) : DialEnds t w (.worker .releasedPermit)
  /-- The connection was never up. -/
  | neverConnected (a : Attempt) (permit : Bool) (since : Duration)
      (hp : w.phase = .connecting a permit since) : DialEnds t w (.worker .woken)
  /-- The owner's call gives up waiting for the worker, wherever that is. -/
  | aborted : DialEnds t w (.control .aborted)

theorem wantsPermit_eq (t : Tunnel) : t.wantsPermit = decide (t.stance ≠ .away) := by
  unfold wantsPermit stance
  cases t.worker with
  | none => rfl
  | some w => exact w.phase.wantsPermit_eq

theorem stance_eq {w : Worker} (h : t.worker = some w) : t.stance = w.phase.stance := by
  simp [stance, h]

theorem stance_congr (h : t'.worker = t.worker) : t'.stance = t.stance := by
  simp only [stance, h]

/-- A worker at the head of its loop goes to the gate or stays away from it. -/
theorem stance_look (t : Tunnel) (w : Worker) (now : Duration) :
    (look t w now).phase.stance = .away ∨ (look t w now).phase.stance = .asking := by
  unfold look
  split
  · exact .inl rfl
  · dsimp only
    split
    · exact .inl rfl
    · split
      · exact .inr rfl
      · exact .inl rfl

theorem stance_afterAttempt (w : Worker) (a : Attempt) (now held : Duration) :
    (afterAttempt w a now held).phase.stance = .away := by
  unfold afterAttempt
  split <;> rfl

/-- What an event does to where the worker stands. -/
inductive StanceMoved (t : Tunnel) (e : TunnelEvent) (t' : Tunnel) : Prop where
  | stays (h : t'.stance = t.stance)
  | asks (h : t.stance = .away) (h' : t'.stance = .asking)
  | passes (he : e = .worker (.passed true)) (h : t.stance = .asking) (h' : t'.stance = .holding)
  | leaves (w : Worker) (hw : t.worker = some w) (hends : DialEnds t w e)
      (h' : t'.stance = .away)

theorem stance_spawnWorker (t : Tunnel) : t.spawnWorker.stance = t.stance := by
  obtain ⟨w, -, heq⟩ | ⟨w', hw', hold, heq⟩ := t.spawnWorker_cases
  · rw [heq]
  · rw [heq, stance_eq rfl, hw']
    cases hw : t.worker with
    | none => simp [stance, hw, WorkerPhase.stance]
    | some w => rw [stance_eq hw, hold w hw]; rfl

theorem stance_startStopping (t : Tunnel) (restarts : Bool) (now : Duration) :
    (t.startStopping restarts now).stance = t.stance := by
  obtain ⟨-, heq⟩ | ⟨w, hw, heq⟩ := t.startStopping_cases restarts now
  · rw [heq]
    rfl
  · rw [heq, stance_eq hw]
    rfl

theorem stance_finishControl (t : Tunnel) (c : ControlTask) :
    (t.finishControl c).stance = t.stance := by
  unfold finishControl
  split
  · exact stance_spawnWorker { t with control := none }
  · rfl

theorem stance_call {config : TunnelConfig} {enabled : Bool}
    (h : CallMoved t now config enabled t') : t'.stance = t.stance := by
  cases h with
  | sets => rfl
  | spawns _ => exact stance_spawnWorker _
  | stops restarts _ => exact stance_startStopping _ restarts now

/-- The call takes the worker out of the slot when it has ended, or gives it up. -/
theorem stance_controlStep {s : ControlStep} (h : t.controlStep now s = some t') :
    StanceMoved t (.control s) t' := by
  obtain ⟨c, -, hacts⟩ := controlStep_acts h
  cases hacts with
  | joins since hp hdone =>
    refine .stays ?_
    cases hw : t.worker with
    | none => simp [stance, hw]
    | some w => rw [stance_eq hw, hdone w hw]; rfl
  | aborts since hp hdue =>
    cases hw : t.worker with
    | none => exact .stays (by simp [stance, hw, abortWorker])
    | some w => exact .leaves w hw .aborted rfl
  | takes => exact .stays rfl
  | finds | ends | givesUp => exact .stays (stance_finishControl _ c)

/-- A worker that was asked to stop leaves the gate, or the connection that it waits for. -/
theorem stance_noticeStop {w w' : Worker} (hw : t.worker = some w)
    (h : noticeStop w now = some w') :
    StanceMoved t (.worker .stopped) { t with worker := some w' } := by
  unfold noticeStop at h
  cases hp : w.phase <;> simp only [hp, reduceCtorEq, Option.some.injEq] at h <;> subst h
  case queueing a => exact .leaves w hw (.stoppedQueueing a hp) rfl
  case connecting a permit since => exact .leaves w hw (.stopped a permit since hp) rfl
  all_goals exact .stays (by rw [stance_eq hw, hp]; rfl)

theorem stance_wake {w w' : Worker} (hw : t.worker = some w) (h : wake t w now = some w') :
    StanceMoved t (.worker .woken) { t with worker := some w' } := by
  unfold wake at h
  cases hp : w.phase with
  | pausing wakeAt =>
    simp only [hp, Option.ite_none_right_eq_some, Option.some.injEq] at h
    obtain ⟨-, rfl⟩ := h
    exact .stays (by rw [stance_eq hw, hp]; rfl)
  | resting a since delay =>
    simp only [hp, Option.ite_none_right_eq_some, Option.some.injEq] at h
    obtain ⟨-, rfl⟩ := h
    exact .stays (by rw [stance_eq hw, hp]; rfl)
  | connecting a permit since =>
    simp only [hp, Option.ite_none_right_eq_some, Option.some.injEq] at h
    obtain ⟨-, rfl⟩ := h
    exact .leaves w hw (.neverConnected a permit since hp) rfl
  | holding a since pollAt =>
    simp only [hp] at h
    split at h
    · cases h
    · split at h <;> cases h <;> exact .stays (by rw [stance_eq hw, hp]; rfl)
  | _ => simp [hp] at h

theorem stance_tear (t : Tunnel) (w : Worker) (a : Attempt) (now held : Duration) :
    (t.tear w a now held).stance = .away := by
  unfold tear
  split
  · rfl
  · exact stance_afterAttempt w a now held

theorem stance_workerStep {s : WorkerStep} (h : t.workerStep now s = some t') :
    StanceMoved t (.worker s) t' := by
  obtain ⟨w, hw, hacts⟩ := workerStep_acts h
  cases hacts with
  | looks hp =>
    have haway : t.stance = .away := by rw [stance_eq hw, hp]; rfl
    obtain hlook | hlook := stance_look t w now
    · exact .stays (hlook.trans haway.symm)
    · exact .asks haway hlook
  | notices w' _ hw' => exact stance_noticeStop hw hw'
  | wakes w' hw' => exact stance_wake hw hw'
  | passes a permit hp =>
    cases permit with
    | true => exact .passes rfl (by rw [stance_eq hw, hp]; rfl) rfl
    | false => exact .leaves w hw (.waitExpired a hp) rfl
  | installs a permit hp =>
    cases hinstalled : (t.install a).2 with
    | false => exact .leaves w hw (.rejected a permit hp hinstalled) rfl
    | true =>
      refine .stays ?_
      rw [stance_eq hw, hp]
      cases permit <;> rfl
  | tears a held hp =>
    exact .stays (by rw [stance_tear, stance_eq hw, hp]; rfl)
  | connects a permit since hp => exact .leaves w hw (.connected a permit since hp) rfl
  | releases a since hp => exact .leaves w hw (.holdOver a true since hp) rfl
  | joins a held s hp | givesUp a held s hp =>
    exact .stays ((stance_afterAttempt w a now held).trans (by rw [stance_eq hw, hp]; rfl))

theorem worker_onClientEvents (t : Tunnel) (generation : Nat) (now : Duration)
    (events : List ClientEvent) :
    (t.onClientEvents generation now events).2.worker = t.worker := by
  unfold onClientEvents
  generalize ([] : List Frame) = frames
  induction events generalizing t frames with
  | nil => rfl
  | cons e events ih =>
    obtain ⟨state, uiConnected, record, heq⟩ := t.onClientEvent_snd generation now e
    rw [List.foldl_cons, ih, heq]

theorem stance_networkStep {generation task : Nat} {s : OutboundClient.NetworkStep}
    {frames : List Frame} (h : t.networkStep generation task now s = some (frames, t')) :
    t'.stance = t.stance := by
  obtain ⟨tr, client, events, -, -, h⟩ := networkStep_cases h
  have hworker := worker_onClientEvents (t.putTransport ⟨tr.generation, client⟩) generation now
    events
  rw [h] at hworker
  rw [stance_congr hworker]
  simp only [stance, putTransport, Option.map_map]
  congr 1
  refine Option.map_congr fun w _ => ?_
  obtain ⟨phase, _, _⟩ := w
  cases phase <;> rfl

/-- **What an event does to where the worker stands.** -/
theorem stance_of_step (h : t.step now e = some (t', seen)) : StanceMoved t e t' := by
  cases e with
  | configure | setTiming | setEnabled => exact .stays (stance_call (called_of_step rfl h).moved)
  | control s =>
    obtain ⟨t'', hs, heq⟩ := Option.map_eq_some_iff.mp h
    cases heq
    exact stance_controlStep hs
  | worker s =>
    obtain ⟨t'', hs, heq⟩ := Option.map_eq_some_iff.mp h
    cases heq
    exact stance_workerStep hs
  | network generation task s =>
    cases step_cases h with
    | call he => cases he
    | network hs => exact .stays (stance_networkStep hs)
  | send ticket f =>
    cases step_cases h with
    | call he => cases he
    | send hsent =>
      cases hsent
      exact .stays rfl
  | sending ticket s =>
    cases step_cases h with
    | call he => cases he
    | sending hsent =>
      cases hsent
      exact .stays rfl

theorem workerActs_of_step {w : Worker} {s : WorkerStep} (hw : t.worker = some w)
    (h : t.step now (.worker s) = some (t', seen)) : WorkerActs t w now s t' := by
  obtain ⟨t'', hs, heq⟩ := Option.map_eq_some_iff.mp h
  cases heq
  obtain ⟨w', hw', hacts⟩ := workerStep_acts hs
  cases hw.symm.trans hw'
  exact hacts

/-- Whatever ends a dial takes its worker away from the gate. -/
theorem DialEnds.stance_eq_away {w : Worker} (hends : DialEnds t w e) (hw : t.worker = some w)
    (h : t.step now e = some (t', seen)) : t'.stance = .away := by
  cases hends with
  | stoppedQueueing a hp =>
    cases workerActs_of_step hw h with
    | notices w' _ hw' =>
      rw [noticeStop, hp] at hw'
      cases hw'
      rfl
  | stopped a permit since hp =>
    cases workerActs_of_step hw h with
    | notices w' _ hw' =>
      rw [noticeStop, hp] at hw'
      cases hw'
      rfl
  | waitExpired a hp =>
    cases workerActs_of_step hw h with
    | passes => rfl
  | rejected a permit hp hrefused =>
    cases workerActs_of_step hw h with
    | installs a' permit' hp' =>
      cases hp.symm.trans hp'
      rw [stance_eq rfl, hrefused]
      rfl
    | tears a held hp' => cases hp.symm.trans hp'
  | connected a permit since hp =>
    cases workerActs_of_step hw h with
    | connects => rfl
  | holdOver a permit since hp =>
    cases workerActs_of_step hw h with
    | releases => rfl
  | neverConnected a permit since hp =>
    cases workerActs_of_step hw h with
    | wakes w' hw' =>
      simp only [wake, hp, Option.ite_none_right_eq_some, Option.some.injEq] at hw'
      obtain ⟨-, rfl⟩ := hw'
      rfl
  | aborted =>
    obtain ⟨t'', hs, heq⟩ := Option.map_eq_some_iff.mp h
    cases heq
    obtain ⟨c, -, hacts⟩ := controlStep_acts hs
    cases hacts
    rfl

end Tunnel

end DeviceRelay
