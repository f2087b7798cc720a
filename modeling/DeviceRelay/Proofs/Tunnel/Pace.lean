import DeviceRelay.Proofs.Backoff
import DeviceRelay.Proofs.Tunnel.Moves
import DeviceRelay.Proofs.Tunnel.Settings

/-!
# The pace of a worker

From the gate to the end of its client a worker is about one attempt; between attempts it rests.
Only its own steps take it on. Everything else leaves it where it is, asks it to stop, takes it out
of the slot, or puts a new worker there. A worker that was not asked to stop works for an enabled
tunnel with no call under way, so what its tunnel dials with stays as it is.

* `Stage`, `Pace`: where a worker is, with what its waits depend on.
* `Pace.Goes`, `Tunnel.workerStep_goes`: all that a step of the worker does to its pace.
* `Tunnel.Steady`: whom a worker that was not asked to stop works for.
* `Tunnel.Drives`, `Watched.Sound.drives`: all that a move does to the pace of the worker.
-/

namespace DeviceRelay

/-- A configuration that is complete, so that a worker dials with it. -/
structure TunnelConfig.CanDial (c : TunnelConfig) : Prop where
  ready : c.isReady = true
  url : ∃ url, dialUrl c = .ok url

/-- What a worker is about. -/
inductive Stage where
  /-- Looking at the configuration. -/
  | starting
  /-- Leaving an incomplete configuration alone. -/
  | pausing
  /-- From the gate to the end of the client. -/
  | trying (a : Attempt)
  /-- Waiting after an attempt. -/
  | resting (since delay : Duration)
  | finished
  deriving DecidableEq, Repr

def WorkerPhase.stage : WorkerPhase → Stage
  | .starting => .starting
  | .pausing _ => .pausing
  | .queueing a | .installing a _ | .connecting a _ _ | .holding a _ _ | .tearing a _
  | .stopping a _ _ => .trying a
  | .resting _ since delay => .resting since delay
  | .finished => .finished

/-- Where a worker is, and what its waits depend on. -/
structure Pace where
  stage : Stage
  backoff : Backoff
  stopRequested : Bool
  deriving DecidableEq, Repr

def Worker.pace (w : Worker) : Pace := ⟨w.phase.stage, w.backoff, w.stopRequested⟩

/-- The history of delays under a base. It starts over where the base is another. -/
def Backoff.rebased (b : Backoff) (base : Duration) : Backoff :=
  if b.policy.base ≠ base then .new (.tunnel base) else b

namespace Pace

/-- The worker has not ended and was not asked to. -/
structure Going (p : Pace) : Prop where
  alive : p.stage ≠ .finished
  free : p.stopRequested = false

/-- What a step of the worker does to its pace, under the configuration of its tunnel. -/
inductive Goes (config : TunnelConfig) (now : Duration) (p : Pace) : Pace → Prop where
  | ends : Goes config now p { p with stage := .finished }
  | pauses (hp : p.stage = .starting) (hfree : p.stopRequested = false) (hc : ¬config.CanDial) :
      Goes config now p
        { p with stage := .pausing, backoff := p.backoff.rebased config.reconnectDelay }
  | dials (a : Attempt) (hp : p.stage = .starting) (ha : a.config = config) (hc : config.CanDial) :
      Goes config now p
        { p with stage := .trying a, backoff := p.backoff.rebased config.reconnectDelay }
  | tries (a : Attempt) (hp : p.stage = .trying a) : Goes config now p p
  | rests (a : Attempt) (held : Duration) (hp : p.stage = .trying a) :
      Goes config now p { p with
        stage := .resting now
          ((p.backoff.onSessionEnd held).1.getD (p.backoff.onSessionEnd held).2.policy.ceiling)
        backoff := (p.backoff.onSessionEnd held).2 }
  | returns (hp : p.stage = .pausing) : Goes config now p { p with stage := .starting }
  | wakes (since delay : Duration) (hp : p.stage = .resting since delay)
      (hdue : since.add delay ≤ now) : Goes config now p { p with stage := .starting }

variable {config : TunnelConfig} {now : Duration} {p p' : Pace}

theorem Goes.going (h : Goes config now p p') (hgo : p'.Going) : p.Going := by
  cases h with
  | ends => exact absurd rfl hgo.alive
  | tries => exact hgo
  | pauses hp | dials _ hp | rests _ _ hp | returns hp | wakes _ _ hp =>
    exact ⟨by rw [hp]; nofun, hgo.free⟩

end Pace

namespace Tunnel

variable {t t' : Tunnel} {now : Duration}

/-- The pace of the worker in the slot. -/
def pace (t : Tunnel) : Option Pace := t.worker.map Worker.pace

/-! ## The worker -/

theorem goes_look (t : Tunnel) {w : Worker} (now : Duration) (hp : w.phase = .starting) :
    w.pace.Goes t.config now (look t w now).pace := by
  have hstage : w.pace.stage = .starting := by rw [Worker.pace, hp]; rfl
  unfold look
  split
  case isTrue => exact .ends
  case isFalse hstop =>
    have hfree : w.pace.stopRequested = false := by
      rw [Bool.or_eq_true, not_or, Bool.not_eq_true] at hstop
      exact hstop.1
    dsimp only
    have hrebased : (if w.backoff.policy.base ≠ t.config.reconnectDelay then
        { w with backoff := .new (.tunnel t.config.reconnectDelay) } else w) =
        { w with backoff := w.backoff.rebased t.config.reconnectDelay } := by
      unfold Backoff.rebased
      split <;> rfl
    rw [hrebased]
    split
    case isTrue hready =>
      exact .pauses hstage hfree fun hc => by simp [hc.ready] at hready
    case isFalse hready =>
      have hready : t.config.isReady = true := by simpa using hready
      cases hurl : dialUrl t.config with
      | ok url => exact .dials ⟨t.config, url⟩ hstage rfl ⟨hready, url, hurl⟩
      | error e =>
        refine .pauses hstage hfree fun hc => ?_
        obtain ⟨url, hok⟩ := hc.url
        rw [hurl] at hok
        cases hok

theorem goes_afterAttempt {w : Worker} {a : Attempt} (now held : Duration)
    (hp : w.phase.stage = .trying a) (config : TunnelConfig) :
    w.pace.Goes config now (afterAttempt w a now held).pace := by
  unfold afterAttempt
  split
  · exact .ends
  · exact .rests a held hp

/-- A worker that goes on with its attempt. -/
theorem goes_of_trying {w w' : Worker} {a : Attempt} (config : TunnelConfig)
    (hp : w.phase.stage = .trying a) (hp' : w'.phase.stage = .trying a)
    (hb : w'.backoff = w.backoff) (hs : w'.stopRequested = w.stopRequested) :
    w.pace.Goes config now w'.pace := by
  have hsame : w'.pace = w.pace := by rw [Worker.pace, Worker.pace, hp, hp', hb, hs]
  rw [hsame]
  exact .tries a hp

theorem goes_noticeStop {w w' : Worker} (config : TunnelConfig) (h : noticeStop w now = some w') :
    w.pace.Goes config now w'.pace := by
  unfold noticeStop at h
  cases hp : w.phase with
  | pausing | resting =>
    rw [hp] at h
    cases h
    exact .ends
  | queueing a | connecting a | holding a =>
    rw [hp] at h
    cases h
    exact goes_of_trying config (by rw [hp]; rfl) rfl rfl rfl
  | starting | installing | tearing | stopping | finished =>
    rw [hp] at h
    cases h

theorem goes_wake {w w' : Worker} (h : wake t w now = some w') :
    w.pace.Goes t.config now w'.pace := by
  unfold wake at h
  cases hp : w.phase with
  | pausing wakeAt =>
    simp only [hp, Option.ite_none_right_eq_some, Option.some.injEq] at h
    obtain ⟨-, rfl⟩ := h
    exact .returns (by rw [Worker.pace, hp]; rfl)
  | resting a since delay =>
    simp only [hp, Option.ite_none_right_eq_some, Option.some.injEq] at h
    obtain ⟨hdue, rfl⟩ := h
    exact .wakes since delay (by rw [Worker.pace, hp]; rfl) hdue
  | connecting a permit since =>
    simp only [hp, Option.ite_none_right_eq_some, Option.some.injEq] at h
    obtain ⟨-, rfl⟩ := h
    exact goes_of_trying t.config (by rw [hp]; rfl) rfl rfl rfl
  | holding a since pollAt =>
    simp only [hp] at h
    split at h
    · cases h
    · split at h <;> cases h <;> exact goes_of_trying t.config (by rw [hp]; rfl) rfl rfl rfl
  | _ => simp [hp] at h

/-- **All that a step of the worker does to its pace.** -/
theorem workerStep_goes {s : WorkerStep} (h : t.workerStep now s = some t') :
    ∃ p p', t.pace = some p ∧ t'.pace = some p' ∧ p.Goes t.config now p' := by
  obtain ⟨w, hw, hacts⟩ := workerStep_acts h
  suffices ∃ w', t'.worker = some w' ∧ w.pace.Goes t.config now w'.pace by
    obtain ⟨w', hw', hgoes⟩ := this
    exact ⟨w.pace, w'.pace, by rw [pace, hw]; rfl, by rw [pace, hw']; rfl, hgoes⟩
  cases hacts with
  | looks hp => exact ⟨_, rfl, goes_look t now hp⟩
  | notices w' _ hw' => exact ⟨w', rfl, goes_noticeStop t.config hw'⟩
  | wakes w' hw' => exact ⟨w', rfl, goes_wake hw'⟩
  | installs a permit hp =>
    refine ⟨_, rfl, goes_of_trying t.config (a := a) (by rw [hp]; rfl) ?_ rfl rfl⟩
    dsimp only
    split <;> rfl
  | tears a held hp =>
    have hstage : w.phase.stage = .trying a := by rw [hp]; rfl
    unfold tear
    cases htr : t.transport with
    | none =>
      rw [takeTransport_of_none htr]
      exact ⟨_, rfl, goes_afterAttempt now held hstage t.config⟩
    | some tr =>
      rw [takeTransport_of_some htr]
      exact ⟨_, rfl, goes_of_trying t.config hstage rfl rfl rfl⟩
  | passes _ _ hp | connects _ _ _ hp | releases _ _ hp =>
    exact ⟨_, rfl, goes_of_trying t.config (by rw [hp]; rfl) rfl rfl rfl⟩
  | joins a held s hp | givesUp a held s hp =>
    exact ⟨_, rfl, goes_afterAttempt now held (by rw [hp]; rfl) t.config⟩

/-! ## Everything that happens -/

/-- An event that begins no call. -/
structure Mild (t t' : Tunnel) : Prop where
  enabled : t.enabled = true → t'.enabled = true
  quiet : t.control = none → t'.control = none
  restarts : t'.control.any (·.restarts) = true → t.control.any (·.restarts) = true

theorem Mild.of_eq (he : t'.enabled = t.enabled) (hc : t'.control = t.control) : Mild t t' :=
  ⟨fun h => he.trans h, fun h => hc.trans h, fun h => by rwa [hc] at h⟩

/-- A worker that was not asked to stop works for an enabled tunnel with no call under way, and a
call that starts a worker at its end is one of an enabled tunnel. -/
structure Steady (t : Tunnel) : Prop where
  going : ∀ p, t.pace = some p → p.Going → t.enabled = true ∧ t.control = none
  restarts : t.control.any (·.restarts) = true → t.enabled = true

theorem steady_new (label : String) (options : TunnelOptions) : (new label options).Steady where
  going _ h := by cases h
  restarts h := by cases h

/-- What an event does to the pace of the worker in the slot. -/
inductive Drives (t : Tunnel) (now : Duration) (t' : Tunnel) : Prop where
  /-- It is a step of the worker. -/
  | goes (p p' : Pace) (hp : t.pace = some p) (hp' : t'.pace = some p')
      (h : p.Goes t.config now p') (hconfig : t'.config = t.config) (hmild : Mild t t')
  /-- It leaves the worker where it is, and a worker that was not asked to stop keeps what is dialed
  with. -/
  | keeps (hp : t'.pace = t.pace) (hmild : Mild t t')
      (hconfig : ∀ p, t.pace = some p → p.Going → t.config.CanDial → t'.config.CanDial)
  /-- It begins a call that asks the worker to stop. -/
  | stops (hp : t'.pace = t.pace.map ({ · with stopRequested := true }))
      (hr : t'.control.any (·.restarts) = true → t'.enabled = true)
  /-- It takes the worker out of the slot. -/
  | leaves (hp : t'.pace = none) (hmild : Mild t t')
  /-- It puts a new worker there. -/
  | begins (base : Duration) (hold : ∀ p, t.pace = some p → p.stage = .finished)
      (hp' : t'.pace = some ⟨.starting, .new (.tunnel base), false⟩) (hon : t'.enabled = true)
      (hc : t'.control = none)

/-- **One step** of whatever kind. -/
theorem Steady.drives (h : t.Steady) (hdrives : Drives t now t') : t'.Steady := by
  cases hdrives with
  | goes p p' hp hp' hgoes hconfig hmild =>
    refine ⟨fun q hq hgo => ?_, fun hr => hmild.enabled (h.restarts (hmild.restarts hr))⟩
    cases hp'.symm.trans hq
    obtain ⟨hon, hc⟩ := h.going p hp (hgoes.going hgo)
    exact ⟨hmild.enabled hon, hmild.quiet hc⟩
  | keeps hp hmild hconfig =>
    refine ⟨fun q hq hgo => ?_, fun hr => hmild.enabled (h.restarts (hmild.restarts hr))⟩
    obtain ⟨hon, hc⟩ := h.going q (hp.symm.trans hq) hgo
    exact ⟨hmild.enabled hon, hmild.quiet hc⟩
  | stops hp hr =>
    refine ⟨fun q hq hgo => ?_, hr⟩
    obtain ⟨p, -, rfl⟩ := Option.map_eq_some_iff.mp (hp.symm.trans hq)
    cases hgo.free
  | leaves hp hmild =>
    refine ⟨fun q hq hgo => ?_, fun hr => hmild.enabled (h.restarts (hmild.restarts hr))⟩
    cases hp.symm.trans hq
  | begins base hold hp' hon hc => exact ⟨fun q hq hgo => ⟨hon, hc⟩, fun _ => hon⟩

theorem pace_startStopping (t : Tunnel) (restarts : Bool) (now : Duration) :
    (t.startStopping restarts now).pace = t.pace.map ({ · with stopRequested := true }) ∧
      (t.startStopping restarts now).enabled = t.enabled ∧
      (t.startStopping restarts now).control.any (·.restarts) = restarts := by
  obtain ⟨hw, heq⟩ | ⟨w, hw, heq⟩ := t.startStopping_cases restarts now <;> rw [heq]
  · simp [pace, hw]
  · simp [pace, hw, Worker.pace]

theorem drives_startStopping {u : Tunnel} {restarts : Bool} (hw : u.worker = t.worker)
    (hr : restarts = true → u.enabled = true) : Drives t now (u.startStopping restarts now) := by
  obtain ⟨hp, hon, hc⟩ := u.pace_startStopping restarts now
  have hpace : u.pace = t.pace := by rw [pace, hw, pace]
  exact .stops (by rw [hp, hpace]) fun h => hon.trans (hr (hc.symm.trans h))

/-- A worker is put into the slot of an enabled tunnel, unless one is at work. -/
theorem drives_spawnWorker {u : Tunnel} (hw : u.worker = t.worker) (hconfig : u.config = t.config)
    (hon : u.enabled = true) (hc : u.control = none) : Drives t now u.spawnWorker := by
  have hpace : u.pace = t.pace := by rw [pace, hw, pace]
  unfold spawnWorker
  split
  case isTrue =>
    refine .keeps hpace ⟨fun _ => hon, fun _ => hc, fun h => ?_⟩ fun p hp hgo h => hconfig ▸ h
    rw [hc] at h
    cases h
  case isFalse hdone =>
    refine .begins u.config.reconnectDelay (fun p hp => ?_) rfl hon hc
    obtain ⟨w, hsome, rfl⟩ := Option.map_eq_some_iff.mp (hpace.trans hp)
    have hphase : w.phase = .finished := by simpa [hsome] using hdone
    rw [Worker.pace, hphase]
    rfl

theorem Steady.drives_called (h : t.Steady) {e : TunnelEvent} {seen : List TunnelEffect}
    (hcalled : Called t now e t' seen) : Drives t now t' := by
  cases hcalled with
  | times autoReconnect reconnectDelay pingInterval =>
    exact .keeps rfl (.of_eq rfl rfl) fun p hp hgo hc => ⟨hc.ready, hc.url⟩
  | agrees => exact .keeps rfl (.of_eq rfl rfl) fun p hp hgo hc => hc
  | stores _ _ _ _ _ _ _ hoff =>
    -- the texts may be incomplete, but a tunnel that is not enabled has no worker to go on
    refine .keeps rfl (.of_eq rfl rfl) fun p hp hgo hc => ?_
    cases hoff.symm.trans (h.going p hp hgo).1
  | restarts _ _ _ _ _ _ _ hon => exact drives_startStopping rfl fun _ => hon
  | enables hc => exact drives_spawnWorker rfl rfl rfl hc
  | disables => exact drives_startStopping rfl nofun

/-- The end of a call of a tunnel that is as it was but for its transport. -/
theorem Steady.drives_finishControl (h : t.Steady) {c : ControlTask} (hc : t.control = some c)
    {u : Tunnel} (hw : u.worker = t.worker) (hconfig : u.config = t.config)
    (hon : u.enabled = t.enabled) : Drives t now (u.finishControl c) := by
  unfold finishControl
  dsimp only
  split
  case isTrue hr =>
    have henabled : t.enabled = true := h.restarts (by rw [hc]; exact hr)
    exact drives_spawnWorker hw hconfig (hon.trans henabled) rfl
  case isFalse =>
    refine .keeps (by rw [pace, hw, pace]) ⟨fun h => hon.trans h, fun _ => rfl, nofun⟩ ?_
    exact fun p hp hgo h => hconfig ▸ h

theorem Steady.drives_control (h : t.Steady) {c : ControlTask} (hc : t.control = some c)
    (hmoved : ControlMoved t c now t') : Drives t now t' := by
  have hmild : ∀ {u : Tunnel} {phase : ControlPhase}, u.enabled = t.enabled →
      u.control = some { c with phase := phase } → Mild t u := by
    intro u phase hon hu
    refine ⟨fun h => hon.trans h, fun hnone => ?_, fun hr => ?_⟩
    · cases hc.symm.trans hnone
    · rw [hu] at hr
      rw [hc]
      exact hr
  cases hmoved with
  | joins since hp => exact .leaves rfl (hmild rfl rfl)
  | aborts since hp => exact .leaves rfl (hmild rfl rfl)
  | takes tr hp htr => exact .keeps rfl (hmild rfl rfl) fun p hp hgo h => h
  | finds hp htr => exact h.drives_finishControl hc rfl rfl rfl
  | stops s hp => exact h.drives_finishControl hc rfl rfl rfl

theorem drives_worker {s : WorkerStep} {seen : List TunnelEffect}
    (h : t.step now (.worker s) = some (t', seen)) : Drives t now t' := by
  have hsettings := (step_cases h).settings
  obtain ⟨t'', hs, heq⟩ := Option.map_eq_some_iff.mp h
  cases heq
  obtain ⟨p, p', hp, hp', hgoes⟩ := workerStep_goes hs
  obtain ⟨w, hw, hmoved⟩ := workerStep_cases hs
  have hcontrol : t'.control = t.control := by
    cases hmoved with
    | dials a permit hp => exact (settings_install t a).2
    | waits | takes | finds | stops => rfl
  exact .goes p p' hp hp' hgoes (congrArg TunnelSettings.config hsettings)
    (.of_eq (congrArg TunnelSettings.enabled hsettings) hcontrol)

theorem drives_sent (h : Sent t t') : Drives t now t' := by
  cases h
  exact .keeps rfl (.of_eq rfl rfl) fun p hp hgo hc => hc

/-- Every event but a step of the network. -/
theorem Steady.drives_step (h : t.Steady) {e : TunnelEvent} {seen : List TunnelEffect}
    (he : ∀ generation task s, e ≠ .network generation task s)
    (hstep : t.step now e = some (t', seen)) : Drives t now t' := by
  cases e with
  | configure | setTiming | setEnabled => exact h.drives_called (called_of_step rfl hstep)
  | control s =>
    obtain ⟨t'', hs, heq⟩ := Option.map_eq_some_iff.mp hstep
    cases heq
    obtain ⟨c, hc, hmoved⟩ := controlStep_cases hs
    exact h.drives_control hc hmoved
  | worker s => exact drives_worker hstep
  | network => exact absurd rfl (he _ _ _)
  | send =>
    cases step_cases hstep with
    | call hcall _ => cases hcall
    | send hsent => exact drives_sent hsent
  | sending =>
    cases step_cases hstep with
    | call hcall _ => cases hcall
    | sending hsent => exact drives_sent hsent

/-- A client reaches no further than itself. -/
theorem pace_putTransport (t : Tunnel) (tr : Transport) : (t.putTransport tr).pace = t.pace := by
  unfold putTransport
  simp only [pace, Option.map_map]
  congr 1
  funext w
  cases hp : w.phase <;> simp [Worker.pace, WorkerPhase.stage, hp]

theorem mild_putTransport (t : Tunnel) (tr : Transport) : Mild t (t.putTransport tr) where
  enabled h := h
  quiet h := by rw [putTransport, h]; rfl
  restarts h := by
    cases hc : t.control with
    | none => rwa [putTransport, hc] at h
    | some c =>
      obtain ⟨restarts, phase⟩ := c
      rw [putTransport, hc] at h
      cases phase <;> exact h

end Tunnel

/-- When a move is made. -/
def Watched.Move.now : Watched.Move → Duration
  | .event now _ => now
  | .callback now _ => now

/-- **All that a move does to the pace of the worker.** -/
theorem Watched.Sound.drives {w : Watched} (h : w.Sound) (hsteady : w.tunnel.Steady)
    (m : Watched.Move) : Tunnel.Drives w.tunnel m.now (w.next m).tunnel := by
  have hchanged := h.changed m
  generalize (w.next m).tunnel = t at hchanged ⊢
  cases hchanged with
  | stays => exact .keeps rfl (.of_eq rfl rfl) fun p hp hgo hc => hc
  | @steps now e t seen he hstep => exact hsteady.drives_step he hstep
  | @client now generation task s tr client events hfind htask =>
    exact .keeps (Tunnel.pace_putTransport _ _) (Tunnel.mild_putTransport _ _)
      fun p hp hgo hc => hc
  | hears => exact .keeps rfl (.of_eq rfl rfl) fun p hp hgo hc => hc

end DeviceRelay
