import DeviceRelay.Tunnel.Step

/-!
# What the steps of a tunnel can do

Each kind of step is told once by all that it can do to the tunnel, and what is proved about runs
of a tunnel is proved from that.

* `Tunnel.takeTransport_of_none`, `takeTransport_of_some`: taking the transport out.
* `Tunnel.WorkerActs`, `Tunnel.workerStep_acts`: the worker, by where it is.
* `Tunnel.WorkerMoved`, `Tunnel.workerStep_cases`: what it does to the transport.
* `Tunnel.Called`, `Tunnel.CallMoved`: the first step of a call of the owner.
* `Tunnel.ControlActs`, `Tunnel.ControlMoved`: the later steps of a call.
* `Tunnel.Sent`: sends, which reach no further than the queue of the client.
* `Tunnel.networkStep_cases`: the network.
* `Tunnel.Moved`, `Tunnel.step_cases`: every event.
-/

namespace DeviceRelay

/-- No transport is installed for the worker in this phase: none is yet, or it was taken out. -/
def WorkerPhase.isIdle : WorkerPhase → Bool
  | .starting | .pausing _ | .queueing _ | .installing _ _ | .resting _ _ _ | .finished => true
  | .connecting _ _ _ | .holding _ _ _ | .tearing _ _ | .stopping _ _ _ => false

/-- A transport that is being stopped. -/
def Transport.stop (tr : Transport) (now : Duration) : Stopping where
  transport := { tr with client := tr.client.startDisconnect.2 }
  awaited := tr.client.startDisconnect.1
  since := now

namespace Tunnel

/-! ## The transport -/

section Transport

variable {t : Tunnel}

theorem takeTransport_of_none (h : t.transport = none) (now : Duration) :
    t.takeTransport now =
      (none, { t with generation := t.generation + 1 }.setState .disconnected) := by
  unfold takeTransport
  simp only [h]

theorem takeTransport_of_some {tr : Transport} (h : t.transport = some tr) (now : Duration) :
    t.takeTransport now =
      (some (tr.stop now), { t with generation := t.generation + 1, transport := none }) := by
  unfold takeTransport
  simp only [h]
  rfl

/-- A transport that is installed is a new client of a new generation. -/
theorem install_cases (t : Tunnel) (a : Attempt) :
    (∃ client, OutboundClient.new.begin (t.clientConfig a) = .ok client ∧
      t.install a = ({ { t with generation := t.generation + 1 }.setState .dialing with
        transport := some ⟨t.generation + 1, client⟩ }, true)) ∨
    t.install a = ({ t with generation := t.generation + 1 }.setState .dialing, false) := by
  unfold install
  dsimp only
  cases hb : OutboundClient.new.begin
      (({ t with generation := t.generation + 1 }.setState .dialing).clientConfig a) with
  | ok client => exact .inl ⟨client, hb, rfl⟩
  | error e => exact .inr rfl

end Transport

/-! ## The worker -/

/-- The worker goes from one wait to another without the transport lock. Where no transport is
installed for it then, none was before. -/
structure Waits (w w' : Worker) : Prop where
  idle : w'.phase.isIdle = true → w.phase.isIdle = true
  free : w.phase.holdsLock = false
  free' : w'.phase.holdsLock = false

/-- What a step of the worker can do to the tunnel. -/
inductive WorkerMoved (t : Tunnel) (w : Worker) (now : Duration) : Tunnel → Prop where
  | waits (w' : Worker) (hw : Waits w w') : WorkerMoved t w now { t with worker := some w' }
  | dials (a : Attempt) (permit : Bool) (hp : w.phase = .installing a permit) :
      WorkerMoved t w now { (t.install a).1 with
        worker := some { w with phase :=
          if (t.install a).2 then .connecting a permit now else .tearing a .zero } }
  /-- It takes the transport out. -/
  | takes (a : Attempt) (held : Duration) (tr : Transport) (hp : w.phase = .tearing a held)
      (htr : t.transport = some tr) :
      WorkerMoved t w now { t with
        generation := t.generation + 1
        transport := none
        worker := some { w with phase := .stopping a held (tr.stop now) } }
  /-- It finds no transport to take out. -/
  | finds (a : Attempt) (held : Duration) (hp : w.phase = .tearing a held)
      (htr : t.transport = none) :
      WorkerMoved t w now { { t with generation := t.generation + 1 }.setState .disconnected with
        worker := some (afterAttempt w a now held) }
  /-- The client that it took out has stopped, or is given up. -/
  | stops (a : Attempt) (held : Duration) (s : Stopping) (hp : w.phase = .stopping a held s) :
      WorkerMoved t w now
        { t.finishStopping with worker := some (afterAttempt w a now held) }

theorem isIdle_look (t : Tunnel) (w : Worker) (now : Duration) :
    (look t w now).phase.isIdle = true ∧ (look t w now).phase.holdsLock = false := by
  unfold look
  split
  · exact ⟨rfl, rfl⟩
  · dsimp only
    split
    · exact ⟨rfl, rfl⟩
    · split <;> exact ⟨rfl, rfl⟩

theorem waits_of_noticeStop {w w' : Worker} {now : Duration}
    (h : noticeStop w now = some w') : Waits w w' := by
  unfold noticeStop at h
  cases hp : w.phase <;> simp only [hp, reduceCtorEq, Option.some.injEq] at h <;> subst h <;>
    exact ⟨by simp [hp, WorkerPhase.isIdle], by simp [hp, WorkerPhase.holdsLock], rfl⟩

theorem waits_of_wake {t : Tunnel} {w w' : Worker} {now : Duration} (h : wake t w now = some w') :
    Waits w w' := by
  unfold wake at h
  cases hp : w.phase with
  | pausing wakeAt =>
    simp only [hp, Option.ite_none_right_eq_some, Option.some.injEq] at h
    obtain ⟨-, rfl⟩ := h
    exact ⟨fun _ => by rw [hp]; rfl, by rw [hp]; rfl, rfl⟩
  | resting a since delay =>
    simp only [hp, Option.ite_none_right_eq_some, Option.some.injEq] at h
    obtain ⟨-, rfl⟩ := h
    exact ⟨fun _ => by rw [hp]; rfl, by rw [hp]; rfl, rfl⟩
  | connecting a permit since =>
    simp only [hp, Option.ite_none_right_eq_some, Option.some.injEq] at h
    obtain ⟨-, rfl⟩ := h
    exact ⟨nofun, by rw [hp]; rfl, rfl⟩
  | holding a since pollAt =>
    simp only [hp] at h
    split at h
    · cases h
    · split at h <;> cases h <;> exact ⟨nofun, by rw [hp]; rfl, rfl⟩
  | _ => simp [hp] at h

theorem isIdle_afterAttempt (w : Worker) (a : Attempt) (now held : Duration) :
    (afterAttempt w a now held).phase.isIdle = true := by
  unfold afterAttempt
  split <;> rfl

/-- A step of the worker, by where the worker is. -/
inductive WorkerActs (t : Tunnel) (w : Worker) (now : Duration) : WorkerStep → Tunnel → Prop where
  | looks (hp : w.phase = .starting) :
      WorkerActs t w now .look { t with worker := some (look t w now) }
  | notices (w' : Worker) (hs : w.stopRequested = true) (h : noticeStop w now = some w') :
      WorkerActs t w now .stopped { t with worker := some w' }
  | wakes (w' : Worker) (h : wake t w now = some w') :
      WorkerActs t w now .woken { t with worker := some w' }
  | passes (a : Attempt) (permit : Bool) (hp : w.phase = .queueing a) :
      WorkerActs t w now (.passed permit)
        { t with worker := some { w with phase := .installing a permit } }
  | installs (a : Attempt) (permit : Bool) (hp : w.phase = .installing a permit)
      (hfree : t.isLocked = false) :
      WorkerActs t w now .locked { (t.install a).1 with
        worker := some { w with phase :=
          if (t.install a).2 then .connecting a permit now else .tearing a .zero } }
  | tears (a : Attempt) (held : Duration) (hp : w.phase = .tearing a held)
      (hfree : t.isLocked = false) : WorkerActs t w now .locked (t.tear w a now held)
  | connects (a : Attempt) (permit : Bool) (since : Duration)
      (hp : w.phase = .connecting a permit since) (hup : t.isConnected = true) :
      WorkerActs t w now .sawConnected
        { t with worker := some { w with phase := .holding a now now } }
  | releases (a : Attempt) (since : Duration) (hp : w.phase = .connecting a true since)
      (hdue : since.add dialHold ≤ now) :
      WorkerActs t w now .releasedPermit
        { t with worker := some { w with phase := .connecting a false since } }
  | joins (a : Attempt) (held : Duration) (s : Stopping) (hp : w.phase = .stopping a held s)
      (hover : Stopping.isOver s = true) :
      WorkerActs t w now .joined
        { t.finishStopping with worker := some (afterAttempt w a now held) }
  | givesUp (a : Attempt) (held : Duration) (s : Stopping) (hp : w.phase = .stopping a held s)
      (hdue : Stopping.isOverdue s now = true) :
      WorkerActs t w now .gaveUp
        { t.finishStopping with worker := some (afterAttempt w a now held) }

theorem workerStep_acts {t t' : Tunnel} {now : Duration} {s : WorkerStep}
    (h : t.workerStep now s = some t') : ∃ w, t.worker = some w ∧ WorkerActs t w now s t' := by
  unfold workerStep at h
  cases hw : t.worker with
  | none => simp [hw] at h
  | some w =>
    refine ⟨w, rfl, ?_⟩
    simp only [hw, Option.bind_eq_bind, Option.bind_some] at h
    split at h
    case h_1 hp =>
      cases h
      exact .looks hp
    case h_2 =>
      simp only [Option.ite_none_right_eq_some, Option.map_eq_some_iff] at h
      obtain ⟨hs, w', hw', rfl⟩ := h
      exact .notices w' hs hw'
    case h_3 =>
      obtain ⟨w', hw', rfl⟩ := Option.map_eq_some_iff.mp h
      exact .wakes w' hw'
    case h_4 a hp =>
      cases h
      exact .passes a _ hp
    case h_5 a permit hp =>
      simp only [Option.ite_none_left_eq_some, Option.some.injEq] at h
      obtain ⟨hfree, rfl⟩ := h
      exact .installs a permit hp (by simpa using hfree)
    case h_6 a held hp =>
      simp only [Option.ite_none_left_eq_some, Option.some.injEq] at h
      obtain ⟨hfree, rfl⟩ := h
      exact .tears a held hp (by simpa using hfree)
    case h_7 a permit since hp =>
      simp only [Option.ite_none_right_eq_some, Option.some.injEq] at h
      obtain ⟨hup, rfl⟩ := h
      exact .connects a permit since hp hup
    case h_8 a since hp =>
      simp only [Option.ite_none_right_eq_some, Option.some.injEq] at h
      obtain ⟨hdue, rfl⟩ := h
      exact .releases a since hp hdue
    case h_9 a held s hp =>
      simp only [Option.ite_none_right_eq_some, Option.some.injEq] at h
      obtain ⟨hover, rfl⟩ := h
      exact .joins a held s hp hover
    case h_10 a held s hp =>
      simp only [Option.ite_none_right_eq_some, Option.some.injEq] at h
      obtain ⟨hdue, rfl⟩ := h
      exact .givesUp a held s hp hdue
    case h_11 => cases h

/-- **All that the worker can do.** -/
theorem workerStep_cases {t t' : Tunnel} {now : Duration} {s : WorkerStep}
    (h : t.workerStep now s = some t') : ∃ w, t.worker = some w ∧ WorkerMoved t w now t' := by
  obtain ⟨w, hw, hacts⟩ := workerStep_acts h
  refine ⟨w, hw, ?_⟩
  cases hacts with
  | looks hp =>
    obtain ⟨-, hfree⟩ := isIdle_look t w now
    exact .waits _ ⟨fun _ => by rw [hp]; rfl, by rw [hp]; rfl, hfree⟩
  | notices w' _ hw' => exact .waits w' (waits_of_noticeStop hw')
  | wakes w' hw' => exact .waits w' (waits_of_wake hw')
  | passes a permit hp => exact .waits _ ⟨fun _ => by rw [hp]; rfl, by rw [hp]; rfl, rfl⟩
  | installs a permit hp => exact .dials a permit hp
  | tears a held hp =>
    unfold tear
    cases htr : t.transport with
    | none =>
      rw [takeTransport_of_none htr]
      exact .finds a held hp htr
    | some tr =>
      rw [takeTransport_of_some htr]
      exact .takes a held tr hp htr
  | connects _ _ _ hp | releases _ _ hp => exact .waits _ ⟨nofun, by rw [hp]; rfl, rfl⟩
  | joins a held s hp | givesUp a held s hp => exact .stops a held s hp

/-! ## Calls of the owner -/

end Tunnel

namespace TunnelEvent

/-- The first step of a call of the owner. -/
def isCall : TunnelEvent → Bool
  | .configure _ _ _ _ | .setTiming _ _ _ | .setEnabled _ => true
  | .control _ | .worker _ | .network _ _ _ | .send _ _ | .sending _ _ => false

/-- What an event makes of the configuration of a tunnel. -/
def configured (e : TunnelEvent) (c : TunnelConfig) : TunnelConfig :=
  match e with
  | .configure baseUrl deviceId authToken tunnelKey =>
    { c with
      baseUrl := baseUrl
      deviceId := deviceId
      authToken := authToken
      tunnelKey := tunnelKey }
  | .setTiming autoReconnect reconnectDelay pingInterval =>
    { c with
      autoReconnect := autoReconnect
      reconnectDelay := reconnectDelay
      pingInterval := pingInterval }
  | _ => c

/-- Whether a tunnel is enabled after an event. -/
def enables (e : TunnelEvent) (enabled : Bool) : Bool :=
  match e with
  | .setEnabled on => on
  | _ => enabled

end TunnelEvent

namespace Tunnel

/-- What the first step of a call that leaves these settings can do to the tunnel. Only a tunnel
that is enabled then gets a worker, now or at the end of the call. -/
inductive CallMoved (t : Tunnel) (now : Duration) (config : TunnelConfig) (enabled : Bool) :
    Tunnel → Prop where
  | sets : CallMoved t now config enabled { t with config := config, enabled := enabled }
  | spawns (hc : t.control = none) (hon : enabled = true) :
      CallMoved t now config enabled { t with config := config, enabled := enabled }.spawnWorker
  | stops (restarts : Bool) (hc : t.control = none) (hr : restarts = enabled) :
      CallMoved t now config enabled
        ({ t with config := config, enabled := enabled }.startStopping restarts now)

/-- Configurations that differ in nothing that is dialed with agree once the four texts are put
in. -/
theorem configured_of_not_dialDiffers {c : TunnelConfig} {baseUrl deviceId authToken key : String}
    (h : ¬c.dialDiffers ((TunnelEvent.configure baseUrl deviceId authToken key).configured c)) :
    (TunnelEvent.configure baseUrl deviceId authToken key).configured c = c := by
  obtain ⟨rfl, rfl, rfl, rfl⟩ :
      c.baseUrl = baseUrl ∧ c.deviceId = deviceId ∧ c.authToken = authToken ∧
        c.tunnelKey = key := by
    simpa [TunnelConfig.dialDiffers, TunnelEvent.configured, and_assoc] using h
  rfl

/-- The first step of a call, by what the call says, with what it lets others see. -/
inductive Called (t : Tunnel) (now : Duration) :
    TunnelEvent → Tunnel → List TunnelEffect → Prop where
  | times (autoReconnect : Bool) (reconnectDelay pingInterval : Duration) :
      Called t now (.setTiming autoReconnect reconnectDelay pingInterval)
        (t.setTiming autoReconnect reconnectDelay pingInterval) []
  /-- The four texts are those that are stored. -/
  | agrees {e : TunnelEvent} (baseUrl deviceId authToken tunnelKey : String)
      (he : e = .configure baseUrl deviceId authToken tunnelKey) (hc : t.control = none)
      (hsame : e.configured t.config = t.config) : Called t now e t [.configured false]
  /-- No worker is to take note of the four texts. -/
  | stores {e : TunnelEvent} (baseUrl deviceId authToken tunnelKey : String)
      (he : e = .configure baseUrl deviceId authToken tunnelKey) (hc : t.control = none)
      (hdiffers : t.config.dialDiffers (e.configured t.config) = true) (hoff : t.enabled = false) :
      Called t now e { t with config := e.configured t.config } [.configured true]
  | restarts {e : TunnelEvent} (baseUrl deviceId authToken tunnelKey : String)
      (he : e = .configure baseUrl deviceId authToken tunnelKey) (hc : t.control = none)
      (hdiffers : t.config.dialDiffers (e.configured t.config) = true) (hon : t.enabled = true) :
      Called t now e ({ t with config := e.configured t.config }.startStopping true now)
        [.configured true]
  | enables (hc : t.control = none) :
      Called t now (.setEnabled true) { t with enabled := true }.spawnWorker []
  | disables (hc : t.control = none) :
      Called t now (.setEnabled false) ({ t with enabled := false }.startStopping false now) []

theorem called_of_step {t t' : Tunnel} {now : Duration} {e : TunnelEvent}
    {seen : List TunnelEffect} (he : e.isCall = true) (h : t.step now e = some (t', seen)) :
    Called t now e t' seen := by
  cases e with
  | configure baseUrl deviceId authToken tunnelKey =>
    obtain ⟨⟨changed, t''⟩, hs, heq⟩ := Option.bind_eq_some_iff.mp h
    cases heq
    unfold configure at hs
    rw [Option.ite_none_left_eq_some] at hs
    obtain ⟨hc, hs⟩ := hs
    have hc : t.control = none := by simpa using hc
    dsimp only at hs
    split at hs
    case isFalse hsame =>
      cases hs
      exact .agrees _ _ _ _ rfl hc (configured_of_not_dialDiffers hsame)
    case isTrue hdiffers =>
      cases hs
      split
      case isTrue hon => exact .restarts _ _ _ _ rfl hc hdiffers hon
      case isFalse hoff => exact .stores _ _ _ _ rfl hc hdiffers (by simpa using hoff)
  | setTiming autoReconnect reconnectDelay pingInterval =>
    cases h
    exact .times ..
  | setEnabled on =>
    obtain ⟨t'', hs, heq⟩ := Option.map_eq_some_iff.mp h
    cases heq
    unfold setEnabled at hs
    rw [Option.ite_none_left_eq_some] at hs
    obtain ⟨hc, hs⟩ := hs
    have hc : t.control = none := by simpa using hc
    cases hs
    cases on with
    | true => exact .enables hc
    | false => exact .disables hc
  | control | worker | network | send | sending => cases he

theorem Called.moved {t t' : Tunnel} {now : Duration} {e : TunnelEvent}
    {seen : List TunnelEffect} (h : Called t now e t' seen) :
    CallMoved t now (e.configured t.config) (e.enables t.enabled) t' := by
  cases h with
  | times => exact .sets
  | agrees _ _ _ _ he _ hsame =>
    rw [hsame, he]
    exact .sets
  | stores _ _ _ _ he =>
    subst he
    exact .sets
  | restarts _ _ _ _ he hc _ hon =>
    subst he
    exact .stops true hc hon.symm
  | enables hc => exact .spawns hc rfl
  | disables hc => exact .stops false hc rfl

/-- A worker that has ended is replaced, and one that runs stays. -/
theorem spawnWorker_cases (t : Tunnel) :
    (∃ w, t.worker = some w ∧ t.spawnWorker = t) ∨
      ∃ w', w'.phase = .starting ∧ (∀ w, t.worker = some w → w.phase = .finished) ∧
        t.spawnWorker = { t with worker := some w' } := by
  unfold spawnWorker
  split
  case isTrue hrun =>
    obtain ⟨w, hw, -⟩ := (Option.any_eq_true ..).mp hrun
    exact .inl ⟨w, hw, rfl⟩
  case isFalse hrun =>
    refine .inr ⟨⟨.starting, .new (.tunnel t.config.reconnectDelay), false⟩, rfl, ?_, rfl⟩
    intro w hw
    simpa [hw] using hrun

/-- A call that stops the worker waits for it, where there is one. -/
theorem startStopping_cases (t : Tunnel) (restarts : Bool) (now : Duration) :
    (t.worker = none ∧
      t.startStopping restarts now = { t with control := some ⟨restarts, .tearing⟩ }) ∨
    ∃ w, t.worker = some w ∧ t.startStopping restarts now = { t with
      worker := some { w with stopRequested := true }
      control := some ⟨restarts, .joining now⟩ } := by
  unfold startStopping
  split
  case h_1 w hw => exact .inr ⟨w, hw, rfl⟩
  case h_2 hw => exact .inl ⟨hw, rfl⟩

/-- What a later step of a call can do to the tunnel. -/
inductive ControlMoved (t : Tunnel) (c : ControlTask) (now : Duration) : Tunnel → Prop where
  /-- The worker has ended. -/
  | joins (since : Duration) (hp : c.phase = .joining since) :
      ControlMoved t c now
        { t with worker := none, control := some { c with phase := .tearing } }
  | aborts (since : Duration) (hp : c.phase = .joining since) :
      ControlMoved t c now { t.abortWorker with control := some { c with phase := .tearing } }
  /-- It takes the transport out. -/
  | takes (tr : Transport) (hp : c.phase = .tearing) (htr : t.transport = some tr) :
      ControlMoved t c now { t with
        generation := t.generation + 1
        transport := none
        control := some { c with phase := .stopping (tr.stop now) } }
  /-- It finds no transport to take out. -/
  | finds (hp : c.phase = .tearing) (htr : t.transport = none) :
      ControlMoved t c now
        (({ t with generation := t.generation + 1 }.setState .disconnected).finishControl c)
  /-- The client that it took out has stopped, or is given up. -/
  | stops (s : Stopping) (hp : c.phase = .stopping s) :
      ControlMoved t c now (t.finishStopping.finishControl c)

/-- A later step of a call, by where the call is. -/
inductive ControlActs (t : Tunnel) (c : ControlTask) (now : Duration) :
    ControlStep → Tunnel → Prop where
  | joins (since : Duration) (hp : c.phase = .joining since)
      (hdone : ∀ w, t.worker = some w → w.phase = .finished) :
      ControlActs t c now .joined
        { t with worker := none, control := some { c with phase := .tearing } }
  | aborts (since : Duration) (hp : c.phase = .joining since)
      (hdue : since.add workerStopWait ≤ now) :
      ControlActs t c now .aborted
        { t.abortWorker with control := some { c with phase := .tearing } }
  | takes (tr : Transport) (hp : c.phase = .tearing) (hfree : t.isLocked = false)
      (htr : t.transport = some tr) :
      ControlActs t c now .locked { t with
        generation := t.generation + 1
        transport := none
        control := some { c with phase := .stopping (tr.stop now) } }
  | finds (hp : c.phase = .tearing) (hfree : t.isLocked = false) (htr : t.transport = none) :
      ControlActs t c now .locked
        (({ t with generation := t.generation + 1 }.setState .disconnected).finishControl c)
  | ends (s : Stopping) (hp : c.phase = .stopping s) (hover : Stopping.isOver s = true) :
      ControlActs t c now .clientJoined (t.finishStopping.finishControl c)
  | givesUp (s : Stopping) (hp : c.phase = .stopping s) (hdue : Stopping.isOverdue s now = true) :
      ControlActs t c now .gaveUp (t.finishStopping.finishControl c)

theorem controlStep_acts {t t' : Tunnel} {now : Duration} {s : ControlStep}
    (h : t.controlStep now s = some t') : ∃ c, t.control = some c ∧ ControlActs t c now s t' := by
  unfold controlStep at h
  cases hc : t.control with
  | none => simp [hc] at h
  | some c =>
    refine ⟨c, rfl, ?_⟩
    simp only [hc, Option.bind_eq_bind, Option.bind_some] at h
    split at h
    case h_1 since hp =>
      simp only [Option.ite_none_left_eq_some, Option.some.injEq] at h
      obtain ⟨hdone, rfl⟩ := h
      exact .joins since hp fun w hw => by simpa [hw] using hdone
    case h_2 since hp =>
      simp only [Option.ite_none_right_eq_some, Option.some.injEq] at h
      obtain ⟨hdue, rfl⟩ := h
      exact .aborts since hp hdue
    case h_3 hp =>
      rw [Option.ite_none_left_eq_some] at h
      obtain ⟨hfree, h⟩ := h
      have hfree : t.isLocked = false := by simpa using hfree
      cases htr : t.transport with
      | none =>
        rw [takeTransport_of_none htr] at h
        cases h
        exact .finds hp hfree htr
      | some tr =>
        rw [takeTransport_of_some htr] at h
        cases h
        exact .takes tr hp hfree htr
    case h_4 s hp =>
      simp only [Option.ite_none_right_eq_some, Option.some.injEq] at h
      obtain ⟨hover, rfl⟩ := h
      exact .ends s hp hover
    case h_5 s hp =>
      simp only [Option.ite_none_right_eq_some, Option.some.injEq] at h
      obtain ⟨hdue, rfl⟩ := h
      exact .givesUp s hp hdue
    case h_6 => cases h

/-- **All that a call can do after its first step.** -/
theorem controlStep_cases {t t' : Tunnel} {now : Duration} {s : ControlStep}
    (h : t.controlStep now s = some t') : ∃ c, t.control = some c ∧ ControlMoved t c now t' := by
  obtain ⟨c, hc, hacts⟩ := controlStep_acts h
  refine ⟨c, hc, ?_⟩
  cases hacts with
  | joins since hp _ => exact .joins since hp
  | aborts since hp _ => exact .aborts since hp
  | takes tr hp _ htr => exact .takes tr hp htr
  | finds hp _ htr => exact .finds hp htr
  | ends s hp _ | givesUp s hp _ => exact .stops s hp

/-! ## Sends -/

/-- What a send can do to the tunnel: it reaches no further than the queue of the client. -/
inductive Sent (t : Tunnel) : Tunnel → Prop where
  | mk (sends : List PendingSend)
      (queue : Option (BoundedQueue Message) → Option (BoundedQueue Message)) :
      Sent t { t with
        sends := sends
        transport := t.transport.map fun tr =>
          { tr with client := { tr.client with outbox := queue tr.client.outbox } } }

theorem Sent.of_sends (t : Tunnel) (sends : List PendingSend) :
    Sent t { t with sends := sends } := by
  have h := Sent.mk (t := t) sends id
  simpa using h

theorem Sent.sends {t t' : Tunnel} (h : Sent t t') (sends : List PendingSend) :
    Sent t { t' with sends := sends } := by
  obtain ⟨_, queue⟩ := h
  exact .mk sends queue

theorem submit_snd (c : OutboundClient) (length : Nat) (m : Message) :
    ∃ queue : Option (BoundedQueue Message), (c.submit length m).2 = { c with outbox := queue } := by
  unfold OutboundClient.submit
  split
  · exact ⟨c.outbox, rfl⟩
  · split
    · exact ⟨c.outbox, rfl⟩
    · split
      · exact ⟨c.outbox, rfl⟩
      · exact ⟨_, rfl⟩

theorem sent_offer (t : Tunnel) (f : Frame) : Sent t (t.offer f).2 := by
  unfold offer
  cases htr : t.transport with
  | none =>
    have h := Sent.of_sends t t.sends
    exact h
  | some tr =>
    obtain ⟨queue, hq⟩ := submit_snd tr.client f.length (.data f)
    have h := Sent.mk (t := t) t.sends fun _ => queue
    dsimp only
    rw [hq]
    simpa [htr] using h

theorem sent_offerPending (t : Tunnel) (s : PendingSend) (giveUpAt : Duration) :
    Sent t (t.offerPending s giveUpAt).2 := by
  have h := sent_offer t s.frame
  unfold offerPending
  generalize t.offer s.frame = offered at h ⊢
  obtain ⟨r, t'⟩ := offered
  split <;> rename_i heq _ <;> cases heq <;> exact h.sends _

/-- **All that the start of a send can do**, whether it is refused or waits. -/
theorem startSend_sent {t t' : Tunnel} {ticket : Nat} {f : Frame} {now : Duration}
    {seen : List TunnelEffect}
    (h : (match t.startSend ticket f now with
      | .ok t => some (t, [])
      | .error e => some (t, [.sent ticket (.error e)])) = some (t', seen)) : Sent t t' := by
  unfold startSend at h
  cases hs : t.checkSendable f.length with
  | error e =>
    simp only [hs] at h
    cases h
    exact .of_sends t t.sends
  | ok _ =>
    simp only [hs] at h
    cases h
    exact .of_sends t _

/-- **All that a send can do after its start.** -/
theorem sendStep_sent {t t' : Tunnel} {ticket : Nat} {now : Duration} {s : SendStep}
    {result : SendResult} (h : t.sendStep ticket now s = some (result, t')) : Sent t t' := by
  unfold sendStep at h
  cases hs : t.sends.find? fun s => s.ticket = ticket with
  | none => simp [hs] at h
  | some p =>
    simp only [hs, Option.bind_eq_bind, Option.bind_some] at h
    have offered {giveUpAt : Duration} (ho : t.offerPending p giveUpAt = (result, t')) :
        Sent t t' := by
      have hsent := sent_offerPending t p giveUpAt
      rwa [ho] at hsent
    split at h
    case h_1 =>
      simp only [Option.ite_none_left_eq_some, Option.some.injEq] at h
      exact offered h.2
    case h_2 =>
      simp only [Option.ite_none_right_eq_some, Option.some.injEq, Prod.mk.injEq] at h
      obtain ⟨-, -, rfl⟩ := h
      exact .of_sends t _
    case h_3 =>
      split at h
      · cases h
        exact .of_sends t _
      · exact offered (Option.some.inj h)
    case h_4 =>
      simp only [Option.ite_none_right_eq_some, Option.some.injEq, Prod.mk.injEq] at h
      obtain ⟨-, -, rfl⟩ := h
      exact .of_sends t _
    case h_5 => cases h

/-! ## The network -/

/-- **All that the network can do**: one step of a client that may still run, and what the events
of that step do to the tunnel. -/
theorem networkStep_cases {t t' : Tunnel} {generation task : Nat} {now : Duration}
    {s : OutboundClient.NetworkStep} {frames : List Frame}
    (h : t.networkStep generation task now s = some (frames, t')) :
    ∃ tr client events, t.transports.find? (fun tr => tr.generation = generation) = some tr ∧
      tr.client.taskStep task now s = some (client, events) ∧
      (t.putTransport { tr with client := client }).onClientEvents generation now events =
        (frames, t') := by
  obtain ⟨tr, htr, h⟩ := Option.bind_eq_some_iff.mp h
  obtain ⟨⟨client, events⟩, hstep, h⟩ := Option.bind_eq_some_iff.mp h
  exact ⟨tr, client, events, htr, hstep, Option.some.inj h⟩

/-! ## Every step -/

/-- What an event can do to the tunnel. -/
inductive Moved (t : Tunnel) (now : Duration) : TunnelEvent → Tunnel → Prop where
  | call {e : TunnelEvent} {t' : Tunnel} (he : e.isCall = true)
      (h : CallMoved t now (e.configured t.config) (e.enables t.enabled) t') : Moved t now e t'
  | control {s : ControlStep} {t' : Tunnel} (c : ControlTask) (hc : t.control = some c)
      (h : ControlMoved t c now t') : Moved t now (.control s) t'
  | worker {s : WorkerStep} {t' : Tunnel} (w : Worker) (hw : t.worker = some w)
      (h : WorkerMoved t w now t') : Moved t now (.worker s) t'
  | network {generation task : Nat} {s : OutboundClient.NetworkStep} {t' : Tunnel}
      {frames : List Frame} (h : t.networkStep generation task now s = some (frames, t')) :
      Moved t now (.network generation task s) t'
  | send {ticket : Nat} {f : Frame} {t' : Tunnel} (h : Sent t t') : Moved t now (.send ticket f) t'
  | sending {ticket : Nat} {s : SendStep} {t' : Tunnel} (h : Sent t t') :
      Moved t now (.sending ticket s) t'

/-- **All that an event can do.** A step of the network is that of a client, with what its events
do. -/
theorem step_cases {t t' : Tunnel} {now : Duration} {e : TunnelEvent} {seen : List TunnelEffect}
    (h : t.step now e = some (t', seen)) : Moved t now e t' := by
  cases e with
  | configure | setTiming | setEnabled => exact .call rfl (called_of_step rfl h).moved
  | control s =>
    obtain ⟨t'', hs, heq⟩ := Option.map_eq_some_iff.mp h
    cases heq
    obtain ⟨c, hc, hmoved⟩ := controlStep_cases hs
    exact .control c hc hmoved
  | worker s =>
    obtain ⟨t'', hs, heq⟩ := Option.map_eq_some_iff.mp h
    cases heq
    obtain ⟨w, hw, hmoved⟩ := workerStep_cases hs
    exact .worker w hw hmoved
  | network generation task s =>
    obtain ⟨⟨frames, t''⟩, hs, heq⟩ := Option.bind_eq_some_iff.mp h
    cases heq
    exact .network hs
  | send ticket f =>
    simp only [step, Option.ite_none_left_eq_some] at h
    obtain ⟨-, h⟩ := h
    exact .send (startSend_sent h)
  | sending ticket s =>
    obtain ⟨⟨result, t''⟩, hs, heq⟩ := Option.bind_eq_some_iff.mp h
    cases heq
    exact .sending (sendStep_sent hs)

end Tunnel

end DeviceRelay
