import DeviceRelay.Proofs.Outbound.Session
import DeviceRelay.Proofs.Tunnel.Transports

/-!
# What becomes of a connection

Most steps of a tunnel leave its connection alone. The others dial, take the transport out, or find
that it is gone; each of them but the end of a wait begins a generation.

* `Tunnel.Turn`: what a step does to the connection.
* `Tunnel.Kept.turn`: every event but a step of the network does one of these things.
-/

namespace DeviceRelay.Tunnel

variable {t t' : Tunnel} {now : Duration} {e : TunnelEvent} {w : Worker} {c : ControlTask}

/-- What a step does to the connection: to the installed transport, to the state and to the flag of
the remote page. -/
inductive Turn (t t' : Tunnel) : Prop where
  /-- At most the queue of the client is another. -/
  | stays (queue : Option (BoundedQueue Message) → Option (BoundedQueue Message))
      (htr : t'.transport = t.transport.map fun tr =>
        { tr with client := { tr.client with outbox := queue tr.client.outbox } })
      (hg : t'.generation = t.generation) (hs : t'.state = t.state)
      (hu : t'.uiConnected = t.uiConnected) (hfree : t'.isStopping = true → t.isStopping = true)
  /-- A tunnel that was down dials, with a new client unless the client refuses. -/
  | dials (client : Option OutboundClient) (hclient : ∀ c ∈ client, c.OneShot .before)
      (hdown : t.IsDown) (htr : t'.transport = client.map fun c => ⟨t.generation + 1, c⟩)
      (hg : t'.generation = t.generation + 1) (hs : t'.state = .dialing)
      (hu : t'.uiConnected = t.uiConnected) (hfree : t'.isStopping = false)
  | takes (htr : t'.transport = none) (hg : t'.generation = t.generation + 1)
      (hs : t'.state = t.state) (hu : t'.uiConnected = t.uiConnected)
  /-- Nothing was left to take out, or the client that was taken out has stopped. -/
  | ends (hdown : t'.IsDown) (hu : t'.uiConnected = false)
      (hg : t'.generation = t.generation + 1 ∨
        t'.generation = t.generation ∧ t.isStopping = true)

/-- A step that leaves the transport alone. -/
theorem Turn.of_same (htr : t'.transport = t.transport) (hg : t'.generation = t.generation)
    (hs : t'.state = t.state) (hu : t'.uiConnected = t.uiConnected)
    (hfree : t'.isStopping = true → t.isStopping = true) : Turn t t' :=
  .stays id (by simpa using htr) hg hs hu hfree

theorem turn_spawnWorker (t : Tunnel) : Turn t t.spawnWorker := by
  obtain ⟨w, -, heq⟩ | ⟨w', hw', -, heq⟩ := t.spawnWorker_cases
  · rw [heq]
    exact .of_same rfl rfl rfl rfl id
  · rw [heq]
    refine .of_same rfl rfl rfl rfl fun hstop => ?_
    simp only [isStopping, Option.any_some, hw', WorkerPhase.holdsLock, Bool.false_or] at hstop
    simp [isStopping, hstop]

theorem turn_startStopping (t : Tunnel) (restarts : Bool) (now : Duration) :
    Turn t (t.startStopping restarts now) := by
  obtain ⟨hw, heq⟩ | ⟨w, hw, heq⟩ := t.startStopping_cases restarts now
  · rw [heq]
    refine .of_same rfl rfl rfl rfl fun hstop => ?_
    simp [isStopping, hw, ControlPhase.holdsLock] at hstop
  · rw [heq]
    refine .of_same rfl rfl rfl rfl fun hstop => ?_
    simp only [isStopping, Option.any_some, ControlPhase.holdsLock, Bool.or_false] at hstop
    simp [isStopping, hw, hstop]

theorem finishControl_cases (t : Tunnel) (c : ControlTask) :
    ∃ worker, t.finishControl c = { t with control := none, worker := worker } := by
  unfold finishControl
  split
  · obtain ⟨w, -, heq⟩ | ⟨w', -, -, heq⟩ :=
      ({ t with control := none } : Tunnel).spawnWorker_cases
    · exact ⟨t.worker, heq⟩
    · exact ⟨some w', heq⟩
  · exact ⟨t.worker, rfl⟩

theorem turn_call {config : TunnelConfig} {enabled : Bool}
    (hmoved : CallMoved t now config enabled t') : Turn t t' := by
  have hturn : Turn { t with config := config, enabled := enabled } t' := by
    cases hmoved with
    | sets => exact .of_same rfl rfl rfl rfl id
    | spawns _ => exact turn_spawnWorker _
    | stops restarts _ => exact turn_startStopping _ restarts now
  cases hturn with
  | stays queue htr hg hs hu hfree => exact .stays queue htr hg hs hu hfree
  | dials client hclient hdown htr hg hs hu hfree =>
    exact .dials client hclient hdown htr hg hs hu hfree
  | takes htr hg hs hu => exact .takes htr hg hs hu
  | ends hdown hu hg => exact .ends hdown hu hg

theorem Kept.turn_control (h : t.Kept) (hc : t.control = some c)
    (hmoved : ControlMoved t c now t') : Turn t t' := by
  cases hmoved with
  | joins since hp =>
    refine .of_same rfl rfl rfl rfl fun hstop => ?_
    simp [isStopping, ControlPhase.holdsLock] at hstop
  | aborts since hp =>
    refine .of_same rfl rfl rfl rfl fun hstop => ?_
    simp [isStopping, abortWorker, ControlPhase.holdsLock] at hstop
  | takes tr hp htr => exact .takes rfl rfl rfl rfl
  | finds hp htr =>
    obtain ⟨worker, heq⟩ := finishControl_cases
      ({ t with generation := t.generation + 1 }.setState .disconnected) c
    rw [heq]
    exact .ends ⟨htr, rfl⟩ rfl (.inl rfl)
  | stops s hp =>
    have hstop : t.isStopping = true := by simp [isStopping, hc, hp, ControlPhase.holdsLock]
    obtain ⟨worker, heq⟩ := finishControl_cases t.finishStopping c
    rw [heq]
    exact .ends ⟨h.stopping hstop, rfl⟩ rfl (.inr ⟨rfl, hstop⟩)

theorem Kept.turn_worker (h : t.Kept) (hw : t.worker = some w)
    (hmoved : WorkerMoved t w now t') : Turn t t' := by
  have hcontrol := h.control_free hw
  cases hmoved with
  | waits w' hwaits =>
    refine .of_same rfl rfl rfl rfl fun hstop => ?_
    simp [isStopping, hwaits.free', hcontrol] at hstop
  | dials a permit hp =>
    have hdown := h.isDown_of_isIdle hw (by rw [hp]; rfl)
    obtain ⟨client, hbegin, heq⟩ | heq := t.install_cases a <;> rw [heq]
    · have honce : client.OneShot .before := OutboundClient.oneShot_begin hbegin rfl
      refine .dials (some client) (fun c hmem => by cases hmem; exact honce) hdown rfl rfl rfl rfl
        ?_
      simp [isStopping, WorkerPhase.holdsLock, setState, hcontrol]
    · refine .dials none (fun c hmem => by cases hmem) hdown hdown.1 rfl rfl rfl ?_
      simp [isStopping, WorkerPhase.holdsLock, setState, hcontrol]
  | takes a held tr hp htr => exact .takes rfl rfl rfl rfl
  | finds a held hp htr => exact .ends ⟨htr, rfl⟩ rfl (.inl rfl)
  | stops a held s hp =>
    have hstop : t.isStopping = true := by simp [isStopping, hw, hp, WorkerPhase.holdsLock]
    exact .ends ⟨h.stopping hstop, rfl⟩ rfl (.inr ⟨rfl, hstop⟩)

theorem turn_sent (hsent : Sent t t') : Turn t t' := by
  obtain ⟨sends, queue⟩ := hsent
  exact .stays queue rfl rfl rfl rfl id

/-- **All that becomes of the connection** under every event but a step of the network. -/
theorem Kept.turn (h : t.Kept) (hmoved : Moved t now e t')
    (he : ∀ generation task s, e ≠ .network generation task s) : Turn t t' := by
  cases hmoved with
  | call _ hmoved => exact turn_call hmoved
  | control c hc hmoved => exact h.turn_control hc hmoved
  | worker w hw hmoved => exact h.turn_worker hw hmoved
  | network _ => exact absurd rfl (he _ _ _)
  | send hsent | sending hsent => exact turn_sent hsent

end DeviceRelay.Tunnel
