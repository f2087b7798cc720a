import DeviceRelay.Proofs.Tunnel.Steps

/-!
# Where the transports of a tunnel are

A transport is installed, or it was taken out and its client is being stopped or was given up. The
installed one is of the current generation and all others are of earlier ones. A task that takes a
transport out leaves none installed until the tunnel is down, and only a tunnel that is down is
dialed again.

* `Tunnel.TakenOut`: the transports that were taken out.
* `Tunnel.Kept`: what holds of the transports.
* `Tunnel.Kept.moved`, `Tunnel.Kept.putTransport`: it goes on holding.
-/

namespace DeviceRelay

/-- The transport that the worker is stopping. -/
def WorkerPhase.taken? : WorkerPhase → Option Transport
  | .stopping _ _ s => some s.transport
  | _ => none

/-- The transport that the owner's call is stopping. -/
def ControlPhase.taken? : ControlPhase → Option Transport
  | .stopping s => some s.transport
  | _ => none

/-- Whether the call still waits for the worker. -/
def ControlPhase.isJoining : ControlPhase → Bool
  | .joining _ => true
  | _ => false

theorem WorkerPhase.taken?_of_free {p : WorkerPhase} (h : p.holdsLock = false) :
    p.taken? = none := by
  cases p <;> first | rfl | cases h

theorem WorkerPhase.holdsLock_of_isIdle {p : WorkerPhase} (h : p.isIdle = true) :
    p.holdsLock = false := by
  cases p <;> first | rfl | cases h

namespace Tunnel

/-- A transport that was taken out, and whose client may still run. -/
inductive TakenOut (t : Tunnel) (tr : Transport) : Prop where
  | worker (w : Worker) (hw : t.worker = some w) (h : w.phase.taken? = some tr)
  | control (c : ControlTask) (hc : t.control = some c) (h : c.phase.taken? = some tr)
  | abandoned (h : tr ∈ t.abandoned)

theorem transports_eq (t : Tunnel) :
    t.transports = t.transport.toList ++ (t.worker.bind (·.phase.taken?)).toList ++
      (t.control.bind (·.phase.taken?)).toList ++ t.abandoned := by
  unfold transports
  dsimp only
  congr 2
  · congr 1
    cases t.worker with
    | none => rfl
    | some w => obtain ⟨phase, _, _⟩ := w; cases phase <;> rfl
  · cases t.control with
    | none => rfl
    | some c => obtain ⟨_, phase⟩ := c; cases phase <;> rfl

theorem mem_transports_iff {t : Tunnel} {tr : Transport} :
    tr ∈ t.transports ↔ t.transport = some tr ∨ t.TakenOut tr := by
  simp only [transports_eq, List.mem_append, Option.mem_toList, Option.bind_eq_some_iff]
  constructor
  · rintro (((htr | ⟨w, hw, h⟩) | ⟨c, hc, h⟩) | h)
    · exact .inl htr
    · exact .inr (.worker w hw h)
    · exact .inr (.control c hc h)
    · exact .inr (.abandoned h)
  · rintro (htr | ⟨w, hw, h⟩ | ⟨c, hc, h⟩ | h)
    · exact .inl (.inl (.inl htr))
    · exact .inl (.inl (.inr ⟨w, hw, h⟩))
    · exact .inl (.inr ⟨c, hc, h⟩)
    · exact .inr h

/-- Whether a transport was taken out and its client is being stopped. -/
def isStopping (t : Tunnel) : Bool :=
  t.worker.any (·.phase.holdsLock) || t.control.any (·.phase.holdsLock)

/-- No transport is installed, and the state says so. -/
def IsDown (t : Tunnel) : Prop := t.transport = none ∧ t.state = .disconnected

/-- Whether nothing is at work on a transport: no worker and no call, or a worker that has none
installed. -/
def isResting (t : Tunnel) : Bool :=
  match t.worker with
  | some w => w.phase.isIdle
  | none => t.control.isNone

/-- What holds of the transports of a tunnel. -/
structure Kept (t : Tunnel) : Prop where
  resting : t.isResting = true → t.IsDown
  stopping : t.isStopping = true → t.transport = none
  /-- A call that is done with the worker has none beside it. -/
  alone : ∀ c, t.control = some c → c.phase.isJoining = false → t.worker = none
  installed : ∀ tr, t.transport = some tr → tr.generation = t.generation
  older : ∀ tr, t.TakenOut tr → tr.generation < t.generation

theorem kept_new (label : String) (options : TunnelOptions) : (new label options).Kept where
  resting _ := ⟨rfl, rfl⟩
  stopping _ := rfl
  alone _ _ _ := rfl
  installed _ h := by cases h
  older _ h := by
    cases h with
    | worker _ hw _ => cases hw
    | control _ hc _ => cases hc
    | abandoned h => cases h

variable {t t' : Tunnel} {now : Duration} {e : TunnelEvent} {w : Worker} {c : ControlTask}

theorem Kept.isDown_of_isIdle (h : t.Kept) (hw : t.worker = some w) (hp : w.phase.isIdle = true) :
    t.IsDown :=
  h.resting (by simpa [isResting, hw] using hp)

theorem Kept.isDown_of_none (h : t.Kept) (hw : t.worker = none) (hc : t.control = none) :
    t.IsDown :=
  h.resting (by simp [isResting, hw, hc])

/-! ## Preservation -/

/-- Where no client is being stopped, all that was taken out was given up. -/
theorem TakenOut.mem_abandoned {tr : Transport} (h : t.TakenOut tr) (hfree : t.isStopping = false) :
    tr ∈ t.abandoned := by
  rw [isStopping, Bool.or_eq_false_iff, Option.any_eq_false, Option.any_eq_false] at hfree
  obtain ⟨hworker, hcontrol⟩ := hfree
  cases h with
  | worker w hw htaken =>
    have hlock := hworker w hw
    cases hp : w.phase <;> simp_all [WorkerPhase.taken?, WorkerPhase.holdsLock]
  | control c hc htaken =>
    have hlock := hcontrol c hc
    cases hp : c.phase <;> simp_all [ControlPhase.taken?, ControlPhase.holdsLock]
  | abandoned h => exact h

theorem Kept.of_free (hfree : t.isStopping = false) (hresting : t.isResting = true → t.IsDown)
    (halone : ∀ c, t.control = some c → c.phase.isJoining = false → t.worker = none)
    (hinstalled : ∀ tr, t.transport = some tr → tr.generation = t.generation)
    (habandoned : ∀ tr ∈ t.abandoned, tr.generation < t.generation) : t.Kept where
  resting := hresting
  stopping h := by rw [hfree] at h; cases h
  alone := halone
  installed := hinstalled
  older tr h := habandoned tr (h.mem_abandoned hfree)

/-- Only these parts of a tunnel count. -/
theorem Kept.congr (h : t.Kept) (hworker : t'.worker = t.worker)
    (hcontrol : t'.control = t.control) (habandoned : t'.abandoned = t.abandoned)
    (hgeneration : t'.generation = t.generation)
    (hstate : t.IsDown → t'.state = .disconnected)
    (htransport : t'.transport.map Transport.generation = t.transport.map Transport.generation) :
    t'.Kept := by
  have hnone : t'.transport = none ↔ t.transport = none := by
    rw [← Option.map_eq_none_iff, htransport, Option.map_eq_none_iff]
  constructor
  · intro hrest
    have hdown := h.resting (by simpa [isResting, hworker, hcontrol] using hrest)
    exact ⟨hnone.mpr hdown.1, hstate hdown⟩
  · intro hstop
    exact hnone.mpr (h.stopping (by simpa [isStopping, hworker, hcontrol] using hstop))
  · rw [hworker, hcontrol]
    exact h.alone
  · intro tr htr
    rw [htr, Option.map_some, eq_comm, Option.map_eq_some_iff] at htransport
    obtain ⟨tr', htr', heq⟩ := htransport
    rw [← heq, hgeneration]
    exact h.installed tr' htr'
  · intro tr htr
    rw [hgeneration]
    refine h.older tr ?_
    cases htr with
    | worker w hw htaken => exact .worker w (hworker ▸ hw) htaken
    | control c hc htaken => exact .control c (hcontrol ▸ hc) htaken
    | abandoned htr => exact .abandoned (habandoned ▸ htr)

theorem Kept.abandoned_lt (h : t.Kept) : ∀ tr ∈ t.abandoned, tr.generation < t.generation :=
  fun tr htr => h.older tr (.abandoned htr)

/-- Beside a worker no call holds a transport. -/
theorem Kept.control_free (h : t.Kept) (hw : t.worker = some w) :
    t.control.any (·.phase.holdsLock) = false := by
  rw [Option.any_eq_false]
  intro c hc
  cases hp : c.phase with
  | joining _ => simp [ControlPhase.holdsLock]
  | tearing | stopping _ =>
    have hnone := h.alone c hc (by rw [hp]; rfl)
    rw [hw] at hnone
    cases hnone

/-- A tunnel that is down may have a worker that has yet to start. -/
theorem Kept.spawnWorker (h : t.Kept) (hc : t.control = none) : t.spawnWorker.Kept := by
  obtain ⟨w, -, heq⟩ | ⟨w', hw', hfinished, heq⟩ := t.spawnWorker_cases
  · rw [heq]
    exact h
  · have hdown : t.IsDown := by
      cases hw : t.worker with
      | none => exact h.isDown_of_none hw hc
      | some w => exact h.isDown_of_isIdle hw (by rw [hfinished w hw]; rfl)
    have hfree : ({ t with worker := some w' } : Tunnel).isStopping = false := by
      simp [isStopping, hw', hc, WorkerPhase.holdsLock]
    rw [heq]
    exact .of_free hfree (fun _ => hdown) (fun c hsome => by rw [hc] at hsome; cases hsome)
      h.installed h.abandoned_lt

/-- The start of a call that stops the worker. -/
theorem Kept.startStopping (h : t.Kept) (hc : t.control = none) (restarts : Bool)
    (now : Duration) : (t.startStopping restarts now).Kept := by
  obtain ⟨hw, heq⟩ | ⟨w, hw, heq⟩ := t.startStopping_cases restarts now
  · have hfree : ({ t with control := some ⟨restarts, .tearing⟩ } : Tunnel).isStopping = false := by
      simp [isStopping, hw, ControlPhase.holdsLock]
    rw [heq]
    refine .of_free hfree (fun hrest => ?_) (fun _ _ _ => hw) h.installed h.abandoned_lt
    simp [isResting, hw] at hrest
  · rw [heq]
    exact {
      resting := fun hidle => h.isDown_of_isIdle hw hidle
      stopping := fun hstop => by
        refine h.stopping ?_
        simpa [isStopping, hw, hc, ControlPhase.holdsLock] using hstop
      alone := fun c hsome hjoin => by cases hsome; cases hjoin
      installed := h.installed
      older := fun tr htr => by
        cases htr with
        | worker w' hsome htaken => cases hsome; exact h.older tr (.worker w hw htaken)
        | control c hsome htaken => cases hsome; cases htaken
        | abandoned habandoned => exact h.abandoned_lt tr habandoned }

theorem Kept.call {config : TunnelConfig} {enabled : Bool} (h : t.Kept)
    (hmoved : CallMoved t now config enabled t') : t'.Kept := by
  have hset : ({ t with config := config, enabled := enabled } : Tunnel).Kept :=
    h.congr rfl rfl rfl rfl (·.2) rfl
  cases hmoved with
  | sets => exact hset
  | spawns hc => exact hset.spawnWorker hc
  | stops restarts hc => exact hset.startStopping hc restarts now

/-- The end of a call, at a tunnel that is down. -/
theorem kept_finishControl (hdown : t.IsDown) (hw : t.worker = none)
    (habandoned : ∀ tr ∈ t.abandoned, tr.generation < t.generation) (c : ControlTask) :
    (t.finishControl c).Kept := by
  have hfree : ({ t with control := none } : Tunnel).isStopping = false := by
    simp [isStopping, hw]
  have hkept : ({ t with control := none } : Tunnel).Kept :=
    .of_free hfree (fun _ => hdown) (fun c hsome => by cases hsome)
      (fun tr htr => by cases hdown.1.symm.trans htr)
      habandoned
  unfold finishControl
  split
  · exact hkept.spawnWorker rfl
  · exact hkept

/-- What an abort of the worker gives up was taken out before. -/
theorem takenOut_of_mem_abortWorker {tr : Transport} (h : tr ∈ t.abortWorker.abandoned) :
    t.TakenOut tr := by
  obtain h | h := List.mem_append.mp h
  · exact .abandoned h
  · cases hw : t.worker with
    | none => simp [hw] at h
    | some w =>
      obtain ⟨phase, backoff, stopRequested⟩ := w
      cases phase with
      | stopping a held s =>
        simp only [hw, List.mem_singleton] at h
        exact .worker _ hw (by rw [h]; rfl)
      | _ => simp [hw] at h

theorem Kept.control (h : t.Kept) (hc : t.control = some c) (hmoved : ControlMoved t c now t') :
    t'.Kept := by
  cases hmoved with
  | joins since hp =>
    refine .of_free (by simp [isStopping, ControlPhase.holdsLock]) nofun (fun _ _ _ => rfl)
      h.installed h.abandoned_lt
  | aborts since hp =>
    have hfree : ({ t.abortWorker with control := some { c with phase := .tearing } } :
        Tunnel).isStopping = false := by
      simp [isStopping, abortWorker, ControlPhase.holdsLock]
    refine .of_free hfree (fun hrest => ?_) (fun _ _ _ => rfl) h.installed fun tr hmem => ?_
    · simp [isResting, abortWorker] at hrest
    · exact h.older tr (takenOut_of_mem_abortWorker hmem)
  | takes tr hp htr =>
    have hw : t.worker = none := h.alone c hc (by rw [hp]; rfl)
    exact {
      resting := fun hrest => by simp [isResting, hw] at hrest
      stopping := fun _ => rfl
      alone := fun _ _ _ => hw
      installed := fun _ hsome => by cases hsome
      older := fun tr' htr' => by
        cases htr' with
        | worker w hsome _ => rw [hw] at hsome; cases hsome
        | control c' hsome htaken =>
          cases hsome
          cases htaken
          exact Nat.lt_succ_of_le (Nat.le_of_eq (h.installed tr htr))
        | abandoned hmem => exact Nat.lt_succ_of_lt (h.abandoned_lt tr' hmem) }
  | finds hp htr =>
    have hw : t.worker = none := h.alone c hc (by rw [hp]; rfl)
    exact kept_finishControl (t := { t with generation := t.generation + 1 }.setState .disconnected)
      ⟨htr, rfl⟩ hw (fun tr hmem => Nat.lt_succ_of_lt (h.abandoned_lt tr hmem)) c
  | stops s hp =>
    have hw : t.worker = none := h.alone c hc (by rw [hp]; rfl)
    have htr : t.transport = none :=
      h.stopping (by simp [isStopping, hc, hp, ControlPhase.holdsLock])
    exact kept_finishControl (t := t.finishStopping) ⟨htr, rfl⟩ hw h.abandoned_lt c

theorem Kept.worker (h : t.Kept) (hw : t.worker = some w) (hmoved : WorkerMoved t w now t') :
    t'.Kept := by
  have hcontrol := h.control_free hw
  have halone {worker : Option Worker} : ∀ c, t.control = some c → c.phase.isJoining = false →
      worker = none := by
    intro c hc hp
    have hnone := h.alone c hc hp
    rw [hw] at hnone
    cases hnone
  cases hmoved with
  | waits w' hwaits =>
    refine .of_free ?_ (fun hidle => ?_) halone h.installed h.abandoned_lt
    · simp [isStopping, hwaits.free', hcontrol]
    · exact h.isDown_of_isIdle hw (hwaits.idle hidle)
  | dials a permit hp =>
    have hdown := h.isDown_of_isIdle hw (by rw [hp]; rfl)
    obtain ⟨client, -, heq⟩ | heq := t.install_cases a <;> rw [heq]
    · refine .of_free ?_ (fun hrest => by cases hrest) halone (fun tr htr => by cases htr; rfl)
        fun tr hmem => Nat.lt_succ_of_lt (h.abandoned_lt tr hmem)
      simp [isStopping, WorkerPhase.holdsLock, setState, hcontrol]
    · refine .of_free ?_ (fun hrest => by cases hrest) halone
        (fun tr htr => by cases hdown.1.symm.trans htr) fun tr hmem =>
          Nat.lt_succ_of_lt (h.abandoned_lt tr hmem)
      simp [isStopping, WorkerPhase.holdsLock, setState, hcontrol]
  | takes a held tr hp htr =>
    exact {
      resting := fun hrest => by cases hrest
      stopping := fun _ => rfl
      alone := halone
      installed := fun _ hsome => by cases hsome
      older := fun tr' htr' => by
        cases htr' with
        | worker w' hsome htaken =>
          cases hsome
          cases htaken
          exact Nat.lt_succ_of_le (Nat.le_of_eq (h.installed tr htr))
        | control c hc htaken =>
          exact Nat.lt_succ_of_lt (h.older tr' (.control c hc htaken))
        | abandoned hmem => exact Nat.lt_succ_of_lt (h.abandoned_lt tr' hmem) }
  | finds a held hp htr =>
    have hlock := WorkerPhase.holdsLock_of_isIdle (isIdle_afterAttempt w a now held)
    refine .of_free ?_ (fun _ => ⟨htr, rfl⟩) halone (fun tr hsome => by cases htr.symm.trans hsome)
      fun tr hmem => Nat.lt_succ_of_lt (h.abandoned_lt tr hmem)
    simp [isStopping, hlock, setState, hcontrol]
  | stops a held s hp =>
    have hlock := WorkerPhase.holdsLock_of_isIdle (isIdle_afterAttempt w a now held)
    have htr : t.transport = none :=
      h.stopping (by simp [isStopping, hw, hp, WorkerPhase.holdsLock])
    refine .of_free ?_ (fun _ => ⟨htr, rfl⟩) halone (fun tr hsome => by cases htr.symm.trans hsome)
      h.abandoned_lt
    simp [isStopping, hlock, finishStopping, setState, hcontrol]

theorem Kept.sent (h : t.Kept) (hsent : Sent t t') : t'.Kept := by
  obtain ⟨sends, queue⟩ := hsent
  refine h.congr rfl rfl rfl rfl (·.2) ?_
  rw [Option.map_map]
  rfl

/-- **What holds of the transports goes on holding** under every event but a step of the
network. -/
theorem Kept.moved (h : t.Kept) (hmoved : Moved t now e t')
    (he : ∀ generation task s, e ≠ .network generation task s) : t'.Kept := by
  cases hmoved with
  | call _ hmoved => exact h.call hmoved
  | control c hc hmoved => exact h.control hc hmoved
  | worker w hw hmoved => exact h.worker hw hmoved
  | network _ => exact absurd rfl (he _ _ _)
  | send hsent | sending hsent => exact h.sent hsent

/-- The transport `tr` in the place of one of its generation. -/
def put (tr old : Transport) : Transport := if old.generation = tr.generation then tr else old

theorem generation_put (tr old : Transport) : (put tr old).generation = old.generation := by
  unfold put
  split
  · rename_i heq
    exact heq.symm
  · rfl

/-- The worker with a transport in the place of the one that it is stopping. -/
theorem worker_putTransport (t : Tunnel) (tr : Transport) :
    (t.worker = none ∧ (t.putTransport tr).worker = none) ∨
      ∃ w w', t.worker = some w ∧ (t.putTransport tr).worker = some w' ∧
        w'.phase.isIdle = w.phase.isIdle ∧ w'.phase.holdsLock = w.phase.holdsLock ∧
        w'.phase.taken? = w.phase.taken?.map (put tr) := by
  unfold putTransport
  cases hw : t.worker with
  | none => exact .inl ⟨rfl, rfl⟩
  | some w =>
    refine .inr ⟨w, _, rfl, rfl, ?_⟩
    obtain ⟨phase, backoff, stopRequested⟩ := w
    cases phase <;> exact ⟨rfl, rfl, rfl⟩

theorem control_putTransport (t : Tunnel) (tr : Transport) :
    (t.control = none ∧ (t.putTransport tr).control = none) ∨
      ∃ c c', t.control = some c ∧ (t.putTransport tr).control = some c' ∧
        c'.phase.isJoining = c.phase.isJoining ∧ c'.phase.holdsLock = c.phase.holdsLock ∧
        c'.phase.taken? = c.phase.taken?.map (put tr) := by
  unfold putTransport
  cases hc : t.control with
  | none => exact .inl ⟨rfl, rfl⟩
  | some c =>
    refine .inr ⟨c, _, rfl, rfl, ?_⟩
    obtain ⟨restarts, phase⟩ := c
    cases phase <;> exact ⟨rfl, rfl, rfl⟩

theorem TakenOut.of_putTransport {tr tr' : Transport} (h : (t.putTransport tr).TakenOut tr') :
    ∃ old, t.TakenOut old ∧ tr'.generation = old.generation := by
  cases h with
  | worker w' hw' htaken =>
    obtain ⟨-, hnone⟩ | ⟨w, w'', hw, hw'', -, -, heq⟩ := t.worker_putTransport tr
    · cases hnone.symm.trans hw'
    · cases hw''.symm.trans hw'
      rw [heq, Option.map_eq_some_iff] at htaken
      obtain ⟨old, hold, rfl⟩ := htaken
      exact ⟨old, .worker w hw hold, generation_put tr old⟩
  | control c' hc' htaken =>
    obtain ⟨-, hnone⟩ | ⟨c, c'', hc, hc'', -, -, heq⟩ := t.control_putTransport tr
    · cases hnone.symm.trans hc'
    · cases hc''.symm.trans hc'
      rw [heq, Option.map_eq_some_iff] at htaken
      obtain ⟨old, hold, rfl⟩ := htaken
      exact ⟨old, .control c hc hold, generation_put tr old⟩
  | abandoned h =>
    obtain ⟨old, hold, rfl⟩ := List.mem_map.mp h
    exact ⟨old, .abandoned hold, generation_put tr old⟩

theorem transports_putTransport (t : Tunnel) (tr : Transport) :
    (t.putTransport tr).transports = t.transports.map (put tr) := by
  have hworker : (t.putTransport tr).worker.bind (·.phase.taken?) =
      (t.worker.bind (·.phase.taken?)).map (put tr) := by
    obtain ⟨hw, hw'⟩ | ⟨w, w', hw, hw', -, -, htaken⟩ := t.worker_putTransport tr
    · rw [hw, hw']
      rfl
    · rw [hw, hw']
      exact htaken
  have hcontrol : (t.putTransport tr).control.bind (·.phase.taken?) =
      (t.control.bind (·.phase.taken?)).map (put tr) := by
    obtain ⟨hc, hc'⟩ | ⟨c, c', hc, hc', -, -, htaken⟩ := t.control_putTransport tr
    · rw [hc, hc']
      rfl
    · rw [hc, hc']
      exact htaken
  rw [transports_eq, transports_eq, hworker, hcontrol, List.map_append, List.map_append,
    List.map_append, ← Option.toList_map, ← Option.toList_map, ← Option.toList_map]
  rfl

theorem isStopping_putTransport (t : Tunnel) (tr : Transport) :
    (t.putTransport tr).isStopping = t.isStopping := by
  unfold isStopping
  congr 1
  · obtain ⟨hw, hw'⟩ | ⟨w, w', hw, hw', -, hlock, -⟩ := t.worker_putTransport tr
    · rw [hw, hw']
    · rw [hw, hw', Option.any_some, Option.any_some, hlock]
  · obtain ⟨hc, hc'⟩ | ⟨c, c', hc, hc', -, hlock, -⟩ := t.control_putTransport tr
    · rw [hc, hc']
    · rw [hc, hc', Option.any_some, Option.any_some, hlock]

/-- **A client that has moved on** takes the place of the one of its generation. -/
theorem Kept.putTransport (h : t.Kept) (tr : Transport) : (t.putTransport tr).Kept where
  resting hrest := by
    have hdown : t.IsDown := by
      refine h.resting ?_
      unfold isResting at hrest ⊢
      obtain ⟨hw, hw'⟩ | ⟨w, w', hw, hw', hidle, -, -⟩ := t.worker_putTransport tr
      · obtain ⟨hc, hc'⟩ | ⟨c, c', hc, hc', -⟩ := t.control_putTransport tr
        · rw [hw, hc]
          rfl
        · rw [hw', hc'] at hrest
          cases hrest
      · rw [hw'] at hrest
        rw [hw]
        exact hidle.symm.trans hrest
    exact ⟨by simp [Tunnel.putTransport, hdown.1], hdown.2⟩
  stopping hstop := by
    rw [isStopping_putTransport] at hstop
    simp [Tunnel.putTransport, h.stopping hstop]
  alone c' hsome hjoin := by
    obtain ⟨-, hnone⟩ | ⟨c, c'', hc, hc'', heq, -⟩ := t.control_putTransport tr
    · cases hnone.symm.trans hsome
    · cases hc''.symm.trans hsome
      have hw := h.alone c hc (heq ▸ hjoin)
      simp [Tunnel.putTransport, hw]
  installed tr' hsome := by
    obtain ⟨old, hold, rfl⟩ := Option.map_eq_some_iff.mp hsome
    exact (generation_put tr old).trans (h.installed old hold)
  older tr' htr' := by
    obtain ⟨old, hold, heq⟩ := htr'.of_putTransport
    rw [heq]
    exact h.older old hold

end Tunnel

end DeviceRelay
