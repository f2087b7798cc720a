import DeviceRelay.Proofs.Backoff
import DeviceRelay.Proofs.Tunnel.Snapshots

/-!
# Configuring a tunnel

A call that configures a tunnel with what is stored changes nothing. One that changes what is
dialed with and finds the tunnel enabled waits for the worker or aborts it, takes the transport out,
and starts a worker at a tunnel that is down. From its return on, whoever dials does so with the
new texts, until another call changes them.

* `Watched.isChanging`, `Watched.neverChanges`: calls that change what is dialed with.
* `Watched.isPending`: moves while a call is under way.
* `Watched.Sound.canReturn`: a call can always come to its end.
* `Watched.Sound.told_and_removed`: a transport leaves its place only to be stopped.
* `Watched.Sound.restarted_of_returned`: how a call that starts the worker over returns.
* `Watched.configure_exact`: the theorem on configuring.
-/

namespace DeviceRelay

/-- A client that was begun has the configuration that it was begun with. -/
theorem OutboundClient.config_begin {c c' : OutboundClient} {config : ClientConfig}
    (h : c.begin config = .ok c') : c'.config = some config := by
  unfold begin connect at h
  split at h
  · cases h
  · split at h
    · cases h
      rfl
    · cases h
      rfl

namespace Tunnel

variable {t t' : Tunnel} {now : Duration} {e : TunnelEvent} {w : Worker} {c : ControlTask}
  {seen : List TunnelEffect}

/-! ## The call under way -/

/-- A tunnel whose worker was just started over: nothing is at work but a worker that has yet to
look at the configuration. -/
structure Restarted (t : Tunnel) : Prop where
  worker : ∃ w, t.worker = some w ∧ w.phase = .starting ∧ w.stopRequested = false
  transport : t.transport = none
  state : t.state = .disconnected

theorem restarted_finishControl (hw : t.worker = none) (hdown : t.IsDown)
    (hr : c.restarts = true) : (t.finishControl c).Restarted := by
  have hspawn : t.finishControl c = { t with
      control := none
      worker := some ⟨.starting, .new (.tunnel t.config.reconnectDelay), false⟩ } := by
    simp [finishControl, hr, spawnWorker, hw]
  rw [hspawn]
  exact ⟨⟨_, rfl, rfl, rfl⟩, hdown.1, hdown.2⟩

/-- What a step does to the call under way: it goes on, or it returns, which it does only once it
has neither a worker nor a transport beside it. -/
inductive CallGoes (t : Tunnel) (c : ControlTask) (t' : Tunnel) : Prop where
  | goes (c' : ControlTask) (hc : t'.control = some c') (hr : c'.restarts = c.restarts)
  | returns (hc : t'.control = none) (hw : t.worker = none) (htr : t.transport = none)
      (hrestarted : c.restarts = true → t'.Restarted)

theorem callGoes_of_step (hkept : t.Kept) (hc : t.control = some c)
    (he : ∀ generation task s, e ≠ .network generation task s)
    (hstep : t.step now e = some (t', seen)) : CallGoes t c t' := by
  cases step_cases hstep with
  | call _ hmoved =>
    cases hmoved with
    | sets => exact .goes c hc rfl
    | spawns hnone | stops _ hnone => cases hc.symm.trans hnone
  | control c' hc' hmoved =>
    cases hc.symm.trans hc'
    cases hmoved with
    | joins | aborts | takes => exact .goes _ rfl rfl
    | finds hp htr =>
      have hw : t.worker = none := hkept.alone c hc (by rw [hp]; rfl)
      obtain ⟨-, hnone⟩ := settings_finishControl
        ({ t with generation := t.generation + 1 }.setState .disconnected) c
      exact .returns hnone hw htr (restarted_finishControl (by exact hw) ⟨htr, rfl⟩)
    | stops s hp =>
      have hw : t.worker = none := hkept.alone c hc (by rw [hp]; rfl)
      have htr : t.transport = none :=
        hkept.stopping (by simp [isStopping, hc, hp, ControlPhase.holdsLock])
      obtain ⟨-, hnone⟩ := settings_finishControl t.finishStopping c
      exact .returns hnone hw htr (restarted_finishControl (by exact hw) ⟨htr, rfl⟩)
  | worker w hw hmoved =>
    cases hmoved with
    | dials a permit hp => exact .goes c ((settings_install t a).2.trans hc) rfl
    | waits | takes | finds | stops => exact .goes c hc rfl
  | network _ => exact absurd rfl (he _ _ _)
  | send hsent | sending hsent =>
    cases hsent
    exact .goes c hc rfl

/-- Only a call that changes what is dialed with starts the worker over. -/
theorem isRestarting_of_step (hfree : t.isRestarting = false)
    (he : ∀ generation task s, e ≠ .network generation task s)
    (hsame : e.isCall = true → (e.configured t.config).dialed = t.config.dialed)
    (hstep : t.step now e = some (t', seen)) : t'.isRestarting = false := by
  cases step_cases hstep with
  | call hcall _ =>
    cases called_of_step hcall hstep with
    | times | agrees | stores => exact hfree
    | restarts _ _ _ _ _ _ hdiffers =>
      exact absurd (hsame hcall).symm (TunnelConfig.dialDiffers_iff.mp hdiffers)
    | enables hc =>
      have hcontrol := ({ t with enabled := true } : Tunnel).settings_spawnWorker.2
      exact isRestarting_of_none (hcontrol.trans hc)
    | disables => exact (attempt?_startStopping _ _ _).2
  | control c hc hmoved =>
    have hr : c.restarts = false := by simpa [isRestarting, hc] using hfree
    cases hmoved with
    | joins | aborts | takes => exact hr
    | finds | stops => exact isRestarting_of_none (settings_finishControl _ c).2
  | worker w hw hmoved =>
    cases hmoved with
    | dials a permit hp =>
      rw [isRestarting]
      dsimp only
      rw [(settings_install t a).2]
      exact hfree
    | waits | takes | finds | stops => exact hfree
  | network _ => exact absurd rfl (he _ _ _)
  | send hsent | sending hsent =>
    cases hsent
    exact hfree

/-! ## The transport -/

/-- The transport of a generation was taken out, and its client told to stop. -/
def ToldToStop (t : Tunnel) (generation : Nat) : Prop :=
  t.transport = none ∧
    ∃ tr ∈ t.transports, tr.generation = generation ∧ tr.client.stopRequested = true

/-- A transport that is installed stays so or is told to stop. -/
theorem transport_of_step (hkept : t.Kept) {tr : Transport} (htr : t.transport = some tr)
    (he : ∀ generation task s, e ≠ .network generation task s)
    (hstep : t.step now e = some (t', seen)) :
    (∃ tr', t'.transport = some tr' ∧ tr'.generation = tr.generation) ∨
      t'.ToldToStop tr.generation := by
  have hup : ¬t.IsDown := fun hdown => by cases htr.symm.trans hdown.1
  have hfree : t.isStopping = false := by
    rw [Bool.eq_false_iff]
    intro hstop
    cases htr.symm.trans (hkept.stopping hstop)
  cases step_cases hstep with
  | call _ hmoved =>
    have hsame : t'.transport = t.transport := by
      cases hmoved with
      | sets => rfl
      | spawns _ =>
        obtain ⟨w, -, heq⟩ | ⟨w', -, -, heq⟩ := spawnWorker_cases _ <;> rw [heq]
      | stops restarts _ =>
        obtain ⟨-, heq⟩ | ⟨w, -, heq⟩ := startStopping_cases _ restarts now <;> rw [heq]
    exact .inl ⟨tr, hsame.trans htr, rfl⟩
  | control c hc hmoved =>
    cases hmoved with
    | joins | aborts => exact .inl ⟨tr, htr, rfl⟩
    | takes tr' hp htr' =>
      cases htr.symm.trans htr'
      exact .inr ⟨rfl, _, mem_transports_iff.mpr (.inr (.control _ rfl rfl)), rfl, rfl⟩
    | finds hp hnone => cases htr.symm.trans hnone
    | stops s hp => simp [isStopping, hc, hp, ControlPhase.holdsLock] at hfree
  | worker w hw hmoved =>
    cases hmoved with
    | waits => exact .inl ⟨tr, htr, rfl⟩
    | dials a permit hp => exact absurd (hkept.isDown_of_isIdle hw (by rw [hp]; rfl)) hup
    | takes a held tr' hp htr' =>
      cases htr.symm.trans htr'
      exact .inr ⟨rfl, _, mem_transports_iff.mpr (.inr (.worker _ rfl rfl)), rfl, rfl⟩
    | finds a held hp hnone => cases htr.symm.trans hnone
    | stops a held s hp => simp [isStopping, hw, hp, WorkerPhase.holdsLock] at hfree
  | network _ => exact absurd rfl (he _ _ _)
  | send hsent | sending hsent =>
    cases hsent
    exact .inl ⟨_, Option.map_eq_some_iff.mpr ⟨tr, htr, rfl⟩, rfl⟩

/-! ## The way to the end of a call -/

/-- A send that waits can be given up. -/
theorem exists_step_dropSend {p : PendingSend} {sends : List PendingSend}
    (hsends : t.sends = p :: sends) :
    ∃ now s, t.step now (.sending p.ticket s) =
      some (t.dropSend p.ticket, [.sent p.ticket (.error .timeout)]) := by
  have hfind : t.sends.find? (fun s => s.ticket = p.ticket) = some p := by simp [hsends]
  cases hp : p.phase with
  | locking giveUpAt =>
    exact ⟨giveUpAt, .lockGivenUp, by simp [step, sendStep, hfind, hp, giveUpAt.le_refl]⟩
  | queueing giveUpAt =>
    exact ⟨giveUpAt, .roomGivenUp, by simp [step, sendStep, hfind, hp, giveUpAt.le_refl]⟩

/-- A call that has waited for the worker long enough aborts it. -/
theorem step_aborted {restarts : Bool} {since : Duration}
    (hc : t.control = some ⟨restarts, .joining since⟩) (hdue : since.add workerStopWait ≤ now) :
    t.step now (.control .aborted) =
      some ({ t.abortWorker with control := some ⟨restarts, .tearing⟩ }, []) := by
  have hs : t.controlStep now .aborted =
      some { t.abortWorker with control := some ⟨restarts, .tearing⟩ } := by
    unfold controlStep
    rw [hc, Option.bind_eq_bind, Option.bind_some]
    dsimp only
    rw [if_pos hdue]
  exact congrArg (Option.map fun t => (t, [])) hs

/-- A call that has waited for the client long enough gives up, and returns. -/
theorem step_gaveUp {restarts : Bool} {s : Stopping}
    (hc : t.control = some ⟨restarts, .stopping s⟩)
    (hdue : s.since.add OutboundClient.stopWait ≤ now) :
    t.step now (.control .gaveUp) =
      some (t.finishStopping.finishControl ⟨restarts, .stopping s⟩, []) := by
  have hs : t.controlStep now .gaveUp =
      some (t.finishStopping.finishControl ⟨restarts, .stopping s⟩) := by
    have hover : Stopping.isOverdue s now = true := decide_eq_true hdue
    unfold controlStep
    rw [hc, Option.bind_eq_bind, Option.bind_some]
    dsimp only
    rw [if_pos hover]
  exact congrArg (Option.map fun t => (t, [])) hs

/-- A call that gets the transport lock takes the transport out, or returns. -/
theorem step_locked (now : Duration) {restarts : Bool}
    (hc : t.control = some ⟨restarts, .tearing⟩) (hfree : t.isLocked = false) :
    ∃ t', t.step now (.control .locked) = some (t', []) ∧
      (t'.control = none ∨ ∃ s, t'.control = some ⟨restarts, .stopping s⟩) := by
  cases htr : t.transport with
  | none =>
    refine ⟨_, ?_, .inl (settings_finishControl
      ({ t with generation := t.generation + 1 }.setState .disconnected) ⟨restarts, .tearing⟩).2⟩
    simp [step, controlStep, hc, hfree, takeTransport_of_none htr]
  | some tr =>
    refine ⟨{ t with
      generation := t.generation + 1
      transport := none
      control := some ⟨restarts, .stopping (tr.stop now)⟩ }, ?_, .inr ⟨_, rfl⟩⟩
    simp [step, controlStep, hc, hfree, takeTransport_of_some htr]

end Tunnel

namespace Watched

variable {w : Watched} {m : Move}

/-! ## Moves beside a call -/

/-- Whether a move begins a call that changes what is dialed with. While another call is under way,
it does not begin. -/
def isChanging (w : Watched) : Move → Bool
  | .event _ (.configure baseUrl deviceId authToken tunnelKey) =>
    w.tunnel.control.isNone &&
      w.tunnel.config.dialed != (baseUrl, deviceId, authToken, tunnelKey)
  | _ => false

/-- No move begins a call that changes what is dialed with. -/
def neverChanges (w : Watched) : List Move → Bool
  | [] => true
  | m :: moves => !w.isChanging m && (w.next m).neverChanges moves

/-- A call is under way before each of the moves. -/
def isPending (w : Watched) : List Move → Bool
  | [] => true
  | m :: moves => w.tunnel.control.isSome && (w.next m).isPending moves

theorem run_append (w : Watched) (moves more : List Move) :
    w.run (moves ++ more) = (w.run moves).run more := List.foldl_append

theorem isPending_append (w : Watched) (moves more : List Move) :
    w.isPending (moves ++ more) = (w.isPending moves && (w.run moves).isPending more) := by
  induction moves generalizing w with
  | nil => rfl
  | cons m moves ih =>
    have hrun : w.run (m :: moves) = (w.next m).run moves := rfl
    rw [List.cons_append, isPending, isPending, ih, hrun, Bool.and_assoc]

/-- No call begins while one is under way. -/
theorem isChanging_of_isSome (h : w.tunnel.control.isSome = true) (m : Move) :
    w.isChanging m = false := by
  obtain ⟨c, hc⟩ := Option.isSome_iff_exists.mp h
  unfold isChanging
  split
  · simp [hc]
  · rfl

/-- What is dialed with after a step that begins no call to change it. -/
theorem dialed_configured {now : Duration} {e : TunnelEvent} {t : Tunnel}
    {seen : List TunnelEffect} (hm : w.isChanging (.event now e) = false)
    (hstep : w.tunnel.step now e = some (t, seen)) :
    (e.configured w.tunnel.config).dialed = w.tunnel.config.dialed := by
  cases e with
  | configure baseUrl deviceId authToken tunnelKey =>
    cases Tunnel.called_of_step rfl hstep with
    | agrees _ _ _ _ _ _ hsame => rw [hsame]
    | stores _ _ _ _ _ hc hdiffers | restarts _ _ _ _ _ hc hdiffers =>
      have hne := TunnelConfig.dialDiffers_iff.mp hdiffers
      simp only [isChanging, hc, Option.isNone_none, Bool.true_and, bne_eq_false_iff_eq] at hm
      exact absurd hm hne
  | _ => rfl

theorem Sound.next_dialed (h : w.Sound) (hm : w.isChanging m = false) :
    (w.next m).tunnel.config.dialed = w.tunnel.config.dialed := by
  have hchanged := h.changed m
  generalize (w.next m).tunnel = t at hchanged ⊢
  cases hchanged with
  | stays => rfl
  | steps he hstep =>
    have hsettings := (Tunnel.step_cases hstep).settings
    exact (congrArg (·.config.dialed) hsettings).trans (dialed_configured hm hstep)
  | client hfind hstep => rfl
  | hears htr state uiConnected record => rfl

theorem Sound.run_dialed (h : w.Sound) {moves : List Move}
    (hnever : w.neverChanges moves = true) :
    (w.run moves).tunnel.config.dialed = w.tunnel.config.dialed := by
  induction moves generalizing w with
  | nil => rfl
  | cons m moves ih =>
    rw [neverChanges, Bool.and_eq_true, Bool.not_eq_true'] at hnever
    exact (ih (h.next m) hnever.2).trans (h.next_dialed hnever.1)

theorem Sound.next_isRestarting (h : w.Sound) (hm : w.isChanging m = false)
    (hfree : w.tunnel.isRestarting = false) : (w.next m).tunnel.isRestarting = false := by
  have hchanged := h.changed m
  generalize (w.next m).tunnel = t at hchanged ⊢
  cases hchanged with
  | stays => exact hfree
  | steps he hstep =>
    exact Tunnel.isRestarting_of_step hfree he (fun _ => dialed_configured hm hstep) hstep
  | client hfind hstep => exact (Tunnel.isRestarting_putTransport _ _).trans hfree
  | hears htr state uiConnected record => exact hfree

theorem Sound.run_isRestarting (h : w.Sound) {moves : List Move}
    (hnever : w.neverChanges moves = true) (hfree : w.tunnel.isRestarting = false) :
    (w.run moves).tunnel.isRestarting = false := by
  induction moves generalizing w with
  | nil => exact hfree
  | cons m moves ih =>
    rw [neverChanges, Bool.and_eq_true, Bool.not_eq_true'] at hnever
    exact ih (h.next m) hnever.2 (h.next_isRestarting hnever.1 hfree)

/-! ## The transport -/

theorem Sound.next_transport (h : w.Sound) {tr : Transport} (htr : w.tunnel.transport = some tr)
    (m : Move) :
    (∃ tr', (w.next m).tunnel.transport = some tr' ∧ tr'.generation = tr.generation) ∨
      (w.next m).tunnel.ToldToStop tr.generation := by
  have hchanged := h.changed m
  generalize (w.next m).tunnel = t at hchanged ⊢
  cases hchanged with
  | stays => exact .inl ⟨tr, htr, rfl⟩
  | steps he hstep => exact Tunnel.transport_of_step h.kept htr he hstep
  | client hfind hstep =>
    exact .inl ⟨_, Option.map_eq_some_iff.mpr ⟨tr, htr, rfl⟩, Tunnel.generation_put _ tr⟩
  | hears _ state uiConnected record => exact .inl ⟨tr, htr, rfl⟩

/-- **A transport leaves its place only to be stopped**: where none is installed any more, it was
told to stop on the way. -/
theorem Sound.told_and_removed (h : w.Sound) {tr : Transport}
    (htr : w.tunnel.transport = some tr) {moves : List Move}
    (hnone : (w.run moves).tunnel.transport = none) :
    ∃ moves₁ moves₂, moves = moves₁ ++ moves₂ ∧
      (w.run moves₁).tunnel.ToldToStop tr.generation := by
  induction moves generalizing w tr with
  | nil => cases htr.symm.trans hnone
  | cons m moves ih =>
    obtain ⟨tr', htr', hg⟩ | htold := h.next_transport htr m
    · obtain ⟨moves₁, moves₂, rfl, htold⟩ := ih (h.next m) htr' hnone
      exact ⟨m :: moves₁, moves₂, rfl, hg ▸ htold⟩
    · exact ⟨[m], moves, rfl, htold⟩

/-! ## The call under way -/

theorem Sound.next_call (h : w.Sound) {c : ControlTask} (hc : w.tunnel.control = some c)
    (m : Move) : Tunnel.CallGoes w.tunnel c (w.next m).tunnel := by
  have hchanged := h.changed m
  generalize (w.next m).tunnel = t at hchanged ⊢
  cases hchanged with
  | stays => exact .goes c hc rfl
  | steps he hstep => exact Tunnel.callGoes_of_step h.kept hc he hstep
  | client hfind hstep =>
    refine .goes _ (Option.map_eq_some_iff.mpr ⟨c, hc, rfl⟩) ?_
    cases c.phase <;> rfl
  | hears _ state uiConnected record => exact .goes c hc rfl

/-- The call goes on, or it has returned. -/
theorem Sound.run_call (h : w.Sound) {c : ControlTask} (hc : w.tunnel.control = some c)
    {moves : List Move} (hpending : w.isPending moves = true) :
    (w.run moves).tunnel.control = none ∨
      ∃ c', (w.run moves).tunnel.control = some c' ∧ c'.restarts = c.restarts := by
  induction moves generalizing w c with
  | nil => exact .inr ⟨c, hc, rfl⟩
  | cons m moves ih =>
    rw [isPending, Bool.and_eq_true] at hpending
    cases h.next_call hc m with
    | goes c' hc' hr =>
      obtain hnone | ⟨c'', hc'', hr'⟩ := ih (h.next m) hc' hpending.2
      · exact .inl hnone
      · exact .inr ⟨c'', hc'', hr'.trans hr⟩
    | returns hnone _ _ _ =>
      cases moves with
      | nil => exact .inl hnone
      | cons m' moves =>
        have hsome := hpending.2
        rw [isPending, hnone, Option.isSome_none, Bool.false_and] at hsome
        cases hsome

/-- A call that starts the worker over returns where neither a worker nor a transport is left, and
leaves a worker that was just started. -/
theorem Sound.restarted_of_returned (h : w.Sound) {phase : ControlPhase}
    (hc : w.tunnel.control = some ⟨true, phase⟩) {call : List Move} {last : Move}
    (hpending : w.isPending (call ++ [last]) = true)
    (hreturned : (w.run (call ++ [last])).tunnel.control = none) :
    (w.run call).tunnel.worker = none ∧ (w.run call).tunnel.transport = none ∧
      (w.run (call ++ [last])).tunnel.Restarted := by
  rw [isPending_append, Bool.and_eq_true] at hpending
  obtain ⟨hpending, hlast⟩ := hpending
  rw [run_append] at hreturned ⊢
  obtain hnone | ⟨c, hc', hr⟩ := h.run_call hc hpending
  · rw [isPending, hnone] at hlast
    cases hlast
  · cases (h.run call).next_call hc' last with
    | goes c' hc'' _ => cases hreturned.symm.trans hc''
    | returns _ hw htr hrestarted => exact ⟨hw, htr, hrestarted hr⟩

/-! ### A call can come to its end -/

/-- The call under way can return. -/
def CanReturn (w : Watched) : Prop :=
  ∃ moves, w.isPending moves = true ∧ (w.run moves).tunnel.control = none

theorem canReturn_of_none (h : w.tunnel.control = none) : w.CanReturn := ⟨[], rfl, h⟩

theorem canReturn_of_next (hc : w.tunnel.control.isSome = true) (m : Move)
    (h : (w.next m).CanReturn) : w.CanReturn := by
  obtain ⟨moves, hpending, hnone⟩ := h
  exact ⟨m :: moves, by rw [isPending, hc, hpending]; rfl, hnone⟩

theorem canReturn_of_step {now : Duration} {e : TunnelEvent} {t : Tunnel}
    {seen : List TunnelEffect} (hc : w.tunnel.control.isSome = true)
    (hstep : w.tunnel.step now e = some (t, seen))
    (he : ∀ generation task s, e ≠ .network generation task s)
    (h : ({ w with tunnel := t } : Watched).CanReturn) : w.CanReturn :=
  canReturn_of_next hc (.event now e) (by rwa [next_of_step he hstep])

theorem canReturn_of_stopping {restarts : Bool} {s : Stopping}
    (hc : w.tunnel.control = some ⟨restarts, .stopping s⟩) : w.CanReturn := by
  have hstep := Tunnel.step_gaveUp hc (Duration.le_refl _)
  exact canReturn_of_step (by rw [hc]; rfl) hstep (by simp)
    (canReturn_of_none (Tunnel.settings_finishControl _ _).2)

/-- The sends that wait are given up first: one of them may have the transport lock. -/
theorem canReturn_of_tearing {restarts : Bool} (hw : w.tunnel.worker = none)
    (hc : w.tunnel.control = some ⟨restarts, .tearing⟩) : w.CanReturn := by
  have hsome : w.tunnel.control.isSome = true := by rw [hc]; rfl
  induction hlength : w.tunnel.sends.length using Nat.strong_induction_on generalizing w with
  | _ n ih =>
    cases hsends : w.tunnel.sends with
    | nil =>
      have hfree : w.tunnel.isLocked = false := by
        simp [Tunnel.isLocked, hw, hc, hsends, ControlPhase.holdsLock]
      obtain ⟨t', hstep, hnone | ⟨s, hstopping⟩⟩ := Tunnel.step_locked .zero hc hfree
      · exact canReturn_of_step hsome hstep (by simp) (canReturn_of_none hnone)
      · exact canReturn_of_step hsome hstep (by simp) (canReturn_of_stopping hstopping)
    | cons p sends =>
      obtain ⟨now, s, hstep⟩ := Tunnel.exists_step_dropSend hsends
      refine canReturn_of_step hsome hstep (by simp) (ih _ ?_ hw hc hsome rfl)
      rw [← hlength, hsends, Tunnel.dropSend]
      dsimp only
      rw [hsends, List.filter_cons_of_neg (by simp)]
      exact Nat.lt_succ_of_le (List.length_filter_le _ sends)

/-- **A call can come to its end** wherever it is: each of its waits is bounded. -/
theorem Sound.canReturn (h : w.Sound) : w.CanReturn := by
  cases hc : w.tunnel.control with
  | none => exact canReturn_of_none hc
  | some c =>
    obtain ⟨restarts, phase⟩ := c
    cases phase with
    | stopping s => exact canReturn_of_stopping hc
    | tearing => exact canReturn_of_tearing (h.kept.alone _ hc rfl) hc
    | joining since =>
      have hstep := Tunnel.step_aborted hc (Duration.le_refl _)
      exact canReturn_of_step (by rw [hc]; rfl) hstep (by simp) (canReturn_of_tearing rfl rfl)

/-! ## Configuring -/

theorem neverChanges_of_isPending {moves : List Move} (h : w.isPending moves = true) :
    w.neverChanges moves = true := by
  induction moves generalizing w with
  | nil => rfl
  | cons m moves ih =>
    rw [isPending, Bool.and_eq_true] at h
    rw [neverChanges, isChanging_of_isSome h.1, ih h.2]
    rfl

/-- The first step of the call: the four texts are those that are stored, and nothing changes, or
they are stored, and an enabled tunnel is to start over. -/
theorem next_configure (hc : w.tunnel.control = none) (now : Duration)
    (baseUrl deviceId authToken tunnelKey : String) :
    let e : TunnelEvent := .configure baseUrl deviceId authToken tunnelKey
    let wanted := (baseUrl, deviceId, authToken, tunnelKey)
    let called := w.next (.event now e)
    (w.tunnel.config.dialed = wanted ∧ called = w ∧
      w.tunnel.step now e = some (called.tunnel, [.configured false])) ∨
    (w.tunnel.config.dialed ≠ wanted ∧ called.tunnel.config.dialed = wanted ∧
      w.tunnel.step now e = some (called.tunnel, [.configured true]) ∧
      (w.tunnel.enabled = true → ∃ phase, called.tunnel.control = some ⟨true, phase⟩)) := by
  obtain ⟨⟨t, seen⟩, hstep⟩ := Option.isSome_iff_exists.mp
    (Tunnel.isSome_step_of_call (e := .configure baseUrl deviceId authToken tunnelKey) now rfl hc)
  have hnext : w.next (.event now (.configure baseUrl deviceId authToken tunnelKey)) =
      { w with tunnel := t } := next_of_step (by simp) hstep
  dsimp only
  rw [hnext, hstep]
  cases Tunnel.called_of_step rfl hstep with
  | agrees _ _ _ _ _ _ hsame => exact .inl ⟨(congrArg TunnelConfig.dialed hsame).symm, rfl, rfl⟩
  | stores _ _ _ _ _ _ hdiffers hoff =>
    refine .inr ⟨TunnelConfig.dialDiffers_iff.mp hdiffers, rfl, rfl, fun hon => ?_⟩
    cases hoff.symm.trans hon
  | restarts _ _ _ _ _ _ hdiffers _ =>
    refine .inr ⟨TunnelConfig.dialDiffers_iff.mp hdiffers, ?_, rfl, fun _ => ?_⟩
    · exact congrArg (·.config.dialed) (Tunnel.settings_startStopping _ true now)
    · obtain ⟨-, heq⟩ | ⟨worker, -, heq⟩ := Tunnel.startStopping_cases _ true now
      · exact ⟨_, by rw [heq]⟩
      · exact ⟨_, by rw [heq]⟩

/-- Once no call is under way that starts the worker over, whoever dials does so with the texts that
are stored. -/
theorem Sound.dials_with (h : w.Sound) (hcurrent : w.tunnel.Current)
    (hfree : w.tunnel.isRestarting = false) :
    (∀ a, w.tunnel.attempt? = some a →
      a.config.dialed = w.tunnel.config.dialed ∧ dialUrl a.config = .ok a.url) ∧
    ∀ m, w.isDial m = true → ∃ a, w.tunnel.attempt? = some a ∧
      ∀ tr, (w.next m).tunnel.transport = some tr →
        tr.client.config.map ClientConfig.uri = some a.url := by
  refine ⟨fun a ha => ⟨hcurrent.dialed a ha hfree, hcurrent.url a ha⟩, fun m hm => ?_⟩
  obtain ⟨now, a, permit, worker, hworker, hphase, hnext⟩ := next_of_isDial hm
  have hdown := h.kept.isDown_of_isIdle hworker (by rw [hphase]; rfl)
  refine ⟨a, by rw [Tunnel.attempt?_eq hworker, hphase]; rfl, fun tr htr => ?_⟩
  rw [hnext] at htr
  obtain ⟨client, hbegin, heq⟩ | heq := w.tunnel.install_cases a
  · rw [heq] at htr
    cases htr
    rw [OutboundClient.config_begin hbegin]
    rfl
  · rw [heq] at htr
    cases hdown.1.symm.trans htr

/-- **Configuring is exact.** Take any order of the steps of a tunnel, of its clients and of their
callbacks, and a call that configures the tunnel with four texts and begins where no other call is
under way. It tells that it changed them just if one of them differs from what is stored, and
changes nothing at all otherwise. If it did and the tunnel is enabled, the call can come to its end;
and whenever it does, no worker and no installed transport were left right before, at its end there
is a worker that has yet to look at the configuration, at a tunnel that is disconnected, and each
transport that was installed in the meantime was told to stop and taken out. From the return on
until a call begins that changes the texts, whatever snapshot a worker has holds the four texts,
and every dial goes to the URL that they give. -/
theorem configure_exact (label : String) (options : TunnelOptions) (before : List Move)
    (now : Duration) (baseUrl deviceId authToken tunnelKey : String) :
    let w := (new label options).run before
    let e : TunnelEvent := .configure baseUrl deviceId authToken tunnelKey
    let wanted := (baseUrl, deviceId, authToken, tunnelKey)
    let called := w.next (.event now e)
    w.tunnel.control = none →
    (∃ changed, w.tunnel.step now e = some (called.tunnel, [.configured changed]) ∧
      (changed = true ↔ w.tunnel.config.dialed ≠ wanted)) ∧
    (w.tunnel.config.dialed = wanted → called = w) ∧
    (w.tunnel.config.dialed ≠ wanted → w.tunnel.enabled = true →
      called.CanReturn ∧
      ∀ call last, called.isPending (call ++ [last]) = true →
        (called.run (call ++ [last])).tunnel.control = none →
        (called.run call).tunnel.worker = none ∧ (called.run call).tunnel.transport = none ∧
        (called.run (call ++ [last])).tunnel.Restarted ∧
        ∀ call₁ call₂ tr, call = call₁ ++ call₂ →
          (called.run call₁).tunnel.transport = some tr →
          ∃ moves₁ moves₂, call₂ = moves₁ ++ moves₂ ∧
            (called.run (call₁ ++ moves₁)).tunnel.ToldToStop tr.generation) ∧
    ∀ call during, called.isPending call = true → (called.run call).tunnel.control = none →
      (called.run call).neverChanges during = true →
      let v := (called.run call).run during
      (∀ a, v.tunnel.attempt? = some a →
        a.config.dialed = wanted ∧ dialUrl a.config = .ok a.url) ∧
      ∀ m, v.isDial m = true → ∃ a, v.tunnel.attempt? = some a ∧
        ∀ tr, (v.next m).tunnel.transport = some tr →
          tr.client.config.map ClientConfig.uri = some a.url := by
  intro w e wanted called hbegins
  have hsound : w.Sound := (sound_new label options).run before
  have hcurrent : w.tunnel.Current :=
    (sound_new label options).run_current (Tunnel.current_new label options) before
  have hcalled : called.Sound := hsound.next (.event now e)
  have hcalledCurrent : called.tunnel.Current := hsound.next_current hcurrent (.event now e)
  have hconfigured := next_configure hbegins now baseUrl deviceId authToken tunnelKey
  have hstored : called.tunnel.config.dialed = wanted := by
    obtain ⟨hsame, hnext, -⟩ | ⟨-, hstored, -⟩ := hconfigured
    · exact (congrArg (·.tunnel.config.dialed) hnext).trans hsame
    · exact hstored
  refine ⟨?_, fun hsame => ?_, fun hdiffers hon => ⟨hcalled.canReturn, ?_⟩, ?_⟩
  · obtain ⟨hsame, -, hstep⟩ | ⟨hdiffers, -, hstep, -⟩ := hconfigured
    · exact ⟨false, hstep, by simp [hsame, wanted]⟩
    · exact ⟨true, hstep, by simpa using hdiffers⟩
  · obtain ⟨-, hnext, -⟩ | ⟨hdiffers, -⟩ := hconfigured
    · exact hnext
    · exact absurd hsame hdiffers
  · intro call last hpending hreturned
    obtain ⟨hsame, -⟩ | ⟨-, -, -, hrestarts⟩ := hconfigured
    · exact absurd hsame hdiffers
    · obtain ⟨phase, hc⟩ := hrestarts hon
      obtain ⟨hw, htr, hrestarted⟩ := hcalled.restarted_of_returned hc hpending hreturned
      refine ⟨hw, htr, hrestarted, fun call₁ call₂ tr hsplit hinstalled => ?_⟩
      rw [hsplit, run_append] at htr
      obtain ⟨moves₁, moves₂, hmoves, htold⟩ :=
        (hcalled.run call₁).told_and_removed hinstalled htr
      exact ⟨moves₁, moves₂, hmoves, by rw [run_append]; exact htold⟩
  · intro call during hpending hreturned hnever v
    have hcall := neverChanges_of_isPending hpending
    have hfree := (hcalled.run call).run_isRestarting hnever
      (Tunnel.isRestarting_of_none hreturned)
    have hv : v.tunnel.config.dialed = wanted :=
      ((hcalled.run call).run_dialed hnever).trans ((hcalled.run_dialed hcall).trans hstored)
    have hvcurrent : v.tunnel.Current :=
      (hcalled.run call).run_current (hcalled.run_current hcalledCurrent call) during
    rw [← hv]
    exact ((hcalled.run call).run during).dials_with hvcurrent hfree

/-- A tunnel that is dialing gets another device id. Its worker stops the client and ends, the call
returns, and the next worker dials with the new id. -/
theorem configure_exact_redialed :
    let before : List Move :=
      [.event .zero (.configure "wss://broker.example" "pier-1" "" "ws_control"),
       .event .zero (.setEnabled true), .event .zero (.worker .look),
       .event .zero (.worker (.passed true)), .event .zero (.worker .locked)]
    let call : List Move :=
      [.event .zero (.worker .stopped), .event .zero (.worker .locked),
       .event .zero (.network 1 0 .start), .event .zero (.network 1 0 .stopped),
       .event .zero (.worker .joined), .event .zero (.control .joined)]
    let last : Move := .event .zero (.control .locked)
    let during : List Move := [.event .zero (.worker .look), .event .zero (.worker (.passed true))]
    let dial : Move := .event .zero (.worker .locked)
    let w := (new "/ws/control" .usual).run before
    let called :=
      w.next (.event .zero (.configure "wss://broker.example" "pier-2" "" "ws_control"))
    let v := (called.run (call ++ [last])).run during
    w.tunnel.control = none ∧ w.tunnel.enabled = true ∧
      w.tunnel.config.dialed ≠ ("wss://broker.example", "pier-2", "", "ws_control") ∧
      called.isPending (call ++ [last]) = true ∧
      (called.run (call ++ [last])).tunnel.control = none ∧
      (called.run (call ++ [last])).neverChanges during = true ∧ v.isDial dial = true ∧
      (v.next dial).tunnel.transport.isSome = true ∧
      (called.run (call ++ [last])).tunnel.Restarted ∧
      ∃ a, v.tunnel.attempt? = some a ∧ ∀ tr, (v.next dial).tunnel.transport = some tr →
        tr.client.config.map ClientConfig.uri = some a.url := by
  dsimp only
  refine ⟨by decide +kernel, by decide +kernel, by decide +kernel, by decide +kernel,
    by decide +kernel, by decide +kernel, by decide +kernel, by decide +kernel, ?_, ?_⟩
  · exact ((configure_exact "/ws/control" .usual _ .zero _ _ _ _ (by decide +kernel)).2.2.1
      (by decide +kernel) (by decide +kernel)).2 _ _ (by decide +kernel)
        (by decide +kernel) |>.2.2.1
  · exact ((configure_exact "/ws/control" .usual _ .zero _ _ _ _ (by decide +kernel)).2.2.2 _ _
      (by decide +kernel) (by decide +kernel) (by decide +kernel)).2 _ (by decide +kernel)

end Watched

end DeviceRelay
