import DeviceRelay.Proofs.Tunnel.Generations
import DeviceRelay.Proofs.Tunnel.Moves
import DeviceRelay.Proofs.Tunnel.Settings

/-!
# Disabled tunnels

A call that disables a tunnel waits for its worker or aborts it wherever that waits, and takes the
transport out. While the call is under way, nothing that ends it starts a worker; from its return on
nothing is at work. Only a call that enables the tunnel changes that: no other gives a tunnel that
is not enabled a worker, without a worker nobody dials, and what old clients still tell belongs to
earlier generations.

* `Tunnel.Disabled`: while the call is under way, and after it.
* `Tunnel.Off`: from its return on.
* `Watched.neverEnabled`: moves without a call that enables the tunnel.
* `Watched.disabled_until_enabled`: the tunnel stays off until then.
-/

namespace DeviceRelay

namespace Tunnel

variable {t t' : Tunnel} {now : Duration} {e : TunnelEvent} {w : Worker} {c : ControlTask}

/-- A tunnel that is not enabled. The call under way starts no worker at its end, and without a
call there is none. -/
structure Disabled (t : Tunnel) : Prop where
  disabled : t.enabled = false
  final : ∀ c, t.control = some c → c.restarts = false
  idle : t.control = none → t.worker = none

/-- A tunnel that is not enabled and at which nothing is at work: at most one more call that
disables it. -/
structure Off (t : Tunnel) : Prop where
  disabled : t.enabled = false
  idle : t.worker = none
  down : t.IsDown
  final : ∀ c, t.control = some c → c = ⟨false, .tearing⟩

/-! ## While a tunnel is being disabled -/

theorem finishControl_of_final (t : Tunnel) (h : c.restarts = false) :
    t.finishControl c = { t with control := none } := by
  unfold finishControl
  rw [h]
  rfl

/-- The first step of a call that disables the tunnel. -/
theorem disabled_startStopping (hoff : t.enabled = false) (now : Duration) :
    (t.startStopping false now).Disabled := by
  obtain ⟨hw, heq⟩ | ⟨w, hw, heq⟩ := t.startStopping_cases false now <;> rw [heq]
  · exact ⟨hoff, fun c hc => by cases hc; rfl, nofun⟩
  · exact ⟨hoff, fun c hc => by cases hc; rfl, nofun⟩

theorem Disabled.call (h : t.Disabled) {config : TunnelConfig}
    (hmoved : CallMoved t now config false t') : t'.Disabled := by
  cases hmoved with
  | sets => exact ⟨rfl, h.final, h.idle⟩
  | spawns hc hon => cases hon
  | stops restarts hc hr =>
    subst hr
    exact disabled_startStopping rfl now

/-- A call that is over leaves no worker, for it was done with the worker before. -/
theorem Disabled.control (h : t.Disabled) (hkept : t.Kept) (hc : t.control = some c)
    (hmoved : ControlMoved t c now t') : t'.Disabled := by
  have hfinal : c.restarts = false := h.final c hc
  cases hmoved with
  | joins since hp | aborts since hp =>
    exact ⟨h.disabled, fun c' hc' => by cases hc'; exact hfinal, nofun⟩
  | takes tr hp htr => exact ⟨h.disabled, fun c' hc' => by cases hc'; exact hfinal, nofun⟩
  | finds hp htr =>
    have hw : t.worker = none := hkept.alone c hc (by rw [hp]; rfl)
    rw [finishControl_of_final _ hfinal]
    exact ⟨h.disabled, fun _ hsome => (by cases hsome), fun _ => hw⟩
  | stops s hp =>
    have hw : t.worker = none := hkept.alone c hc (by rw [hp]; rfl)
    rw [finishControl_of_final _ hfinal]
    exact ⟨h.disabled, fun _ hsome => (by cases hsome), fun _ => hw⟩

/-- A worker that has not ended yet does so beside the call that waits for it. -/
theorem Disabled.of_worker (h : t.Disabled) (hw : t.worker = some w)
    (hoff : t'.enabled = t.enabled) (hcontrol : t'.control = t.control) : t'.Disabled := by
  refine ⟨hoff.trans h.disabled, hcontrol ▸ h.final, fun hc => ?_⟩
  rw [h.idle (hcontrol.symm.trans hc)] at hw
  cases hw

theorem Disabled.worker (h : t.Disabled) (hw : t.worker = some w)
    (hmoved : WorkerMoved t w now t') : t'.Disabled := by
  cases hmoved with
  | dials a permit hp =>
    obtain ⟨hsettings, hcontrol⟩ := settings_install t a
    exact h.of_worker hw (congrArg TunnelSettings.enabled hsettings) hcontrol
  | waits | takes | finds | stops => exact h.of_worker hw rfl rfl

theorem Disabled.moved (h : t.Disabled) (hkept : t.Kept) (hmoved : Moved t now e t')
    (he : ∀ generation task s, e ≠ .network generation task s)
    (hoff : e.enables t.enabled = false) : t'.Disabled := by
  cases hmoved with
  | call _ hmoved =>
    rw [hoff] at hmoved
    exact h.call hmoved
  | control c hc hmoved => exact h.control hkept hc hmoved
  | worker w hw hmoved => exact h.worker hw hmoved
  | network _ => exact absurd rfl (he _ _ _)
  | send hsent | sending hsent =>
    cases hsent
    exact ⟨h.disabled, h.final, h.idle⟩

theorem Disabled.putTransport (h : t.Disabled) (tr : Transport) :
    (t.putTransport tr).Disabled where
  disabled := h.disabled
  final c' hc' := by
    obtain ⟨c, hc, rfl⟩ := Option.map_eq_some_iff.mp hc'
    have hfinal := h.final c hc
    cases hp : c.phase <;> simpa [hp] using hfinal
  idle hc' := by
    have hw := h.idle (Option.map_eq_none_iff.mp hc')
    simp [Tunnel.putTransport, hw]

/-- Where the call has returned, nothing is at work. -/
theorem Disabled.off (h : t.Disabled) (hkept : t.Kept) (hc : t.control = none) : t.Off where
  disabled := h.disabled
  idle := h.idle hc
  down := hkept.isDown_of_none (h.idle hc) hc
  final c hsome := by rw [hc] at hsome; cases hsome

/-! ## Once a tunnel is off -/

theorem Off.call (h : t.Off) {config : TunnelConfig} (hmoved : CallMoved t now config false t') :
    t'.Off := by
  cases hmoved with
  | sets => exact ⟨rfl, h.idle, h.down, h.final⟩
  | spawns hc hon => cases hon
  | stops restarts hc hr =>
    subst hr
    obtain ⟨hw, heq⟩ | ⟨w, hw, heq⟩ :=
      ({ t with config := config, enabled := false } : Tunnel).startStopping_cases false now
    · rw [heq]
      exact ⟨rfl, h.idle, h.down, fun c hc => by cases hc; rfl⟩
    · cases h.idle.symm.trans hw

/-- The call finds nothing to wait for, and returns. -/
theorem Off.control (h : t.Off) (hc : t.control = some c) (hmoved : ControlMoved t c now t') :
    t'.Off := by
  obtain rfl := h.final c hc
  cases hmoved with
  | finds hp htr =>
    rw [finishControl_of_final _ rfl]
    exact ⟨h.disabled, h.idle, ⟨htr, rfl⟩, fun _ hsome => by cases hsome⟩
  | takes tr hp htr => cases h.down.1.symm.trans htr
  | joins since hp | aborts since hp => cases hp
  | stops s hp => cases hp

theorem Off.moved (h : t.Off) (hmoved : Moved t now e t')
    (he : ∀ generation task s, e ≠ .network generation task s)
    (hoff : e.enables t.enabled = false) : t'.Off := by
  cases hmoved with
  | call _ hmoved =>
    rw [hoff] at hmoved
    exact h.call hmoved
  | control c hc hmoved => exact h.control hc hmoved
  | worker w hw hmoved => cases h.idle.symm.trans hw
  | network _ => exact absurd rfl (he _ _ _)
  | send hsent | sending hsent =>
    cases hsent
    exact ⟨h.disabled, h.idle, ⟨by simp [h.down.1], h.down.2⟩, h.final⟩

theorem Off.putTransport (h : t.Off) (tr : Transport) : (t.putTransport tr).Off where
  disabled := h.disabled
  idle := by simp [Tunnel.putTransport, h.idle]
  down := ⟨by simp [Tunnel.putTransport, h.down.1], h.down.2⟩
  final c' hc' := by
    obtain ⟨c, hc, rfl⟩ := Option.map_eq_some_iff.mp hc'
    obtain rfl := h.final c hc
    rfl

/-- A send is refused at once. -/
theorem Off.step_send (h : t.Off) {ticket : Nat} (hfresh : ∀ s ∈ t.sends, s.ticket ≠ ticket)
    (f : Frame) (now : Duration) :
    t.step now (.send ticket f) = some (t, [.sent ticket (.error .invalidState)]) := by
  have hany : (t.sends.any fun s => s.ticket = ticket) = false := by
    simpa [List.any_eq_false] using hfresh
  simp [step, hany, startSend, checkSendable, h.disabled]

/-- A send that was begun earlier ends without a trace. -/
theorem Off.step_sending (h : t.Off) {ticket : Nat} {s : SendStep} {seen : List TunnelEffect}
    (hstep : t.step now (.sending ticket s) = some (t', seen)) :
    t' = t.dropSend ticket ∧ ∃ err, seen = [.sent ticket (.error err)] := by
  obtain ⟨p, -, rfl, result, hmoved, rfl⟩ := step_sending_cases hstep
  cases hmoved with
  | queues tr htr hq => cases h.down.1.symm.trans htr
  | fails err => exact ⟨rfl, err, rfl⟩
  | waits giveUpAt htr => rw [h.down.1] at htr; cases htr

end Tunnel

namespace Watched

variable {w : Watched} {m : Move}

/-- Whether a move begins a call that enables the tunnel. While another call is under way, it does
not begin. -/
def isEnabling (w : Watched) : Move → Bool
  | .event _ (.setEnabled true) => w.tunnel.control.isNone
  | _ => false

/-- No move begins a call that enables the tunnel. -/
def neverEnabled (w : Watched) : List Move → Bool
  | [] => true
  | m :: moves => !w.isEnabling m && (w.next m).neverEnabled moves

theorem neverEnabled_append (w : Watched) (moves more : List Move) :
    w.neverEnabled (moves ++ more) = (w.neverEnabled moves && (w.run moves).neverEnabled more) := by
  induction moves generalizing w with
  | nil => rfl
  | cons m moves ih =>
    have hrun : w.run (m :: moves) = (w.next m).run moves := rfl
    rw [List.cons_append, neverEnabled, neverEnabled, ih, hrun, Bool.and_assoc]

/-- A step that does not begin such a call leaves a disabled tunnel disabled. -/
theorem enables_eq_false {now : Duration} {e : TunnelEvent} {t : Tunnel}
    {seen : List TunnelEffect} (hm : w.isEnabling (.event now e) = false)
    (hstep : w.tunnel.step now e = some (t, seen)) (hoff : w.tunnel.enabled = false) :
    e.enables w.tunnel.enabled = false := by
  cases e with
  | setEnabled on =>
    cases on with
    | false => rfl
    | true =>
      cases Tunnel.called_of_step rfl hstep with
      | enables hc => simp [isEnabling, hc] at hm
      | agrees _ _ _ _ he | stores _ _ _ _ he | restarts _ _ _ _ he => cases he
  | _ => exact hoff

theorem Sound.next_disabled (h : w.Sound) (hd : w.tunnel.Disabled)
    (hm : w.isEnabling m = false) : (w.next m).tunnel.Disabled := by
  have hchanged := h.changed m
  generalize (w.next m).tunnel = t at hchanged ⊢
  cases hchanged with
  | stays => exact hd
  | steps he hstep =>
    exact hd.moved h.kept (Tunnel.step_cases hstep) he (enables_eq_false hm hstep hd.disabled)
  | client hfind hstep => exact hd.putTransport _
  | hears htr state uiConnected record => exact ⟨hd.disabled, hd.final, hd.idle⟩

theorem Sound.next_off (h : w.Sound) (hoff : w.tunnel.Off) (hm : w.isEnabling m = false) :
    (w.next m).tunnel.Off := by
  have hchanged := h.changed m
  generalize (w.next m).tunnel = t at hchanged ⊢
  cases hchanged with
  | stays => exact hoff
  | steps he hstep =>
    exact hoff.moved (Tunnel.step_cases hstep) he (enables_eq_false hm hstep hoff.disabled)
  | client hfind hstep => exact hoff.putTransport _
  | hears htr state uiConnected record =>
    -- what is due for the current generation is told by an installed transport
    rw [hoff.down.1] at htr
    cases htr

theorem Sound.run_disabled (h : w.Sound) (hd : w.tunnel.Disabled) {moves : List Move}
    (hnever : w.neverEnabled moves = true) : (w.run moves).tunnel.Disabled := by
  induction moves generalizing w with
  | nil => exact hd
  | cons m moves ih =>
    rw [neverEnabled, Bool.and_eq_true, Bool.not_eq_true'] at hnever
    exact ih (h.next m) (h.next_disabled hd hnever.1) hnever.2

theorem Sound.run_off (h : w.Sound) (hoff : w.tunnel.Off) {moves : List Move}
    (hnever : w.neverEnabled moves = true) : (w.run moves).tunnel.Off := by
  induction moves generalizing w with
  | nil => exact hoff
  | cons m moves ih =>
    rw [neverEnabled, Bool.and_eq_true, Bool.not_eq_true'] at hnever
    exact ih (h.next m) (h.next_off hoff hnever.1) hnever.2

/-- A call that disables the tunnel begins wherever no call is under way. -/
theorem disabled_next_setEnabled (hc : w.tunnel.control = none) (now : Duration) :
    (w.next (.event now (.setEnabled false))).tunnel.Disabled := by
  have hnext : (w.next (.event now (.setEnabled false))).tunnel =
      ({ w.tunnel with enabled := false } : Tunnel).startStopping false now := by
    simp [next, Tunnel.step, Tunnel.setEnabled, hc]
  rw [hnext]
  exact Tunnel.disabled_startStopping rfl now

theorem isDial_of_idle (hidle : w.tunnel.worker = none) (m : Move) : w.isDial m = false := by
  rw [Bool.eq_false_iff]
  intro hdial
  obtain ⟨-, -, -, worker, -, hw, -⟩ := isDial_cases hdial
  cases hidle.symm.trans hw

/-- **Disabling is final until the tunnel is enabled again.** Take any order of the steps of a
tunnel, of its clients and of their callbacks, and in it a call that disables the tunnel; it begins
where no other call is under way, and has returned where none is under way again. Then, until a
call begins that enables the tunnel, there is no worker and no installed transport, the state is
disconnected and the flag of the remote page is not set; no dial starts; a send that is begun is
refused at once for the state of the tunnel, and changes nothing; and a send that was begun earlier
ends with an error at its next step, and is forgotten. -/
theorem disabled_until_enabled (label : String) (options : TunnelOptions)
    (before call during : List Move) (now : Duration) :
    let called := ((new label options).run before).next (.event now (.setEnabled false))
    let w := (called.run call).run during
    ((new label options).run before).tunnel.control = none →
    (called.run call).tunnel.control = none →
    called.neverEnabled (call ++ during) = true →
    w.tunnel.worker = none ∧ w.tunnel.transport = none ∧ w.tunnel.state = .disconnected ∧
    w.tunnel.uiConnected = false ∧
    (∀ m, w.isDial m = false) ∧
    (∀ now ticket f, (∀ s ∈ w.tunnel.sends, s.ticket ≠ ticket) →
      w.tunnel.step now (.send ticket f) =
        some (w.tunnel, [.sent ticket (.error .invalidState)])) ∧
    (∀ now ticket s t seen, w.tunnel.step now (.sending ticket s) = some (t, seen) →
      t = w.tunnel.dropSend ticket ∧ ∃ err, seen = [.sent ticket (.error err)]) := by
  intro called w hbegins hreturned hnever
  have hcalled : called.Sound :=
    ((sound_new label options).run before).next (.event now (.setEnabled false))
  rw [neverEnabled_append, Bool.and_eq_true] at hnever
  have hdisabled := hcalled.run_disabled (disabled_next_setEnabled hbegins now) hnever.1
  have hback : (called.run call).Sound := hcalled.run call
  have hoff : w.tunnel.Off := hback.run_off (hdisabled.off hback.kept hreturned) hnever.2
  refine ⟨hoff.idle, hoff.down.1, hoff.down.2, ?_, isDial_of_idle hoff.idle,
    fun now ticket f hfresh => hoff.step_send hfresh f now,
    fun now ticket s t seen hstep => hoff.step_sending hstep⟩
  cases hset : w.tunnel.uiConnected with
  | false => rfl
  | true =>
    have hup := (hback.run during).flag hset
    rw [hoff.down.2] at hup
    cases hup

/-- The worker is aborted while it stops its client, and the call returns with that client still
running. A configuration, a callback of the old session and a send that had been waiting come after
that. -/
theorem disabled_until_enabled_aborted :
    let before : List Move :=
      [.event .zero (.configure "wss://broker.example" "pier-1" "" "ws_control"),
       .event .zero (.setEnabled true), .event .zero (.worker .look),
       .event .zero (.worker (.passed true)), .event .zero (.worker .locked),
       .event .zero (.network 1 0 .start), .event .zero (.network 1 0 .dialed), .callback .zero 1,
       .event .zero (.send 7 (.text "late"))]
    let call : List Move :=
      [.event .zero (.worker .stopped), .event .zero (.worker .locked),
       .event (.ofSeconds 3) (.control .aborted), .event (.ofSeconds 3) (.control .locked)]
    let during : List Move :=
      [.event (.ofSeconds 3) (.configure "wss://broker.example" "pier-2" "" "ws_control"),
       .event (.ofSeconds 3) (.network 1 0 .stopped),
       .event (.ofSeconds 3) (.network 1 0 .saidGoodbye), .callback (.ofSeconds 3) 1]
    let called := ((new "/ws/control" .usual).run before).next (.event .zero (.setEnabled false))
    let w := (called.run call).run during
    ((new "/ws/control" .usual).run before).tunnel.control = none ∧
      (called.run call).tunnel.control = none ∧ called.neverEnabled (call ++ during) = true ∧
      ((new "/ws/control" .usual).run before).tunnel.state = .connected ∧
      w.tunnel.abandoned.length = 1 ∧ w.tunnel.sends.length = 1 ∧ ∀ m, w.isDial m = false := by
  dsimp only
  refine ⟨by decide +kernel, by decide +kernel, by decide +kernel, by decide +kernel,
    by decide +kernel, by decide +kernel, ?_⟩
  exact (disabled_until_enabled "/ws/control" .usual _ _ _ .zero (by decide +kernel)
    (by decide +kernel) (by decide +kernel)).2.2.2.2.1

end Watched

end DeviceRelay
