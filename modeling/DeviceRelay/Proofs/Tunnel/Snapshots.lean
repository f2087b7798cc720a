import DeviceRelay.Proofs.Tunnel.Disabling

/-!
# What a worker dials with

A worker takes a snapshot of the configuration at the head of its loop and dials with it, while the
configuration may change. Whoever changes the four texts that are dialed with has no worker beside
it, or a call under way at whose end no worker with an old snapshot is left.

* `TunnelConfig.dialed`: the four texts.
* `Tunnel.attempt?`: the snapshot that the worker has.
* `Tunnel.Drafted`: what a step does to it.
* `Tunnel.Current`: the snapshot agrees with what is stored, unless a call starts the worker over.
-/

namespace DeviceRelay

/-- The four texts that are dialed with. -/
def TunnelConfig.dialed (c : TunnelConfig) : String × String × String × String :=
  (c.baseUrl, c.deviceId, c.authToken, c.tunnelKey)

theorem TunnelConfig.dialDiffers_iff {a b : TunnelConfig} :
    a.dialDiffers b = true ↔ a.dialed ≠ b.dialed := by
  simp only [dialDiffers, Bool.or_eq_true, bne_iff_ne, dialed, ne_eq, Prod.mk.injEq]
  tauto

/-- The snapshot that a worker in this phase dials or has dialed with. -/
def WorkerPhase.attempt? : WorkerPhase → Option Attempt
  | .queueing a | .installing a _ | .connecting a _ _ | .holding a _ _ | .tearing a _
  | .stopping a _ _ | .resting a _ _ => some a
  | .starting | .pausing _ | .finished => none

namespace Tunnel

variable {t t' : Tunnel} {now : Duration} {e : TunnelEvent} {w : Worker} {c : ControlTask}
  {seen : List TunnelEffect}

/-- The snapshot that the worker dials or has dialed with. -/
def attempt? (t : Tunnel) : Option Attempt := t.worker.bind (·.phase.attempt?)

/-- Whether a call is under way that starts the worker over. -/
def isRestarting (t : Tunnel) : Bool := t.control.any (·.restarts)

/-- What a step does to the worker's snapshot. -/
inductive Drafted (t t' : Tunnel) : Prop where
  | drops (h : t'.attempt? = none)
  | keeps (h : t'.attempt? = t.attempt?) (hconfig : t'.config.dialed = t.config.dialed)
      (hr : t'.isRestarting = false → t.isRestarting = false)
  /-- A call begins that starts the worker over. -/
  | restarts (h : t'.attempt? = t.attempt?) (hr : t'.isRestarting = true)
  /-- The worker takes a snapshot. -/
  | looks (url : String) (h : t'.attempt? = some ⟨t.config, url⟩)
      (hurl : dialUrl t.config = .ok url) (hconfig : t'.config = t.config)

theorem attempt?_eq (h : t.worker = some w) : t.attempt? = w.phase.attempt? := by
  simp [attempt?, h]

theorem attempt?_of_none (h : t.worker = none) : t.attempt? = none := by
  simp [attempt?, h]

/-! ## Calls -/

theorem attempt?_startStopping (t : Tunnel) (restarts : Bool) (now : Duration) :
    (t.startStopping restarts now).attempt? = t.attempt? ∧
      (t.startStopping restarts now).isRestarting = restarts := by
  obtain ⟨-, heq⟩ | ⟨w, hw, heq⟩ := t.startStopping_cases restarts now
  · rw [heq]
    exact ⟨rfl, rfl⟩
  · rw [heq, attempt?_eq hw]
    exact ⟨rfl, rfl⟩

/-- A worker that is started has yet to look at the configuration. -/
theorem attempt?_spawnWorker (t : Tunnel) :
    t.spawnWorker.attempt? = none ∨ t.spawnWorker = t := by
  obtain ⟨w, -, heq⟩ | ⟨w', hw', -, heq⟩ := t.spawnWorker_cases
  · exact .inr heq
  · rw [heq, attempt?_eq rfl, hw']
    exact .inl rfl

theorem attempt?_finishControl (h : t.worker = none) (c : ControlTask) :
    (t.finishControl c).attempt? = none := by
  unfold finishControl
  split
  · obtain hnone | heq := attempt?_spawnWorker { t with control := none }
    · exact hnone
    · rw [heq]
      exact attempt?_of_none h
  · exact attempt?_of_none h

theorem isRestarting_of_none (h : t.control = none) : t.isRestarting = false := by
  simp [isRestarting, h]

theorem drafted_called (hdisabled : t.enabled = false → t.Disabled)
    (h : Called t now e t' seen) : Drafted t t' := by
  cases h with
  | times | agrees => exact .keeps rfl rfl id
  | stores _ _ _ _ _ hc _ hoff =>
    exact .drops (attempt?_of_none ((hdisabled hoff).idle hc))
  | restarts =>
    obtain ⟨hattempt, hr⟩ := attempt?_startStopping { t with config := e.configured t.config } true
      now
    exact .restarts hattempt hr
  | enables hc =>
    obtain hnone | heq := attempt?_spawnWorker { t with enabled := true }
    · exact .drops hnone
    · rw [heq]
      exact .keeps rfl rfl id
  | disables hc =>
    obtain ⟨hattempt, -⟩ := attempt?_startStopping { t with enabled := false } false now
    have hsettings := ({ t with enabled := false } : Tunnel).settings_startStopping false now
    exact .keeps hattempt (congrArg (·.config.dialed) hsettings) fun _ => isRestarting_of_none hc

theorem drafted_control (hkept : t.Kept) (hc : t.control = some c)
    (h : ControlMoved t c now t') : Drafted t t' := by
  cases h with
  | joins | aborts => exact .drops (attempt?_of_none rfl)
  | takes tr hp htr =>
    exact .drops (attempt?_of_none (hkept.alone c hc (by rw [hp]; rfl)))
  | finds hp htr | stops s hp =>
    have hw : t.worker = none := hkept.alone c hc (by rw [hp]; rfl)
    exact .drops (attempt?_finishControl (by exact hw) c)

/-! ## The worker -/

theorem attempt?_afterAttempt (w : Worker) (a : Attempt) (now held : Duration) :
    (afterAttempt w a now held).phase.attempt? = none ∨
      (afterAttempt w a now held).phase.attempt? = some a := by
  unfold afterAttempt
  split
  · exact .inl rfl
  · exact .inr rfl

theorem attempt?_look (t : Tunnel) (w : Worker) (now : Duration) :
    (look t w now).phase.attempt? = none ∨
      ∃ url, dialUrl t.config = .ok url ∧
        (look t w now).phase.attempt? = some ⟨t.config, url⟩ := by
  unfold look
  split
  · exact .inl rfl
  · dsimp only
    split
    · exact .inl rfl
    · split
      case h_1 url hurl => exact .inr ⟨url, hurl, rfl⟩
      case h_2 => exact .inl rfl

theorem attempt?_noticeStop {w' : Worker} (h : noticeStop w now = some w') :
    w'.phase.attempt? = none ∨ w'.phase.attempt? = w.phase.attempt? := by
  unfold noticeStop at h
  cases hp : w.phase <;> simp only [hp, reduceCtorEq, Option.some.injEq] at h <;> subst h
  case pausing | resting => exact .inl rfl
  case queueing | connecting | holding => exact .inr rfl

theorem attempt?_wake {w' : Worker} (h : wake t w now = some w') :
    w'.phase.attempt? = none ∨ w'.phase.attempt? = w.phase.attempt? := by
  unfold wake at h
  cases hp : w.phase with
  | pausing wakeAt =>
    simp only [hp, Option.ite_none_right_eq_some, Option.some.injEq] at h
    obtain ⟨-, rfl⟩ := h
    exact .inl rfl
  | resting a since delay =>
    simp only [hp, Option.ite_none_right_eq_some, Option.some.injEq] at h
    obtain ⟨-, rfl⟩ := h
    exact .inl rfl
  | connecting a permit since =>
    simp only [hp, Option.ite_none_right_eq_some, Option.some.injEq] at h
    obtain ⟨-, rfl⟩ := h
    exact .inr rfl
  | holding a since pollAt =>
    simp only [hp] at h
    split at h
    · cases h
    · split at h <;> cases h <;> exact .inr (Eq.refl (some a))
  | _ => simp [hp] at h

/-- The worker is in another phase, and the tunnel has the configuration and the call that it
had. -/
theorem drafted_of_worker {w' : Worker} (hw : t.worker = some w) (hw' : t'.worker = some w')
    (hconfig : t'.config = t.config) (hcontrol : t'.control = t.control)
    (h : w'.phase.attempt? = none ∨ w'.phase.attempt? = w.phase.attempt?) : Drafted t t' := by
  obtain h | h := h
  · exact .drops ((attempt?_eq hw').trans h)
  · refine .keeps ?_ (by rw [hconfig]) fun hr => ?_
    · rw [attempt?_eq hw', attempt?_eq hw, h]
    · simpa only [isRestarting, hcontrol] using hr

theorem drafted_worker {s : WorkerStep} (hw : t.worker = some w)
    (h : WorkerActs t w now s t') : Drafted t t' := by
  cases h with
  | looks hp =>
    obtain hnone | ⟨url, hurl, hsome⟩ := attempt?_look t w now
    · exact .drops ((attempt?_eq rfl).trans hnone)
    · exact .looks url ((attempt?_eq rfl).trans hsome) hurl rfl
  | notices w' _ hw' => exact drafted_of_worker hw rfl rfl rfl (attempt?_noticeStop hw')
  | wakes w' hw' => exact drafted_of_worker hw rfl rfl rfl (attempt?_wake hw')
  | passes a permit hp => exact drafted_of_worker hw rfl rfl rfl (.inr (by rw [hp]; rfl))
  | installs a permit hp =>
    obtain ⟨hsettings, hcontrol⟩ := settings_install t a
    refine drafted_of_worker hw rfl (congrArg TunnelSettings.config hsettings) hcontrol (.inr ?_)
    rw [hp]
    dsimp only
    split <;> rfl
  | tears a held hp =>
    have hafter := attempt?_afterAttempt w a now held
    unfold tear
    cases htr : t.transport with
    | none =>
      rw [takeTransport_of_none htr]
      exact drafted_of_worker hw rfl rfl rfl (by rw [hp]; exact hafter)
    | some tr =>
      rw [takeTransport_of_some htr]
      exact drafted_of_worker hw rfl rfl rfl (.inr (by rw [hp]; rfl))
  | connects _ _ _ hp | releases _ _ hp =>
    exact drafted_of_worker hw rfl rfl rfl (.inr (by rw [hp]; rfl))
  | joins a held s hp | givesUp a held s hp =>
    have hafter := attempt?_afterAttempt w a now held
    exact drafted_of_worker hw rfl rfl rfl (by rw [hp]; exact hafter)

/-! ## What holds of the snapshot -/

/-- What the worker dials with is what is stored, unless a call is under way that starts the worker
over. A tunnel that is not enabled is left as a call that disables it leaves it. -/
structure Current (t : Tunnel) : Prop where
  disabled : t.enabled = false → t.Disabled
  url : ∀ a, t.attempt? = some a → dialUrl a.config = .ok a.url
  dialed : ∀ a, t.attempt? = some a → t.isRestarting = false → a.config.dialed = t.config.dialed

theorem current_new (label : String) (options : TunnelOptions) : (new label options).Current where
  disabled _ := ⟨rfl, fun _ hc => (by cases hc), fun _ => rfl⟩
  url _ h := by cases h
  dialed _ h := by cases h

theorem Current.drafted (h : t.Current) (hdisabled : t'.enabled = false → t'.Disabled)
    (hdrafted : Drafted t t') : t'.Current := by
  cases hdrafted with
  | drops hnone =>
    exact ⟨hdisabled, fun a ha => (by cases hnone.symm.trans ha),
      fun a ha => (by cases hnone.symm.trans ha)⟩
  | keeps hsame hconfig hr =>
    refine ⟨hdisabled, fun a ha => h.url a (hsame.symm.trans ha), fun a ha hfree => ?_⟩
    rw [hconfig]
    exact h.dialed a (hsame.symm.trans ha) (hr hfree)
  | restarts hsame hr =>
    refine ⟨hdisabled, fun a ha => h.url a (hsame.symm.trans ha), fun a ha hfree => ?_⟩
    cases hr.symm.trans hfree
  | looks url hsome hurl hconfig =>
    refine ⟨hdisabled, fun a ha => ?_, fun a ha _ => ?_⟩
    · cases hsome.symm.trans ha
      exact hurl
    · cases hsome.symm.trans ha
      rw [hconfig]

/-- A tunnel that an event leaves disabled was so before, or the event is the call that disables
it. -/
theorem Current.disabled_step (h : t.Current) (hkept : t.Kept)
    (he : ∀ generation task s, e ≠ .network generation task s)
    (hstep : t.step now e = some (t', seen)) (hoff : t'.enabled = false) : t'.Disabled := by
  have hmoved := step_cases hstep
  have henables : e.enables t.enabled = false := by
    have hsettings := congrArg TunnelSettings.enabled hmoved.settings
    exact hsettings.symm.trans hoff
  cases hon : t.enabled with
  | false => exact (h.disabled hon).moved hkept hmoved he henables
  | true =>
    rw [hon] at henables
    cases e with
    | setEnabled on =>
      cases called_of_step rfl hstep with
      | disables hc => exact disabled_startStopping rfl now
      | agrees _ _ _ _ he | stores _ _ _ _ he | restarts _ _ _ _ he => cases he
      | enables => cases henables
    | _ => cases henables

/-- **One event** that no client takes. -/
theorem Current.step (h : t.Current) (hkept : t.Kept)
    (he : ∀ generation task s, e ≠ .network generation task s)
    (hstep : t.step now e = some (t', seen)) : t'.Current := by
  refine h.drafted (h.disabled_step hkept he hstep) ?_
  cases e with
  | configure | setTiming | setEnabled => exact drafted_called h.disabled (called_of_step rfl hstep)
  | control s =>
    obtain ⟨t'', hs, heq⟩ := Option.map_eq_some_iff.mp hstep
    cases heq
    obtain ⟨c, hc, hmoved⟩ := controlStep_cases hs
    exact drafted_control hkept hc hmoved
  | worker s =>
    obtain ⟨t'', hs, heq⟩ := Option.map_eq_some_iff.mp hstep
    cases heq
    obtain ⟨w, hw, hacts⟩ := workerStep_acts hs
    exact drafted_worker hw hacts
  | network generation task s => exact absurd rfl (he generation task s)
  | send ticket f =>
    cases step_cases hstep with
    | call he => cases he
    | send hsent =>
      cases hsent
      exact .keeps rfl rfl id
  | sending ticket s =>
    cases step_cases hstep with
    | call he => cases he
    | sending hsent =>
      cases hsent
      exact .keeps rfl rfl id

theorem attempt?_putTransport (t : Tunnel) (tr : Transport) :
    (t.putTransport tr).attempt? = t.attempt? := by
  unfold attempt? Tunnel.putTransport
  cases t.worker with
  | none => rfl
  | some w =>
    obtain ⟨phase, _, _⟩ := w
    cases phase <;> rfl

theorem isRestarting_putTransport (t : Tunnel) (tr : Transport) :
    (t.putTransport tr).isRestarting = t.isRestarting := by
  unfold isRestarting Tunnel.putTransport
  cases t.control with
  | none => rfl
  | some c =>
    obtain ⟨restarts, phase⟩ := c
    cases phase <;> rfl

theorem Current.putTransport (h : t.Current) (tr : Transport) : (t.putTransport tr).Current :=
  h.drafted (fun hoff => (h.disabled hoff).putTransport tr)
    (.keeps (t.attempt?_putTransport tr) rfl fun hr => (t.isRestarting_putTransport tr).symm.trans hr)

end Tunnel

namespace Watched

variable {w : Watched}

theorem Sound.next_current (h : w.Sound) (hcurrent : w.tunnel.Current) (m : Move) :
    (w.next m).tunnel.Current := by
  have hchanged := h.changed m
  generalize (w.next m).tunnel = t at hchanged ⊢
  cases hchanged with
  | stays => exact hcurrent
  | steps he hstep => exact hcurrent.step h.kept he hstep
  | client hfind hstep => exact hcurrent.putTransport _
  | hears htr state uiConnected record =>
    exact hcurrent.drafted
      (fun hoff => ⟨hoff, (hcurrent.disabled hoff).final, (hcurrent.disabled hoff).idle⟩)
      (.keeps rfl rfl id)

theorem Sound.run_current (h : w.Sound) (hcurrent : w.tunnel.Current) (moves : List Move) :
    (w.run moves).tunnel.Current := by
  induction moves generalizing w with
  | nil => exact hcurrent
  | cons m moves ih => exact ih (h.next m) (h.next_current hcurrent m)

end Watched

end DeviceRelay
