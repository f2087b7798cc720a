import DeviceRelay.Proofs.Tunnel.Steps
import DeviceRelay.Tunnel.Progress

/-!
# The settings of tunnels

What a tunnel is configured with, and whether it is enabled, is its owner's: no step that a tunnel
takes by itself changes it. A call is under way at one tunnel at a time, and once it has returned,
the tunnel has just what the call says.

* `Tunnel.Moved.settings`: the settings after an event.
* `Fleet.Quiet`, `Fleet.QuietBut`: where no call is under way.
* `Fleet.settings_call`: the settings of all tunnels after a call.
-/

namespace DeviceRelay

/-- What the owner of a tunnel sets, with the endpoint that the tunnel serves. -/
structure TunnelSettings where
  label : String
  config : TunnelConfig
  enabled : Bool
  deriving DecidableEq, Repr

/-- Settings after an event. -/
def TunnelSettings.after (s : TunnelSettings) (e : TunnelEvent) : TunnelSettings where
  label := s.label
  config := e.configured s.config
  enabled := e.enables s.enabled

theorem TunnelSettings.after_of_not_call {e : TunnelEvent} (he : e.isCall = false)
    (s : TunnelSettings) : s.after e = s := by
  cases e <;> first | rfl | cases he

namespace Tunnel

def settings (t : Tunnel) : TunnelSettings := ⟨t.label, t.config, t.enabled⟩

variable {t t' : Tunnel} {now : Duration} {e : TunnelEvent}

/-! ## One tunnel -/

theorem settings_spawnWorker (t : Tunnel) :
    t.spawnWorker.settings = t.settings ∧ t.spawnWorker.control = t.control := by
  obtain ⟨w, -, h⟩ | ⟨w', -, -, h⟩ := t.spawnWorker_cases <;> rw [h] <;> exact ⟨rfl, rfl⟩

theorem settings_startStopping (t : Tunnel) (restarts : Bool) (now : Duration) :
    (t.startStopping restarts now).settings = t.settings := by
  obtain ⟨-, h⟩ | ⟨w, -, h⟩ := t.startStopping_cases restarts now <;> rw [h] <;> rfl

/-- A call that is over leaves none under way. -/
theorem settings_finishControl (t : Tunnel) (c : ControlTask) :
    (t.finishControl c).settings = t.settings ∧ (t.finishControl c).control = none := by
  unfold finishControl
  split
  · exact settings_spawnWorker { t with control := none }
  · exact ⟨rfl, rfl⟩

theorem settings_install (t : Tunnel) (a : Attempt) :
    (t.install a).1.settings = t.settings ∧ (t.install a).1.control = t.control := by
  obtain ⟨client, -, h⟩ | h := t.install_cases a <;> rw [h] <;> exact ⟨rfl, rfl⟩

theorem settings_handleInbound (t : Tunnel) (now : Duration) (payload : List UInt8)
    (isBinary : Bool) :
    (t.handleInbound now payload isBinary).2.settings = t.settings ∧
      (t.handleInbound now payload isBinary).2.control = t.control := by
  unfold handleInbound
  dsimp only
  split
  · exact ⟨rfl, rfl⟩
  · split
    · exact ⟨rfl, rfl⟩
    · split
      · rename_i c _
        cases c <;> exact ⟨rfl, rfl⟩
      · exact ⟨rfl, rfl⟩

theorem settings_onClientEvent (t : Tunnel) (generation : Nat) (now : Duration) (e : ClientEvent) :
    (t.onClientEvent generation now e).2.settings = t.settings ∧
      (t.onClientEvent generation now e).2.control = t.control := by
  unfold onClientEvent
  split
  · exact ⟨rfl, rfl⟩
  · split
    · exact ⟨rfl, rfl⟩
    · exact ⟨rfl, rfl⟩
    · exact settings_handleInbound ..
    · exact ⟨rfl, rfl⟩

theorem settings_onClientEvents (t : Tunnel) (generation : Nat) (now : Duration)
    (events : List ClientEvent) :
    (t.onClientEvents generation now events).2.settings = t.settings ∧
      (t.onClientEvents generation now events).2.control = t.control := by
  unfold onClientEvents
  generalize ([] : List Frame) = frames
  induction events generalizing t frames with
  | nil => exact ⟨rfl, rfl⟩
  | cons e events ih =>
    obtain ⟨hsettings, hcontrol⟩ := settings_onClientEvent t generation now e
    rw [List.foldl_cons, ← hsettings, ← hcontrol]
    exact ih _ _

/-- The network changes no settings, and begins no call. -/
theorem settings_networkStep {generation task : Nat} {s : OutboundClient.NetworkStep}
    {frames : List Frame} (h : t.networkStep generation task now s = some (frames, t')) :
    t'.settings = t.settings ∧ (t.control = none → t'.control = none) := by
  obtain ⟨tr, client, events, -, -, h⟩ := networkStep_cases h
  obtain ⟨hsettings, hcontrol⟩ :=
    settings_onClientEvents (t.putTransport ⟨tr.generation, client⟩) generation now events
  rw [h] at hsettings hcontrol
  refine ⟨hsettings, fun hc => hcontrol.trans ?_⟩
  simp only [putTransport, hc, Option.map_none]

/-- **One event.** The settings afterwards are what the event says. -/
theorem Moved.settings (h : Moved t now e t') : t'.settings = t.settings.after e := by
  cases h with
  | call _ h =>
    cases h with
    | sets => rfl
    | spawns _ => exact (settings_spawnWorker _).1
    | stops restarts _ => exact settings_startStopping _ restarts now
  | control c _ h =>
    cases h with
    | joins | aborts | takes => rfl
    | finds | stops => exact (settings_finishControl _ c).1
  | worker w _ h =>
    cases h with
    | dials a _ _ => exact (settings_install t a).1
    | waits | takes | finds | stops => rfl
  | network h =>
    exact (settings_networkStep h).1
  | send h | sending h =>
    cases h
    rfl

/-- A call is under way only after its first step. -/
theorem Moved.control_eq_none (h : Moved t now e t') (he : e.isCall = false)
    (hc : t.control = none) : t'.control = none := by
  cases h with
  | call hcall _ => rw [he] at hcall; cases hcall
  | control c hsome _ => rw [hc] at hsome; cases hsome
  | worker w _ h =>
    cases h with
    | dials a _ _ => exact (settings_install t a).2.trans hc
    | waits | takes | finds | stops => exact hc
  | network h =>
    exact (settings_networkStep h).2 hc
  | send h | sending h =>
    cases h
    exact hc

theorem settings_concludeCall (t : Tunnel) :
    t.concludeCall.settings = t.settings ∧ t.concludeCall.control = none := by
  unfold concludeCall
  cases hc : t.control with
  | none => exact ⟨rfl, hc⟩
  | some c => exact settings_finishControl _ c

/-- A call is taken wherever none is under way. -/
theorem isSome_step_of_call (now : Duration) (he : e.isCall = true) (hc : t.control = none) :
    (t.step now e).isSome = true := by
  cases e with
  | configure baseUrl deviceId authToken tunnelKey =>
    simp only [step, configure, hc, Option.isSome_none, Bool.false_eq_true, if_false]
    split <;> rfl
  | setTiming => rfl
  | setEnabled on => simp [step, setEnabled, hc]
  | control | worker | network | send | sending => cases he

/-- What a tunnel does by itself is no call. -/
theorem isCall_of_mem_candidates {network : Network} (h : e ∈ t.candidates network now) :
    e.isCall = false := by
  simp only [candidates, List.mem_append] at h
  obtain ((h | h) | h) | h := h
  · obtain ⟨tr, -, h⟩ := List.mem_filterMap.mp h
    obtain ⟨⟨task, s⟩, -, rfl⟩ := Option.map_eq_some_iff.mp h
    rfl
  · obtain ⟨s, -, h⟩ := List.mem_flatMap.mp h
    simp only [List.mem_append, List.mem_cons, List.not_mem_nil, or_false] at h
    obtain h | rfl | rfl | rfl := h
    · split at h
      · cases h
      · rw [List.mem_singleton.mp h]
        rfl
    all_goals rfl
  · revert e
    decide
  · revert e
    decide

end Tunnel

/-! ## All tunnels -/

namespace Fleet

def settings (f : Fleet) : List TunnelSettings := f.tunnels.map Tunnel.settings

/-- No call is under way. -/
def Quiet (f : Fleet) : Prop := ∀ t ∈ f.tunnels, t.control = none

/-- No call is under way at any other tunnel. -/
def QuietBut (f : Fleet) (index : Nat) : Prop :=
  ∀ i t, i ≠ index → f.tunnels[i]? = some t → t.control = none

variable {f f' : Fleet} {index : Nat} {now : Duration} {e : TunnelEvent}

theorem Quiet.quietBut (h : f.Quiet) (index : Nat) : f.QuietBut index :=
  fun _ t _ ht => h t (List.mem_of_getElem? ht)

/-- **An event of one tunnel** is a step of that tunnel, and the others stay as they are. -/
theorem step_cases {seen : List TunnelEffect} (h : f.step index now e = some (f', seen)) :
    ∃ t t', f.tunnels[index]? = some t ∧ Tunnel.Moved t now e t' ∧
      f'.tunnels = f.tunnels.set index t' := by
  unfold step at h
  split at h
  case h_1 => cases h
  case h_2 t ht =>
    simp only [Option.ite_none_right_eq_some] at h
    obtain ⟨⟨t', seen'⟩, hstep, heq⟩ := Option.map_eq_some_iff.mp h.2
    cases heq
    exact ⟨t, t', ht, Tunnel.step_cases hstep, rfl⟩

/-- Another tunnel in the place of one. -/
theorem map_settings_set {t : Tunnel} (ht : f.tunnels[index]? = some t) (t' : Tunnel)
    (change : TunnelSettings → TunnelSettings) (hchange : t'.settings = change t.settings) :
    (f.tunnels.set index t').map Tunnel.settings = f.settings.modify index change := by
  obtain ⟨hlt, hget⟩ := List.getElem?_eq_some_iff.mp ht
  refine List.ext_getElem? fun i => ?_
  rw [List.getElem?_map, List.getElem?_modify, settings, List.getElem?_map]
  by_cases hi : index = i
  · subst hi
    rw [List.getElem?_set_self hlt, ht]
    simp [hchange]
  · rw [List.getElem?_set_ne hi]
    simp [hi]

theorem settings_step {seen : List TunnelEffect} (h : f.step index now e = some (f', seen)) :
    f'.settings = f.settings.modify index (·.after e) := by
  obtain ⟨t, t', ht, hmoved, htunnels⟩ := step_cases h
  rw [settings, htunnels]
  exact map_settings_set ht t' _ hmoved.settings

/-- A step that is no call changes no settings. -/
theorem settings_step_of_not_call {seen : List TunnelEffect} (he : e.isCall = false)
    (h : f.step index now e = some (f', seen)) : f'.settings = f.settings := by
  have hid : (fun s : TunnelSettings => s.after e) = id :=
    funext fun s => TunnelSettings.after_of_not_call he s
  rw [settings_step h, hid, List.modify_id]

/-- A step begins no call at another tunnel, and a step that is no call begins none at all. -/
theorem QuietBut.step {seen : List TunnelEffect} {k : Nat} (hq : f.QuietBut index)
    (he : k ≠ index → e.isCall = false) (h : f.step k now e = some (f', seen)) :
    f'.QuietBut index := by
  obtain ⟨t, t', ht, hmoved, htunnels⟩ := step_cases h
  intro i u hi hu
  rw [htunnels] at hu
  by_cases hk : k = i
  · subst hk
    obtain ⟨hlt, -⟩ := List.getElem?_eq_some_iff.mp ht
    rw [List.getElem?_set_self hlt] at hu
    cases hu
    exact hmoved.control_eq_none (he hi) (hq k t hi ht)
  · rw [List.getElem?_set_ne hk] at hu
    exact hq i u hi hu

theorem Quiet.step {seen : List TunnelEffect} {k : Nat} (hq : f.Quiet) (he : e.isCall = false)
    (h : f.step k now e = some (f', seen)) : f'.Quiet := by
  intro t ht
  obtain ⟨i, hi⟩ := List.getElem?_of_mem ht
  exact (hq.quietBut (i + 1)).step (fun _ => he) h i t (by omega) hi

/-- What is due is no call. -/
theorem dueStep?_cases {network : Network} {seen : List Seen}
    (h : f.dueStep? network now = some (f', seen)) :
    ∃ i e effects, e.isCall = false ∧ f.step i now e = some (f', effects) := by
  obtain ⟨⟨t, i⟩, -, h⟩ := List.exists_of_findSome?_eq_some h
  obtain ⟨e, hmem, h⟩ := List.exists_of_findSome?_eq_some h
  obtain ⟨⟨f'', effects⟩, hstep, heq⟩ := Option.map_eq_some_iff.mp h
  cases heq
  exact ⟨i, e, effects, Tunnel.isCall_of_mem_candidates hmem, hstep⟩

/-- While a call is under way no settings change, and no other call begins. -/
theorem settleCall_spec (network : Network) (index : Nat) (now : Duration) (fuel : Nat)
    {f : Fleet} (hq : f.QuietBut index) :
    (f.settleCall network index now fuel).1.settings = f.settings ∧
      (f.settleCall network index now fuel).1.QuietBut index := by
  induction fuel generalizing f with
  | zero => exact ⟨rfl, hq⟩
  | succ fuel ih =>
    unfold settleCall
    split
    · exact ⟨rfl, hq⟩
    · split
      · exact ⟨rfl, hq⟩
      · rename_i f' seen hdue
        obtain ⟨i, e, effects, he, hstep⟩ := dueStep?_cases hdue
        obtain ⟨hsettings, hquiet⟩ := ih (hq.step (fun _ => he) hstep)
        exact ⟨hsettings.trans (settings_step_of_not_call he hstep), hquiet⟩

/-- The end of a call changes no settings, and leaves no call under way. -/
theorem concludeCall_spec (hq : f.QuietBut index) (now : Duration) :
    (f.concludeCall index now).settings = f.settings ∧ (f.concludeCall index now).Quiet := by
  unfold concludeCall
  split
  case h_1 hnone =>
    refine ⟨rfl, fun t ht => ?_⟩
    obtain ⟨i, hi⟩ := List.getElem?_of_mem ht
    refine hq i t ?_ hi
    rintro rfl
    rw [hnone] at hi
    cases hi
  case h_2 t ht =>
    obtain ⟨hsettings, hcontrol⟩ := t.settings_concludeCall
    constructor
    · rw [← List.modify_id index f.settings]
      exact map_settings_set ht _ id hsettings
    · intro u hu
      obtain ⟨i, hi⟩ := List.getElem?_of_mem hu
      by_cases hk : index = i
      · subst hk
        obtain ⟨hlt, -⟩ := List.getElem?_eq_some_iff.mp ht
        rw [List.getElem?_set_self hlt] at hi
        cases hi
        exact hcontrol
      · rw [List.getElem?_set_ne hk] at hi
        exact hq i u (Ne.symm hk) hi

/-- A call is taken at any tunnel where no call is under way. -/
theorem isSome_step_of_call (now : Duration) (he : e.isCall = true) (hq : f.Quiet)
    (hi : index < f.tunnels.length) : (f.step index now e).isSome = true := by
  have hadmits : admits f.gate index now e = true := by
    cases e <;> first | rfl | cases he
  have hstep := Tunnel.isSome_step_of_call now he (hq _ (List.getElem_mem hi))
  simp only [step, List.getElem?_eq_getElem hi, hadmits, if_true, Option.isSome_map, hstep]

/-- **A call of a tunnel's owner.** Where no call is under way, the settings of that tunnel become
what the call says, those of the others stay, and again no call is under way. -/
theorem call_spec (network : Network) (now : Duration) (he : e.isCall = true) (hq : f.Quiet)
    (hi : index < f.tunnels.length) :
    (f.call network index now e).1.settings = f.settings.modify index (·.after e) ∧
      (f.call network index now e).1.Quiet := by
  unfold call
  split
  case h_1 hnone =>
    have hsome := isSome_step_of_call now he hq hi
    rw [hnone] at hsome
    cases hsome
  case h_2 f' effects hstep =>
    have hquiet : f'.QuietBut index := (hq.quietBut index).step (fun h => absurd rfl h) hstep
    obtain ⟨hsettled, hquiet⟩ := settleCall_spec network index now settleFuel hquiet
    obtain ⟨hconcluded, hquiet⟩ := concludeCall_spec hquiet now
    exact ⟨hconcluded.trans (hsettled.trans (settings_step hstep)), hquiet⟩

end Fleet

end DeviceRelay
