import DeviceRelay.Proofs.Tunnel.History
import DeviceRelay.Proofs.Tunnel.Turns

/-!
# Callbacks of a tunnel's transports

What a client tells reaches the tunnel by callbacks, and between the step of the client and its
callback anything else may happen: the callback may run when its transport is long gone. In every
such order, what is still due for the current generation takes the tunnel to where its client is.

* `Watched`: a tunnel with the callbacks that have not run yet.
* `Tunnel.heard_onClientEvent`: what a callback of the current generation does.
* `Watched.Sound`: what holds in every order of steps and callbacks.
* `Watched.exists_run_of_run`: a run of the tunnel alone is one of these orders.
-/

namespace DeviceRelay

/-- A tunnel with what its clients have told and no callback has carried yet. -/
structure Watched where
  tunnel : Tunnel
  /-- What the client of a generation has told, the oldest first. -/
  due : Nat → List ClientEvent
  /-- The frames that were handed on. -/
  delivered : List Frame

namespace Watched

/-- One step. The network moves a client alone; the callbacks are steps of their own. -/
inductive Move where
  | event (now : Duration) (e : TunnelEvent)
  /-- The next callback of a generation runs. -/
  | callback (now : Duration) (generation : Nat)

def new (label : String) (options : TunnelOptions) : Watched :=
  ⟨.new label options, fun _ => [], []⟩

/-- A task of the client of a generation takes a step. -/
def clientStep (w : Watched) (now : Duration) (generation task : Nat)
    (s : OutboundClient.NetworkStep) : Watched :=
  match w.tunnel.transports.find? fun tr => tr.generation = generation with
  | none => w
  | some tr =>
    match tr.client.taskStep task now s with
    | none => w
    | some (client, events) =>
      { w with
        tunnel := w.tunnel.putTransport { tr with client := client }
        due := fun g => if g = generation then w.due g ++ events else w.due g }

/-- The next callback of a generation runs. -/
def callback (w : Watched) (now : Duration) (generation : Nat) : Watched :=
  match w.due generation with
  | [] => w
  | e :: events =>
    let (frame, t) := w.tunnel.onClientEvent generation now e
    { tunnel := t
      due := fun g => if g = generation then events else w.due g
      delivered := w.delivered ++ frame.toList }

/-- The tunnel after one step; what cannot happen changes nothing. -/
def next (w : Watched) : Move → Watched
  | .event now (.network generation task s) => w.clientStep now generation task s
  | .event now e =>
    match w.tunnel.step now e with
    | none => w
    | some (t, _) => { w with tunnel := t }
  | .callback now generation => w.callback now generation

def run (w : Watched) (moves : List Move) : Watched := moves.foldl next w

end Watched

/-- How much a tunnel in this state was told of its session. -/
def ConnectionState.told : ConnectionState → SessionPhase
  | .dialing => .before
  | .connected | .registered => .during
  | .disconnected => .after

/-- The states that can follow a state within a generation. -/
def ConnectionState.followers : ConnectionState → List ConnectionState
  | .dialing => [.connected]
  | .connected => [.registered, .disconnected]
  | .registered => [.disconnected]
  | .disconnected => []

theorem ConnectionState.told_eq_during_iff {s : ConnectionState} :
    s.told = .during ↔ s.isConnected = true := by
  cases s <;> decide

/-! ## One callback -/

namespace Tunnel

/-- A callback of the current generation: it carries what may be told next. -/
structure Heard (t t' : Tunnel) (p : SessionPhase) : Prop where
  told : t'.state.told = p
  follows : t'.state = t.state ∨ t'.state ∈ t.state.followers
  flag : (t.uiConnected = true → t.state.isConnected = true) →
    t'.uiConnected = true → t'.state.isConnected = true
  transport : t'.transport = t.transport
  generation : t'.generation = t.generation
  worker : t'.worker = t.worker
  control : t'.control = t.control
  abandoned : t'.abandoned = t.abandoned

theorem Heard.refl {t : Tunnel} {p : SessionPhase} (h : t.state.told = p) : Heard t t p :=
  ⟨h, .inl rfl, id, rfl, rfl, rfl, rfl, rfl⟩

/-- A message comes to a tunnel that is connected, and leaves it so. -/
theorem heard_handleInbound {t : Tunnel} (h : t.state.told = .during) (now : Duration)
    (payload : List UInt8) (isBinary : Bool) :
    Heard t (t.handleInbound now payload isBinary).2 .during := by
  obtain ⟨next, heq, -⟩ | ⟨f, -, heq⟩ | ⟨now', c, -, heq⟩ | ⟨-, -, -, heq⟩ :=
    t.observe_cases (.arrives now payload isBinary)
  · cases heq
  · rw [show t.handleInbound now payload isBinary = _ from heq]
    exact .refl h
  · rw [show t.handleInbound now payload isBinary = _ from heq]
    have hup := ConnectionState.told_eq_during_iff.mp h
    cases c with
    | registered r =>
      refine ⟨rfl, ?_, fun _ _ => rfl, rfl, rfl, rfl, rfl, rfl⟩
      cases hs : t.state with
      | connected => exact .inr (by simp [ConnectionState.followers, applyControl, setState])
      | registered => exact .inl rfl
      | dialing | disconnected => rw [hs] at h; cases h
    | uiConnected => exact ⟨h, .inl rfl, fun _ _ => hup, rfl, rfl, rfl, rfl, rfl⟩
    | uiDisconnected => exact ⟨h, .inl rfl, fun _ _ => hup, rfl, rfl, rfl, rfl, rfl⟩
  · rw [show t.handleInbound now payload isBinary = _ from heq]
    exact .refl h

/-- **A callback of the current generation** carries what may be told next, and moves the state to
its next place at most. -/
theorem heard_onClientEvent {t : Tunnel} {e : ClientEvent} {p : SessionPhase}
    (h : t.state.told.next e = some p) (now : Duration) :
    Heard t (t.onClientEvent t.generation now e).2 p := by
  unfold onClientEvent
  rw [if_neg (by simp)]
  cases e with
  | failed e =>
    cases h
    exact .refl rfl
  | connected =>
    cases hs : t.state <;> rw [hs] at h <;> cases h
    exact ⟨rfl, .inr (by simp [hs, ConnectionState.followers, setState]), fun _ _ => rfl, rfl, rfl,
      rfl, rfl, rfl⟩
  | message payload isBinary =>
    have hup : t.state.told = .during ∧ p = .during := by
      cases hs : t.state <;> rw [hs] at h <;> cases h <;> exact ⟨rfl, rfl⟩
    rw [hup.2]
    exact heard_handleInbound hup.1 now payload isBinary
  | disconnected =>
    cases hs : t.state <;> rw [hs] at h <;> cases h <;>
      exact ⟨rfl, .inr (by simp [hs, ConnectionState.followers, setState]), fun _ hup => (by cases hup),
        rfl, rfl, rfl, rfl, rfl⟩

end Tunnel

namespace Watched

/-! ## What holds in every order -/

/-- What holds of a tunnel with its callbacks, in whatever order these and the steps come. -/
structure Sound (w : Watched) : Prop where
  kept : w.tunnel.Kept
  /-- Nobody has told anything for a generation to come. -/
  future : ∀ g, w.tunnel.generation < g → w.due g = []
  bare : w.tunnel.transport = none → w.due w.tunnel.generation = []
  /-- What is still due takes the tunnel to where its client is. -/
  session : ∀ tr, w.tunnel.transport = some tr →
    ∃ p, w.tunnel.state.told.after? (w.due w.tunnel.generation) = some p ∧ tr.client.OneShot p
  flag : w.tunnel.uiConnected = true → w.tunnel.state.isConnected = true

theorem sound_new (label : String) (options : TunnelOptions) : (new label options).Sound where
  kept := Tunnel.kept_new label options
  future _ _ := rfl
  bare _ := rfl
  session _ h := by cases h
  flag h := by cases h

variable {w : Watched}

/-- A step of the tunnel that no client takes. -/
theorem Sound.turn (h : w.Sound) {t : Tunnel} (hkept : t.Kept) (hturn : w.tunnel.Turn t) :
    ({ w with tunnel := t } : Watched).Sound := by
  cases hturn with
  | stays queue htr hg hs hu hfree =>
    refine ⟨hkept, ?_, ?_, ?_, ?_⟩ <;> dsimp only
    · rw [hg]
      exact h.future
    · rw [hg, htr, Option.map_eq_none_iff]
      exact h.bare
    · intro tr hsome
      rw [htr, Option.map_eq_some_iff] at hsome
      obtain ⟨old, hold, rfl⟩ := hsome
      obtain ⟨p, hp, honce⟩ := h.session old hold
      rw [hg, hs]
      exact ⟨p, hp, honce.setOutbox _⟩
    · rw [hu, hs]
      exact h.flag
  | dials client hclient hdown htr hg hs hu hfree =>
    have hdue : w.due t.generation = [] := h.future _ (by omega)
    refine ⟨hkept, fun g hlt => h.future g ?_, fun _ => hdue, ?_, ?_⟩ <;> dsimp only at *
    · omega
    · intro tr hsome
      rw [htr, Option.map_eq_some_iff] at hsome
      obtain ⟨c, rfl, rfl⟩ := hsome
      rw [hdue, hs]
      exact ⟨.before, rfl, hclient c rfl⟩
    · rw [hu]
      intro hset
      have hup := h.flag hset
      rw [hdown.2] at hup
      cases hup
  | takes htr hg hs hu =>
    have hdue : w.due t.generation = [] := h.future _ (by omega)
    refine ⟨hkept, fun g hlt => h.future g ?_, fun _ => hdue, ?_, ?_⟩ <;> dsimp only at *
    · omega
    · intro tr hsome
      cases htr.symm.trans hsome
    · rw [hu, hs]
      exact h.flag
  | ends hdown hu hg =>
    have hdue : w.due t.generation = [] := by
      obtain hg | ⟨hg, hstop⟩ := hg
      · exact h.future _ (by omega)
      · rw [hg]
        exact h.bare (h.kept.stopping hstop)
    refine ⟨hkept, fun g hlt => h.future g ?_, fun _ => hdue, ?_, ?_⟩ <;> dsimp only at *
    · omega
    · intro tr hsome
      cases hdown.1.symm.trans hsome
    · rw [hu]
      nofun

/-- A transport of the current generation is the installed one. -/
theorem Sound.installed_of_generation (h : w.Sound) {tr : Transport}
    (hmem : tr ∈ w.tunnel.transports) :
    tr.generation ≤ w.tunnel.generation ∧
      (tr.generation = w.tunnel.generation → w.tunnel.transport = some tr) := by
  obtain hinst | htaken := Tunnel.mem_transports_iff.mp hmem
  · exact ⟨Nat.le_of_eq (h.kept.installed tr hinst), fun _ => hinst⟩
  · have hlt := h.kept.older tr htaken
    exact ⟨Nat.le_of_lt hlt, fun heq => by omega⟩

/-- **A client takes a step.** What it tells of the current generation may be told after what is
due. -/
theorem Sound.clientStep (h : w.Sound) (now : Duration) (generation task : Nat)
    (s : OutboundClient.NetworkStep) : (w.clientStep now generation task s).Sound := by
  unfold Watched.clientStep
  split
  case h_1 => exact h
  case h_2 tr hfind =>
    split
    case h_1 => exact h
    case h_2 client events hstep =>
      obtain rfl : tr.generation = generation := by simpa using List.find?_some hfind
      obtain ⟨hle, hinst⟩ := h.installed_of_generation (List.mem_of_find?_eq_some hfind)
      refine ⟨h.kept.putTransport _, fun g hlt => ?_, fun hnone => ?_, fun tr' hsome => ?_, h.flag⟩
      · have hne : g ≠ tr.generation := by
          rintro rfl
          exact absurd hlt (Nat.not_lt_of_le hle)
        simp only [hne, if_false]
        exact h.future g hlt
      · have hnone : w.tunnel.transport = none := Option.map_eq_none_iff.mp hnone
        have hne : w.tunnel.generation ≠ tr.generation := by
          intro heq
          rw [hinst heq.symm] at hnone
          cases hnone
        simp only [Tunnel.putTransport, hne, if_false]
        exact h.bare hnone
      · obtain ⟨old, hold, rfl⟩ := Option.map_eq_some_iff.mp hsome
        obtain ⟨p, hp, honce⟩ := h.session old hold
        have hgen := h.kept.installed old hold
        by_cases heq : w.tunnel.generation = tr.generation
        · cases hold.symm.trans (hinst heq.symm)
          obtain ⟨p', hp', honce'⟩ := honce.taskStep hstep
          refine ⟨p', ?_, ?_⟩
          · simp only [Tunnel.putTransport, heq, if_true]
            rw [← heq, SessionPhase.after?_append, hp]
            exact hp'
          · simpa using honce'
        · have hne : old.generation ≠ tr.generation := by
            rw [hgen]
            exact heq
          simp only [Tunnel.putTransport, heq, hne, if_false]
          exact ⟨p, hp, honce⟩

theorem onClientEvent_of_ne {t : Tunnel} {generation : Nat} (h : generation ≠ t.generation)
    (now : Duration) (e : ClientEvent) : t.onClientEvent generation now e = (none, t) :=
  if_pos (Ne.symm h)

/-- What is due next may be told. -/
theorem Sound.told (h : w.Sound) {e : ClientEvent} {events : List ClientEvent}
    (hdue : w.due w.tunnel.generation = e :: events) :
    ∃ tr told p, w.tunnel.transport = some tr ∧ w.tunnel.state.told.next e = some told ∧
      told.after? events = some p ∧ tr.client.OneShot p := by
  cases htr : w.tunnel.transport with
  | none =>
    rw [h.bare htr] at hdue
    cases hdue
  | some tr =>
    obtain ⟨p, hp, honce⟩ := h.session tr htr
    rw [hdue, SessionPhase.after?_cons, Option.bind_eq_some_iff] at hp
    obtain ⟨told, htold, hp⟩ := hp
    exact ⟨tr, told, p, rfl, htold, hp, honce⟩

/-- **A callback runs.** One of another generation carries nothing, and one of the current
generation carries what may be told next. -/
theorem Sound.callback (h : w.Sound) (now : Duration) (generation : Nat) :
    (w.callback now generation).Sound := by
  unfold Watched.callback
  split
  case h_1 => exact h
  case h_2 e events hdue =>
    by_cases hg : generation = w.tunnel.generation
    · subst hg
      obtain ⟨tr, told, p, htr, htold, hp, honce⟩ := h.told hdue
      have heard := Tunnel.heard_onClientEvent htold now
      generalize w.tunnel.onClientEvent w.tunnel.generation now e = heardOf at heard ⊢
      obtain ⟨frame, t⟩ := heardOf
      have hkept : t.Kept := h.kept.congr heard.worker heard.control heard.abandoned
        heard.generation (fun hdown => by cases htr.symm.trans hdown.1) (by rw [heard.transport])
      refine ⟨hkept, fun g hlt => ?_, fun hnone => ?_, fun tr' hsome => ?_, heard.flag h.flag⟩
      · have hlt : w.tunnel.generation < g := heard.generation ▸ hlt
        have hne : g ≠ w.tunnel.generation := by omega
        simp only [hne, if_false]
        exact h.future g hlt
      · cases (heard.transport.trans htr).symm.trans hnone
      · cases (heard.transport.trans htr).symm.trans hsome
        refine ⟨p, ?_, honce⟩
        dsimp only
        rw [heard.told, if_pos heard.generation]
        exact hp
    · rw [onClientEvent_of_ne hg]
      refine ⟨h.kept, fun g hlt => ?_, fun hnone => ?_, fun tr hsome => ?_, h.flag⟩
      · dsimp only
        split
        case isTrue heq =>
          subst heq
          rw [h.future g hlt] at hdue
          cases hdue
        case isFalse => exact h.future g hlt
      · simp only [Ne.symm hg, if_false]
        exact h.bare hnone
      · simp only [Ne.symm hg, if_false]
        exact h.session tr hsome

/-- A step that is neither the network's nor a callback's is one of the tunnel. -/
theorem next_event {e : TunnelEvent} (he : ∀ generation task s, e ≠ .network generation task s)
    (w : Watched) (now : Duration) :
    w.next (.event now e) = w ∨
      ∃ t, Tunnel.Moved w.tunnel now e t ∧ w.next (.event now e) = { w with tunnel := t } := by
  have hnext : w.next (.event now e) =
      match w.tunnel.step now e with
      | none => w
      | some (t, _) => { w with tunnel := t } := by
    cases e with
    | network generation task s => exact absurd rfl (he generation task s)
    | _ => rfl
  rw [hnext]
  cases hstep : w.tunnel.step now e with
  | none => exact .inl rfl
  | some after =>
    obtain ⟨t, seen⟩ := after
    exact .inr ⟨t, Tunnel.step_cases hstep, rfl⟩

/-- **One step** of whatever kind. -/
theorem Sound.next (h : w.Sound) (m : Move) : (w.next m).Sound := by
  cases m with
  | callback now generation => exact h.callback now generation
  | event now e =>
    by_cases he : ∃ generation task s, e = .network generation task s
    · obtain ⟨generation, task, s, rfl⟩ := he
      exact h.clientStep now generation task s
    · have he : ∀ generation task s, e ≠ .network generation task s :=
        fun generation task s heq => he ⟨generation, task, s, heq⟩
      obtain heq | ⟨t, hmoved, heq⟩ := w.next_event he now <;> rw [heq]
      · exact h
      · exact h.turn (h.kept.moved hmoved he) (h.kept.turn hmoved he)

theorem Sound.run (h : w.Sound) (moves : List Move) : (w.run moves).Sound := by
  unfold Watched.run
  induction moves generalizing w with
  | nil => exact h
  | cons m moves ih => exact ih (h.next m)

/-! ## Runs of the tunnel alone -/

/-- A callback beside the frames that were handed on before it. -/
def carry (generation : Nat) (now : Duration) (acc : List Frame × Tunnel) (e : ClientEvent) :
    List Frame × Tunnel :=
  (acc.1 ++ (acc.2.onClientEvent generation now e).1.toList,
    (acc.2.onClientEvent generation now e).2)

theorem foldl_carry (generation : Nat) (now : Duration) (events : List ClientEvent)
    (frames : List Frame) (t : Tunnel) :
    events.foldl (carry generation now) (frames, t) =
      (frames ++ (t.onClientEvents generation now events).1,
        (t.onClientEvents generation now events).2) := by
  have hcarry : t.onClientEvents generation now events =
      events.foldl (carry generation now) ([], t) := rfl
  rw [hcarry]
  clear hcarry
  induction events generalizing frames t with
  | nil => simp
  | cons e events ih =>
    rw [List.foldl_cons, List.foldl_cons, carry, carry, ih, ih ([] ++ _)]
    simp

theorem onClientEvents_cons (t : Tunnel) (generation : Nat) (now : Duration) (e : ClientEvent)
    (events : List ClientEvent) :
    t.onClientEvents generation now (e :: events) =
      ((t.onClientEvent generation now e).1.toList ++
          ((t.onClientEvent generation now e).2.onClientEvents generation now events).1,
        ((t.onClientEvent generation now e).2.onClientEvents generation now events).2) :=
  foldl_carry generation now events _ _

/-- The callbacks of one generation, one after the other. -/
theorem run_callbacks (now : Duration) (generation : Nat) (events : List ClientEvent) {w : Watched}
    (hdue : w.due generation = events) :
    w.run (List.replicate events.length (.callback now generation)) =
      { tunnel := (w.tunnel.onClientEvents generation now events).2
        due := fun g => if g = generation then [] else w.due g
        delivered := w.delivered ++ (w.tunnel.onClientEvents generation now events).1 } := by
  induction events generalizing w with
  | nil =>
    have hsame : (fun g => if g = generation then [] else w.due g) = w.due := by
      funext g
      split
      · rename_i heq
        rw [heq, hdue]
      · rfl
    rw [hsame]
    simp [run, Tunnel.onClientEvents]
  | cons e events ih =>
    have hstep : w.callback now generation =
        { tunnel := (w.tunnel.onClientEvent generation now e).2
          due := fun g => if g = generation then events else w.due g
          delivered := w.delivered ++ (w.tunnel.onClientEvent generation now e).1.toList } := by
      unfold callback
      rw [hdue]
    have hdue' : (w.callback now generation).due generation = events := by
      rw [hstep]
      exact if_pos rfl
    have hrun : w.run (List.replicate (events.length + 1) (.callback now generation)) =
        (w.callback now generation).run
          (List.replicate events.length (.callback now generation)) := rfl
    rw [List.length_cons, hrun, ih hdue', hstep, onClientEvents_cons]
    simp only [List.append_assoc, Watched.mk.injEq, true_and, and_true]
    funext g
    split <;> rfl

/-- **A step of the network** is one of the client, followed by its callbacks. -/
theorem run_network {now : Duration} {generation task : Nat} {s : OutboundClient.NetworkStep}
    {t : Tunnel} {frames : List Frame} (hdue : w.due generation = [])
    (h : w.tunnel.networkStep generation task now s = some (frames, t)) :
    ∃ n, w.run (.event now (.network generation task s) ::
        List.replicate n (.callback now generation)) =
      { w with tunnel := t, delivered := w.delivered ++ frames } := by
  obtain ⟨tr, client, events, hfind, hstep, heq⟩ := Tunnel.networkStep_cases h
  have hnext : w.clientStep now generation task s =
      { w with
        tunnel := w.tunnel.putTransport { tr with client := client }
        due := fun g => if g = generation then w.due g ++ events else w.due g } := by
    unfold clientStep
    rw [hfind]
    dsimp only
    rw [hstep]
  refine ⟨events.length, ?_⟩
  have hrun : w.run (.event now (.network generation task s) ::
      List.replicate events.length (.callback now generation)) =
    (w.clientStep now generation task s).run
      (List.replicate events.length (.callback now generation)) := rfl
  rw [hrun, run_callbacks now generation events (by rw [hnext]; simp [hdue]), hnext]
  dsimp only
  rw [heq]
  simp only [Watched.mk.injEq, true_and, and_true]
  funext g
  split
  · rename_i hg
    rw [hg, hdue]
  · rfl

/-- A step of the tunnel alone. -/
theorem exists_run_of_step {now : Duration} {e : TunnelEvent} {t : Tunnel}
    {seen : List TunnelEffect} (hdue : ∀ g, w.due g = [])
    (h : w.tunnel.step now e = some (t, seen)) :
    ∃ moves, (w.run moves).tunnel = t ∧ ∀ g, (w.run moves).due g = [] := by
  by_cases he : ∃ generation task s, e = .network generation task s
  · obtain ⟨generation, task, s, rfl⟩ := he
    obtain ⟨⟨frames, t'⟩, hstep, heq⟩ := Option.bind_eq_some_iff.mp h
    cases heq
    obtain ⟨n, hrun⟩ := run_network (hdue generation) hstep
    exact ⟨_, by rw [hrun], by rw [hrun]; exact hdue⟩
  · have hnext : w.run [.event now e] = { w with tunnel := t } := by
      cases e with
      | network generation task s => exact absurd ⟨generation, task, s, rfl⟩ he
      | _ => simp only [run, List.foldl_cons, List.foldl_nil, next, h]
    exact ⟨[.event now e], by rw [hnext], by rw [hnext]; exact hdue⟩

/-- **A run of the tunnel alone** is one of the orders, with each callback right after its step. -/
theorem exists_run_of_run {events : List (Duration × TunnelEvent)} {t : Tunnel}
    {seen : List TunnelEffect} (hdue : ∀ g, w.due g = [])
    (h : w.tunnel.run events = some (t, seen)) :
    ∃ moves, (w.run moves).tunnel = t ∧ ∀ g, (w.run moves).due g = [] := by
  induction events generalizing w seen with
  | nil =>
    cases h
    exact ⟨[], rfl, hdue⟩
  | cons at_e events ih =>
    obtain ⟨now, e⟩ := at_e
    obtain ⟨⟨t', seen'⟩, hstep, h⟩ := Option.bind_eq_some_iff.mp h
    obtain ⟨⟨t'', more⟩, hrest, heq⟩ := Option.bind_eq_some_iff.mp h
    cases heq
    obtain ⟨moves, htunnel, hdue'⟩ := exists_run_of_step hdue hstep
    obtain ⟨moves', htunnel', hdue''⟩ := ih hdue' (htunnel ▸ hrest)
    have happend : w.run (moves ++ moves') = (w.run moves).run moves' := List.foldl_append
    exact ⟨moves ++ moves', by rw [happend, htunnel'], by rw [happend]; exact hdue''⟩

/-- Whatever a tunnel has run through, its flag of the remote page is set only while it is
connected. -/
theorem isConnected_of_run {label : String} {options : TunnelOptions}
    {events : List (Duration × TunnelEvent)} {t : Tunnel} {seen : List TunnelEffect}
    (h : (Tunnel.new label options).run events = some (t, seen)) (hset : t.uiConnected = true) :
    t.isConnected = true := by
  obtain ⟨moves, rfl, -⟩ := exists_run_of_run (w := new label options) (fun _ => rfl) h
  exact ((sound_new label options).run moves).flag hset

end Watched

end DeviceRelay
