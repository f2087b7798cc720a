import DeviceRelay.Proofs.Tunnel.Callbacks
import Mathlib.Data.List.Destutter

/-!
# Generations of a tunnel

A callback knows the generation of its transport, and the tunnel its own. So in every order of
steps and callbacks old callbacks change nothing, and from a dial on, for as long as the generation
lasts, the state goes through its places in order.

* `Watched.Sound.next_cases`: a step begins a generation, or goes on with the one that there is.
* `Watched.Sound.states_mem_courses`: the states of one generation.
* `Watched.generations_in_order`: the theorem on generations.
-/

namespace DeviceRelay.Watched

variable {w : Watched}

/-- The states that the tunnel is in, before the moves and after each. A move that sets the state to
what it is already shows as a repetition; `List.destutter` leaves the states that are taken. -/
def states (w : Watched) : List Move → List ConnectionState
  | [] => [w.tunnel.state]
  | m :: moves => w.tunnel.state :: (w.next m).states moves

/-! ## Within a generation -/

/-- What a step does within a generation, while no client is being stopped. -/
structure Continues (t t' : Tunnel) : Prop where
  free : t'.isStopping = false
  follows : t'.state = t.state ∨ t'.state ∈ t.state.followers

theorem turn_cases {t t' : Tunnel} (h : t.Turn t') :
    t'.generation = t.generation + 1 ∨
      t'.generation = t.generation ∧ (t.isStopping = false → Continues t t') := by
  cases h with
  | stays queue htr hg hs hu hfree =>
    refine .inr ⟨hg, fun hstop => ⟨?_, .inl hs⟩⟩
    rw [← Bool.not_eq_true] at hstop ⊢
    exact mt hfree hstop
  | dials client hclient hdown htr hg hs hu hfree => exact .inl hg
  | takes htr hg hs hu => exact .inl hg
  | ends hdown hu hg =>
    obtain hg | ⟨hg, hstop⟩ := hg
    · exact .inl hg
    · refine .inr ⟨hg, fun hfree => ?_⟩
      rw [hstop] at hfree
      cases hfree

theorem continues_clientStep (w : Watched) (now : Duration) (generation task : Nat)
    (s : OutboundClient.NetworkStep) :
    (w.clientStep now generation task s).tunnel.generation = w.tunnel.generation ∧
      (w.tunnel.isStopping = false →
        Continues w.tunnel (w.clientStep now generation task s).tunnel) := by
  unfold clientStep
  split
  · exact ⟨rfl, fun hfree => ⟨hfree, .inl rfl⟩⟩
  · split
    · exact ⟨rfl, fun hfree => ⟨hfree, .inl rfl⟩⟩
    · exact ⟨rfl, fun hfree => ⟨(w.tunnel.isStopping_putTransport _).trans hfree, .inl rfl⟩⟩

theorem Sound.continues_callback (h : w.Sound) (now : Duration) (generation : Nat) :
    (w.callback now generation).tunnel.generation = w.tunnel.generation ∧
      (w.tunnel.isStopping = false →
        Continues w.tunnel (w.callback now generation).tunnel) := by
  unfold Watched.callback
  split
  case h_1 => exact ⟨rfl, fun hfree => ⟨hfree, .inl rfl⟩⟩
  case h_2 e events hdue =>
    by_cases hg : generation = w.tunnel.generation
    · subst hg
      obtain ⟨tr, told, p, htr, htold, hp, honce⟩ := h.told hdue
      have heard := Tunnel.heard_onClientEvent htold now
      refine ⟨heard.generation, fun hfree => ⟨?_, heard.follows⟩⟩
      unfold Tunnel.isStopping at hfree ⊢
      dsimp only
      rw [heard.worker, heard.control]
      exact hfree
    · rw [onClientEvent_of_ne hg]
      exact ⟨rfl, fun hfree => ⟨hfree, .inl rfl⟩⟩

/-- **A step begins a generation, or goes on with the one that there is.** -/
theorem Sound.next_cases (h : w.Sound) (m : Move) :
    (w.next m).tunnel.generation = w.tunnel.generation + 1 ∨
      (w.next m).tunnel.generation = w.tunnel.generation ∧
        (w.tunnel.isStopping = false → Continues w.tunnel (w.next m).tunnel) := by
  cases m with
  | callback now generation => exact .inr (h.continues_callback now generation)
  | event now e =>
    by_cases he : ∃ generation task s, e = .network generation task s
    · obtain ⟨generation, task, s, rfl⟩ := he
      exact .inr (w.continues_clientStep now generation task s)
    · have he : ∀ generation task s, e ≠ .network generation task s :=
        fun generation task s heq => he ⟨generation, task, s, heq⟩
      obtain heq | ⟨t, hmoved, heq⟩ := w.next_event he now <;> rw [heq]
      · exact .inr ⟨rfl, fun hfree => ⟨hfree, .inl rfl⟩⟩
      · exact turn_cases (h.kept.turn hmoved he)

theorem Sound.generation_le_run (h : w.Sound) (moves : List Move) :
    w.tunnel.generation ≤ (w.run moves).tunnel.generation := by
  induction moves generalizing w with
  | nil => exact Nat.le_refl _
  | cons m moves ih =>
    have hrest := ih (h.next m)
    obtain hg | ⟨hg, -⟩ := h.next_cases m <;> exact Nat.le_trans (by omega) hrest

/-- The courses that the states of one generation can take from a state on. -/
def courses : ConnectionState → List (List ConnectionState)
  | .dialing =>
    [[.dialing], [.dialing, .connected], [.dialing, .connected, .disconnected],
     [.dialing, .connected, .registered], [.dialing, .connected, .registered, .disconnected]]
  | .connected =>
    [[.connected], [.connected, .disconnected], [.connected, .registered],
     [.connected, .registered, .disconnected]]
  | .registered => [[.registered], [.registered, .disconnected]]
  | .disconnected => [[.disconnected]]

theorem singleton_mem_courses (s : ConnectionState) : [s] ∈ courses s := by
  cases s <;> decide

theorem cons_mem_courses (s : ConnectionState) :
    ∀ s' ∈ s.followers, ∀ course ∈ courses s', s :: course ∈ courses s := by
  cases s <;> decide

theorem ne_of_mem_followers {s s' : ConnectionState} (h : s' ∈ s.followers) : s ≠ s' := by
  rintro rfl
  cases s <;> revert h <;> decide

theorem states_eq_cons (w : Watched) (moves : List Move) :
    ∃ rest, w.states moves = w.tunnel.state :: rest := by
  cases moves with
  | nil => exact ⟨[], rfl⟩
  | cons m moves => exact ⟨(w.next m).states moves, rfl⟩

/-- **The states of a generation** go through their places in order. -/
theorem Sound.states_mem_courses (h : w.Sound) (hfree : w.tunnel.isStopping = false)
    (moves : List Move) (hg : (w.run moves).tunnel.generation = w.tunnel.generation) :
    (w.states moves).destutter (· ≠ ·) ∈ courses w.tunnel.state := by
  induction moves generalizing w with
  | nil => exact singleton_mem_courses w.tunnel.state
  | cons m moves ih =>
    -- a step that began a generation would show at the end
    have hle := (h.next m).generation_le_run moves
    have hgen : (w.next m).tunnel.generation = w.tunnel.generation ∧
        (w.tunnel.isStopping = false → Continues w.tunnel (w.next m).tunnel) := by
      refine (h.next_cases m).resolve_left fun hnew => ?_
      have hg : ((w.next m).run moves).tunnel.generation = w.tunnel.generation := hg
      omega
    obtain ⟨hnext, hcontinues⟩ := hgen
    obtain ⟨hfree', hfollows⟩ := hcontinues hfree
    have hrest := ih (h.next m) hfree' (hg.trans hnext.symm)
    obtain ⟨rest, heq⟩ := (w.next m).states_eq_cons moves
    have hstates : w.states (m :: moves) = w.tunnel.state :: (w.next m).states moves := rfl
    rw [hstates, heq, List.destutter_cons_cons]
    rw [heq] at hrest
    obtain hsame | hfollows := hfollows
    · rw [if_neg (by simp [hsame])]
      rw [hsame] at hrest
      exact hrest
    · rw [if_pos (ne_of_mem_followers hfollows)]
      exact cons_mem_courses _ _ hfollows _ hrest

/-! ## Dials -/

/-- Whether a step is a dial: the worker gets the transport lock, to install a transport. -/
def isDial (w : Watched) : Move → Bool
  | .event _ (.worker .locked) =>
    !w.tunnel.isLocked && w.tunnel.worker.any fun worker =>
      match worker.phase with
      | .installing _ _ => true
      | _ => false
  | _ => false

theorem isDial_cases {m : Move} (h : w.isDial m = true) :
    ∃ now a permit worker, m = .event now (.worker .locked) ∧ w.tunnel.worker = some worker ∧
      worker.phase = .installing a permit ∧ w.tunnel.isLocked = false := by
  unfold isDial at h
  split at h
  case h_1 now =>
    rw [Bool.and_eq_true, Bool.not_eq_true', Option.any_eq_true] at h
    obtain ⟨hlock, worker, hworker, hphase⟩ := h
    split at hphase
    case h_1 a permit hp => exact ⟨now, a, permit, worker, rfl, hworker, hp, hlock⟩
    case h_2 => cases hphase
  case h_2 => cases h

/-- A dial installs a transport for the snapshot of the worker, unless the client refuses. -/
theorem next_of_isDial {m : Move} (h : w.isDial m = true) :
    ∃ now a permit worker, w.tunnel.worker = some worker ∧ worker.phase = .installing a permit ∧
      (w.next m).tunnel = { (w.tunnel.install a).1 with
        worker := some { worker with phase :=
          if (w.tunnel.install a).2 then .connecting a permit now else .tearing a .zero } } := by
  obtain ⟨now, a, permit, worker, rfl, hworker, hphase, hlock⟩ := isDial_cases h
  refine ⟨now, a, permit, worker, hworker, hphase, ?_⟩
  have hstep : w.tunnel.workerStep now .locked = some { (w.tunnel.install a).1 with
      worker := some { worker with phase :=
        if (w.tunnel.install a).2 then .connecting a permit now else .tearing a .zero } } := by
    unfold Tunnel.workerStep
    simp [hworker, hphase, hlock]
  simp only [Watched.next, Tunnel.step, hstep, Option.map_some]

/-- Right after a dial the tunnel is dialing, and no client is being stopped. -/
theorem Sound.next_dial (h : w.Sound) {m : Move} (hm : w.isDial m = true) :
    (w.next m).tunnel.state = .dialing ∧ (w.next m).tunnel.isStopping = false ∧
      (w.next m).tunnel.generation = w.tunnel.generation + 1 := by
  obtain ⟨now, a, permit, worker, hworker, -, hnext⟩ := next_of_isDial hm
  have hcontrol := h.kept.control_free hworker
  rw [hnext]
  obtain ⟨client, -, heq⟩ | heq := w.tunnel.install_cases a <;> rw [heq]
  · refine ⟨rfl, ?_, rfl⟩
    simp [Tunnel.isStopping, WorkerPhase.holdsLock, Tunnel.setState, hcontrol]
  · refine ⟨rfl, ?_, rfl⟩
    simp [Tunnel.isStopping, WorkerPhase.holdsLock, Tunnel.setState, hcontrol]

theorem callback_of_ne {generation : Nat} (h : generation ≠ w.tunnel.generation) (now : Duration) :
    (w.callback now generation).tunnel = w.tunnel ∧
      (w.callback now generation).delivered = w.delivered := by
  unfold callback
  split
  · exact ⟨rfl, rfl⟩
  · rw [onClientEvent_of_ne h]
    exact ⟨rfl, List.append_nil _⟩

/-- **Generations.** In every order of the steps of a tunnel, of its clients and of their callbacks:
a callback of another generation than the current one changes nothing of the tunnel and hands
nothing on; from a dial on, for as long as the generation lasts, the states are dialing, connected,
registered and disconnected in this order, none of them twice; and the flag of the remote page is
set only while the tunnel is connected or registered. -/
theorem generations_in_order (label : String) (options : TunnelOptions) (moves : List Move) :
    let w := (new label options).run moves
    (∀ now generation, generation ≠ w.tunnel.generation →
      (w.next (.callback now generation)).tunnel = w.tunnel ∧
        (w.next (.callback now generation)).delivered = w.delivered) ∧
    (∀ dial during, w.isDial dial = true →
      ((w.next dial).run during).tunnel.generation = (w.next dial).tunnel.generation →
      ((w.next dial).states during).destutter (· ≠ ·) ∈
        ([[.dialing], [.dialing, .connected], [.dialing, .connected, .disconnected],
          [.dialing, .connected, .registered],
          [.dialing, .connected, .registered, .disconnected]] : List (List ConnectionState))) ∧
    (w.tunnel.uiConnected = true →
      w.tunnel.state = .connected ∨ w.tunnel.state = .registered) := by
  intro w
  have h : w.Sound := (sound_new label options).run moves
  refine ⟨fun now generation hne => callback_of_ne hne now, fun dial during hdial hg => ?_,
    fun hset => ?_⟩
  · obtain ⟨hstate, hfree, -⟩ := h.next_dial hdial
    have hcourse := (h.next dial).states_mem_courses hfree during hg
    rw [hstate] at hcourse
    exact hcourse
  · have hup := h.flag hset
    cases hs : w.tunnel.state with
    | connected => exact .inl rfl
    | registered => exact .inr rfl
    | dialing | disconnected => rw [hs] at hup; cases hup

/-- A dial, a connection, a registration, and a callback that comes too late. -/
theorem generations_in_order_registered :
    let steps : List Move :=
      [.event .zero (.configure "wss://broker.example" "pier-1" "" "ws_control"),
       .event .zero (.setEnabled true), .event .zero (.worker .look),
       .event .zero (.worker (.passed true))]
    let dial : Move := .event .zero (.worker .locked)
    let message : List UInt8 := Text.bytes "\x7b\"type\":\"registered\"\x7d"
    let during : List Move :=
      [.event .zero (.network 1 0 .start), .event .zero (.network 1 0 .dialed), .callback .zero 1,
       .event .zero (.network 1 0 (.received message false)), .callback .zero 1,
       .callback .zero 0]
    let w := (new "/ws/control" .usual).run steps
    w.isDial dial = true ∧
      ((w.next dial).run during).tunnel.generation = (w.next dial).tunnel.generation ∧
      ((w.next dial).run during).tunnel.state = .registered ∧
      ((w.next dial).states during).destutter (· ≠ ·) ∈
        ([[.dialing], [.dialing, .connected], [.dialing, .connected, .disconnected],
          [.dialing, .connected, .registered],
          [.dialing, .connected, .registered, .disconnected]] : List (List ConnectionState)) := by
  dsimp only
  refine ⟨by decide +kernel, by decide +kernel, by decide +kernel, ?_⟩
  exact (generations_in_order "/ws/control" .usual _).2.1 _ _ (by decide +kernel)
    (by decide +kernel)

end DeviceRelay.Watched
