import DeviceRelay.Proofs.Tunnel.Callbacks
import DeviceRelay.Proofs.Tunnel.Sends

/-!
# What a move does to a tunnel

A move of a tunnel with its callbacks is a step of the tunnel, a step of one of its clients, or a
callback. A client reaches no further than itself, and a callback that counts leaves tasks, sends
and transports alone: nothing but the steps of the tunnel begins or ends any of these.

* `Tunnel.onClientEvent_snd`: what a callback can change at all.
* `Watched.Changed`, `Watched.Sound.changed`: all that a move can do.
-/

namespace DeviceRelay

namespace Tunnel

theorem handleInbound_snd (t : Tunnel) (now : Duration) (payload : List UInt8)
    (isBinary : Bool) :
    ∃ state uiConnected record, (t.handleInbound now payload isBinary).2 =
      { t with state := state, uiConnected := uiConnected, record := record } := by
  unfold handleInbound
  dsimp only
  split
  · exact ⟨t.state, t.uiConnected, t.record, rfl⟩
  · split
    · exact ⟨t.state, t.uiConnected, t.record, rfl⟩
    · split
      · rename_i c _
        cases c <;> exact ⟨_, _, _, rfl⟩
      · exact ⟨t.state, t.uiConnected, t.record, rfl⟩

/-- A callback sets the state, the flag of the remote page and the registration at most. -/
theorem onClientEvent_snd (t : Tunnel) (generation : Nat) (now : Duration) (e : ClientEvent) :
    ∃ state uiConnected record, (t.onClientEvent generation now e).2 =
      { t with state := state, uiConnected := uiConnected, record := record } := by
  unfold onClientEvent
  split
  · exact ⟨t.state, t.uiConnected, t.record, rfl⟩
  · cases e with
    | connected | disconnected => exact ⟨_, _, t.record, rfl⟩
    | message payload isBinary => exact t.handleInbound_snd now payload isBinary
    | failed e => exact ⟨t.state, t.uiConnected, t.record, rfl⟩

end Tunnel

namespace Watched

variable {w : Watched} {m : Move}

/-- What a move can do to the tunnel. -/
inductive Changed (w : Watched) : Move → Tunnel → Prop where
  /-- It cannot happen, or is a callback that carries nothing. -/
  | stays (m : Move) : Changed w m w.tunnel
  | steps {now : Duration} {e : TunnelEvent} {t : Tunnel} {seen : List TunnelEffect}
      (he : ∀ generation task s, e ≠ .network generation task s)
      (h : w.tunnel.step now e = some (t, seen)) : Changed w (.event now e) t
  | client {now : Duration} {generation task : Nat} {s : OutboundClient.NetworkStep}
      {tr : Transport} {client : OutboundClient} {events : List ClientEvent}
      (hfind : w.tunnel.transports.find? (fun tr => tr.generation = generation) = some tr)
      (h : tr.client.taskStep task now s = some (client, events)) :
      Changed w (.event now (.network generation task s))
        (w.tunnel.putTransport { tr with client := client })
  /-- A callback of the transport that is installed. -/
  | hears {now : Duration} {generation : Nat} (htr : w.tunnel.transport.isSome = true)
      (state : ConnectionState) (uiConnected : Bool) (record : RegistrationRecord) :
      Changed w (.callback now generation) { w.tunnel with
        state := state, uiConnected := uiConnected, record := record }

theorem changed_clientStep (w : Watched) (now : Duration) (generation task : Nat)
    (s : OutboundClient.NetworkStep) :
    Changed w (.event now (.network generation task s))
      (w.clientStep now generation task s).tunnel := by
  unfold clientStep
  split
  · exact .stays _
  · rename_i tr hfind
    split
    · exact .stays _
    · rename_i client events hstep
      exact .client hfind hstep

theorem Sound.changed_callback (h : w.Sound) (now : Duration) (generation : Nat) :
    Changed w (.callback now generation) (w.callback now generation).tunnel := by
  unfold Watched.callback
  split
  · exact .stays _
  · rename_i e events hdue
    by_cases hg : generation = w.tunnel.generation
    · subst hg
      obtain ⟨tr, -, -, htr, -⟩ := h.told hdue
      obtain ⟨state, uiConnected, record, heq⟩ :=
        w.tunnel.onClientEvent_snd w.tunnel.generation now e
      dsimp only
      rw [heq]
      exact .hears (by rw [htr]; rfl) state uiConnected record
    · rw [onClientEvent_of_ne hg]
      exact .stays _

/-- A step of the tunnel that no client takes. -/
theorem next_of_step {now : Duration} {e : TunnelEvent} {t : Tunnel} {seen : List TunnelEffect}
    (he : ∀ generation task s, e ≠ .network generation task s)
    (h : w.tunnel.step now e = some (t, seen)) :
    w.next (.event now e) = { w with tunnel := t } := by
  cases e with
  | network generation task s => exact absurd rfl (he generation task s)
  | _ => simp only [Watched.next, h]

theorem next_of_step_eq_none {now : Duration} {e : TunnelEvent}
    (he : ∀ generation task s, e ≠ .network generation task s)
    (h : w.tunnel.step now e = none) : w.next (.event now e) = w := by
  cases e with
  | network generation task s => exact absurd rfl (he generation task s)
  | _ => simp only [Watched.next, h]

/-- **All that a move can do** to the tunnel. -/
theorem Sound.changed (h : w.Sound) (m : Move) : Changed w m (w.next m).tunnel := by
  cases m with
  | callback now generation => exact h.changed_callback now generation
  | event now e =>
    by_cases he : ∃ generation task s, e = .network generation task s
    · obtain ⟨generation, task, s, rfl⟩ := he
      exact w.changed_clientStep now generation task s
    · have he : ∀ generation task s, e ≠ .network generation task s :=
        fun generation task s heq => he ⟨generation, task, s, heq⟩
      cases hstep : w.tunnel.step now e with
      | none =>
        rw [next_of_step_eq_none he hstep]
        exact .stays _
      | some after =>
        obtain ⟨t, seen⟩ := after
        rw [next_of_step he hstep]
        exact .steps he hstep

end Watched

end DeviceRelay
