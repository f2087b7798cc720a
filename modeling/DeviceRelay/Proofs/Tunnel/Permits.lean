import DeviceRelay.Proofs.Tunnel.Stances
import Mathlib.Data.List.Nodup
import Mathlib.Data.List.Perm.Basic

/-!
# Permits of the dial gate

A worker asks the gate for a permit, waits in line for it, takes it past the gate and keeps it to
the end of its hold. However the dials of several tunnels come together, each permit is with a
worker on this way or available, and whatever takes a worker off the way gives its permit to the
first in line or back to the gate.

* `DialGate.Returned`: a permit is given back.
* `Fleet.windows`: the tunnels whose worker has a permit.
* `Fleet.Accounted`: what holds of a gate and the tunnels that share it, whatever they do.
* `Fleet.permits_conserved`: the theorem on permits.
-/

namespace DeviceRelay

/-! ## The gate -/

namespace DialGate

variable {g : DialGate} {dial : Nat}

/-- Who has a permit or waits for one. -/
def askers (g : DialGate) : List Nat := g.holders ++ g.line.map Prod.fst

/-- The permit of a dial is given back: the first in line has it, or it is there for the next who
asks. -/
def Returned (g : DialGate) (dial : Nat) (g' : DialGate) : Prop :=
  (∃ next giveUpAt line, g.line = (next, giveUpAt) :: line ∧
    g' = { g with holders := next :: g.holders.erase dial, line := line }) ∨
  (g.line = [] ∧ g' = { g with free := g.free + 1, holders := g.holders.erase dial })

theorem holds_iff : g.holds dial = true ↔ dial ∈ g.holders := by simp [holds]

theorem waits_iff : g.waits dial = true ↔ dial ∈ g.line.map Prod.fst := by
  simp [waits]

theorem perm_askers_request (g : DialGate) (dial : Nat) (now : Duration) :
    (g.request dial now).askers.Perm (dial :: g.askers) := by
  unfold request askers
  split
  · exact .refl _
  · simp only [List.map_append, List.map_cons, List.map_nil, ← List.append_assoc]
    exact List.perm_append_singleton ..

theorem perm_askers_putBack (g : DialGate) : g.putBack.askers.Perm g.askers := by
  unfold putBack askers
  split
  case h_1 next giveUpAt line heq =>
    rw [heq]
    exact List.perm_middle.symm
  case h_2 => exact .refl _

/-- Who leaves is gone, and nobody else. -/
theorem perm_askers_leave (hnodup : g.askers.Nodup) (dial : Nat) :
    (g.leave dial).askers.Perm (g.askers.erase dial) := by
  unfold leave
  split
  case isTrue hholds =>
    refine (perm_askers_putBack _).trans ?_
    rw [askers, askers, List.erase_append_left _ (holds_iff.mp hholds)]
  case isFalse hholds =>
    have hline : (g.line.map Prod.fst).Nodup := (List.nodup_append.mp hnodup).2.1
    rw [askers, askers, List.erase_append_right _ (mt holds_iff.mpr hholds),
      hline.erase_eq_filter, List.filter_map]
    refine .of_eq (congrArg (g.holders ++ List.map _ ·) (List.filter_congr fun w _ => ?_))
    exact decide_not

theorem mem_askers_leave (hnodup : g.askers.Nodup) {other : Nat} :
    other ∈ (g.leave dial).askers ↔ other ≠ dial ∧ other ∈ g.askers := by
  rw [(perm_askers_leave hnodup dial).mem_iff, hnodup.mem_erase_iff]

/-- The permit of a holder who leaves is given back. -/
theorem returned_leave (h : g.holds dial = true) : g.Returned dial (g.leave dial) := by
  unfold leave putBack
  rw [if_pos h]
  dsimp only
  split
  case h_1 next giveUpAt line heq => exact .inl ⟨next, giveUpAt, line, heq, rfl⟩
  case h_2 heq => exact .inr ⟨heq, rfl⟩

/-- Permits that are there are not waited for. -/
theorem free_request (h : g.line ≠ [] → g.free = 0) (now : Duration) :
    (g.request dial now).line ≠ [] → (g.request dial now).free = 0 := by
  unfold request
  split
  case isTrue hfree =>
    intro hline
    have := h hline
    omega
  case isFalse hfree => exact fun _ => by simpa using hfree

theorem free_leave (h : g.line ≠ [] → g.free = 0) :
    (g.leave dial).line ≠ [] → (g.leave dial).free = 0 := by
  by_cases hholds : g.holds dial = true
  · obtain ⟨next, giveUpAt, line, heq, hleave⟩ | ⟨heq, hleave⟩ := returned_leave hholds
    · rw [hleave]
      exact fun _ => h (by simp [heq])
    · rw [hleave]
      exact fun hline => absurd heq hline
  · unfold leave
    rw [if_neg hholds]
    exact fun hline => h fun hnil => hline (by simp [hnil])

theorem mem_holders_request {other : Nat} (h : other ∈ g.holders) (now : Duration) :
    other ∈ (g.request dial now).holders := by
  unfold request
  split
  · exact List.mem_cons_of_mem _ h
  · exact h

theorem mem_holders_leave {other : Nat} (hne : other ≠ dial) (h : other ∈ g.holders) :
    other ∈ (g.leave dial).holders := by
  by_cases hholds : g.holds dial = true
  · have herase : other ∈ g.holders.erase dial := (List.mem_erase_of_ne hne).mpr h
    obtain ⟨next, giveUpAt, line, -, hleave⟩ | ⟨-, hleave⟩ := returned_leave hholds
    · rw [hleave]
      exact List.mem_cons_of_mem _ herase
    · rw [hleave]
      exact herase
  · unfold leave
    rw [if_neg hholds]
    exact h

/-- A permit is given at once where one is available. -/
theorem holds_request_iff (h : dial ∉ g.askers) (now : Duration) :
    (g.request dial now).holds dial = true ↔ 0 < g.free := by
  have hholders : dial ∉ g.holders := fun hmem => h (List.mem_append_left _ hmem)
  rw [holds_iff]
  unfold request
  split
  case isTrue hfree => simp [hfree]
  case isFalse hfree => simp [hfree, hholders]

end DialGate

/-! ## The tunnels that share a gate -/

namespace Fleet

variable {f f' : Fleet} {i : Nat} {now : Duration} {e : TunnelEvent} {seen : List TunnelEffect}
  {permits : Nat}

/-- Tunnels that were never enabled, with a gate that nobody has gone to. -/
def fresh (n : Nat) (wait : Duration) (endpoints : List (String × TunnelOptions)) : Fleet :=
  ⟨.new n wait, endpoints.map fun (label, options) => .new label options⟩

/-- Where the worker of a tunnel stands, if there is such a tunnel. -/
def stance (f : Fleet) (i : Nat) : Stance := ((f.tunnels[i]?).map Tunnel.stance).getD .away

/-- Whether the worker of a tunnel is on its way from getting a permit to the end of its hold: it
is past the gate with one, or at the gate and out of the line. -/
def inWindow (f : Fleet) (i : Nat) : Bool :=
  match f.stance i with
  | .away => false
  | .asking => !f.gate.waits i
  | .holding => true

/-- The tunnels whose worker is on its way from getting a permit to the end of its hold. -/
def windows (f : Fleet) : List Nat := (List.range f.tunnels.length).filter f.inWindow

/-- What holds of the gate and the tunnels that share it. -/
structure Accounted (permits : Nat) (f : Fleet) : Prop where
  total : f.gate.free + f.gate.holders.length = permits
  nodup : f.gate.askers.Nodup
  busy : f.gate.line ≠ [] → f.gate.free = 0
  asks : ∀ i, i ∈ f.gate.askers ↔ f.stance i ≠ .away
  holds : ∀ i, f.stance i = .holding → i ∈ f.gate.holders

theorem stance_fresh (n : Nat) (wait : Duration) (endpoints : List (String × TunnelOptions))
    (i : Nat) : (fresh n wait endpoints).stance i = .away := by
  simp only [stance, fresh, List.getElem?_map, Option.map_map]
  cases endpoints[i]? <;> rfl

theorem accounted_fresh (n : Nat) (wait : Duration) (endpoints : List (String × TunnelOptions)) :
    (fresh n wait endpoints).Accounted (max n 1) where
  total := rfl
  nodup := List.nodup_nil
  busy h := absurd rfl h
  asks i := by
    rw [stance_fresh]
    simp [fresh, DialGate.askers, DialGate.new]
  holds i h := by
    rw [stance_fresh] at h
    cases h

/-! ### One event -/

/-- What an event means for the gate: its tunnel goes there, stays as it is, or goes away. -/
inductive GateMoved (f : Fleet) (i : Nat) (now : Duration) (e : TunnelEvent) (f' : Fleet) :
    Prop where
  | stays (h : f'.stance i = f.stance i) (hgate : f'.gate = f.gate)
  | asks (h : f.stance i = .away) (h' : f'.stance i = .asking)
      (hgate : f'.gate = f.gate.request i now)
  | passes (h : f.stance i = .asking) (h' : f'.stance i = .holding) (hgate : f'.gate = f.gate)
      (hholds : f.gate.holds i = true)
  | leaves (t : Tunnel) (w : Worker) (ht : f.tunnels[i]? = some t) (hw : t.worker = some w)
      (hends : t.DialEnds w e) (h : f.stance i ≠ .away) (h' : f'.stance i = .away)
      (hgate : f'.gate = f.gate.leave i)

theorem step_spec (h : f.step i now e = some (f', seen)) :
    ∃ t t', f.tunnels[i]? = some t ∧ admits f.gate i now e = true ∧
      t.step now e = some (t', seen) ∧
      f' = ⟨syncGate f.gate i t t' now, f.tunnels.set i t'⟩ := by
  unfold step at h
  split at h
  case h_1 => cases h
  case h_2 t ht =>
    simp only [Option.ite_none_right_eq_some] at h
    obtain ⟨⟨t', seen'⟩, hstep, heq⟩ := Option.map_eq_some_iff.mp h.2
    cases heq
    exact ⟨t, t', ht, h.1, hstep, rfl⟩

theorem stance_set {t t' : Tunnel} (ht : f.tunnels[i]? = some t) (gate : DialGate) (j : Nat) :
    (⟨gate, f.tunnels.set i t'⟩ : Fleet).stance j = if j = i then t'.stance else f.stance j := by
  obtain ⟨hlt, -⟩ := List.getElem?_eq_some_iff.mp ht
  unfold stance
  split
  case isTrue hj => simp [hj, hlt]
  case isFalse hj => simp [List.getElem?_set_ne (Ne.symm hj)]

theorem gateMoved_of_step (h : f.step i now e = some (f', seen)) :
    GateMoved f i now e f' ∧ (∀ j, j ≠ i → f'.stance j = f.stance j) := by
  obtain ⟨t, t', ht, hadmits, hstep, rfl⟩ := step_spec h
  have hstance : f.stance i = t.stance := by simp [stance, ht]
  have hafter : (⟨syncGate f.gate i t t' now, f.tunnels.set i t'⟩ : Fleet).stance i = t'.stance := by
    rw [stance_set ht, if_pos rfl]
  refine ⟨?_, fun j hj => by rw [stance_set ht, if_neg hj]⟩
  cases Tunnel.stance_of_step hstep with
  | stays hs =>
    refine .stays (by rw [hafter, hs, hstance]) ?_
    simp only [syncGate, Tunnel.wantsPermit_eq, hs]
    split <;> simp_all
  | asks hs hs' =>
    refine .asks (hstance.trans hs) (hafter.trans hs') ?_
    simp [syncGate, Tunnel.wantsPermit_eq, hs, hs']
  | passes he hs hs' =>
    subst he
    refine .passes (hstance.trans hs) (hafter.trans hs') ?_ hadmits
    simp [syncGate, Tunnel.wantsPermit_eq, hs, hs']
  | leaves w hw hends hs' =>
    by_cases hs : t.stance = .away
    · refine .stays (by rw [hafter, hs', hstance, hs]) ?_
      simp [syncGate, Tunnel.wantsPermit_eq, hs, hs']
    · refine .leaves t w ht hw hends (by rwa [hstance]) (hafter.trans hs') ?_
      simp [syncGate, Tunnel.wantsPermit_eq, hs, hs']

/-- **One event** of one tunnel. -/
theorem Accounted.step (h : f.Accounted permits) (hstep : f.step i now e = some (f', seen)) :
    f'.Accounted permits := by
  obtain ⟨hmoved, hothers⟩ := gateMoved_of_step hstep
  cases hmoved with
  | stays hs hgate =>
    have hstance : ∀ j, f'.stance j = f.stance j := fun j =>
      if hj : j = i then hj ▸ hs else hothers j hj
    refine ⟨?_, ?_, ?_, fun j => ?_, fun j => ?_⟩
    · rw [hgate]; exact h.total
    · rw [hgate]; exact h.nodup
    · rw [hgate]; exact h.busy
    · rw [hgate, hstance]; exact h.asks j
    · rw [hgate, hstance]; exact h.holds j
  | asks hs hs' hgate =>
    have hnew : i ∉ f.gate.askers := fun hmem => (h.asks i).mp hmem hs
    have hperm := f.gate.perm_askers_request i now
    refine ⟨?_, ?_, ?_, fun j => ?_, fun j hj => ?_⟩
    · rw [hgate, DialGate.free_add_holders_request]
      exact h.total
    · rw [hgate, hperm.nodup_iff]
      exact List.nodup_cons.mpr ⟨hnew, h.nodup⟩
    · rw [hgate]
      exact DialGate.free_request h.busy now
    · rw [hgate, hperm.mem_iff, List.mem_cons]
      by_cases hj : j = i
      · simp [hj, hs']
      · simp [hj, hothers j hj, h.asks j]
    · rw [hgate]
      have hne : j ≠ i := by
        rintro rfl
        cases hs'.symm.trans hj
      exact DialGate.mem_holders_request (h.holds j (hothers j hne ▸ hj)) now
  | passes hs hs' hgate hholds =>
    refine ⟨?_, ?_, ?_, fun j => ?_, fun j hj => ?_⟩
    · rw [hgate]; exact h.total
    · rw [hgate]; exact h.nodup
    · rw [hgate]; exact h.busy
    · rw [hgate, h.asks j]
      by_cases hj : j = i
      · simp [hj, hs, hs']
      · rw [hothers j hj]
    · rw [hgate]
      by_cases hji : j = i
      · rw [hji]
        exact DialGate.holds_iff.mp hholds
      · exact h.holds j (hothers j hji ▸ hj)
  | leaves t w ht hw hends hs hs' hgate =>
    refine ⟨?_, ?_, ?_, fun j => ?_, fun j hj => ?_⟩
    · rw [hgate, DialGate.free_add_holders_leave]
      exact h.total
    · rw [hgate, (DialGate.perm_askers_leave h.nodup i).nodup_iff]
      exact h.nodup.erase i
    · rw [hgate]
      exact DialGate.free_leave h.busy
    · rw [hgate, DialGate.mem_askers_leave h.nodup]
      by_cases hj : j = i
      · simp [hj, hs']
      · simp [hj, hothers j hj, h.asks j]
    · rw [hgate]
      have hne : j ≠ i := by
        rintro rfl
        cases hs'.symm.trans hj
      exact DialGate.mem_holders_leave hne (h.holds j (hothers j hne ▸ hj))

/-- **All events** of all tunnels, in whatever order. -/
theorem Accounted.run (h : f.Accounted permits) {events : List (Nat × Duration × TunnelEvent)}
    (hrun : f.run events = some (f', seen)) : f'.Accounted permits := by
  induction events generalizing f seen with
  | nil =>
    cases hrun
    exact h
  | cons event events ih =>
    obtain ⟨i, now, e⟩ := event
    obtain ⟨⟨f₁, seen₁⟩, hstep, hrest⟩ := Option.bind_eq_some_iff.mp hrun
    obtain ⟨⟨f₂, seen₂⟩, hrun', heq⟩ := Option.bind_eq_some_iff.mp hrest
    cases heq
    exact ih (h.step hstep) hrun'

/-! ### The accounts -/

/-- A permit is with a worker from the moment that it gets it to the end of its hold, and with no
other. -/
theorem Accounted.holds_eq_inWindow (h : f.Accounted permits) (i : Nat) :
    f.gate.holds i = f.inWindow i := by
  have hasks := h.asks i
  rw [DialGate.askers, List.mem_append, ← DialGate.holds_iff, ← DialGate.waits_iff] at hasks
  unfold inWindow
  cases hs : f.stance i with
  | away =>
    simp only [hs, ne_eq, not_true_eq_false, iff_false, not_or, Bool.not_eq_true] at hasks
    exact hasks.1
  | holding => exact DialGate.holds_iff.mpr (h.holds i hs)
  | asking =>
    have hor : f.gate.holds i = true ∨ f.gate.waits i = true := hasks.mpr (by simp [hs])
    have hboth : ¬(f.gate.holds i = true ∧ f.gate.waits i = true) := by
      rw [DialGate.holds_iff, DialGate.waits_iff]
      exact fun ⟨hholds, hwaits⟩ => (List.nodup_append.mp h.nodup).2.2 i hholds i hwaits rfl
    revert hor hboth
    cases f.gate.holds i <;> cases f.gate.waits i <;> decide

theorem Accounted.perm_windows (h : f.Accounted permits) : f.gate.holders.Perm f.windows := by
  refine (List.perm_ext_iff_of_nodup (List.nodup_append.mp h.nodup).1
    (List.nodup_range.filter _)).mpr fun i => ?_
  rw [List.mem_filter, ← h.holds_eq_inWindow, DialGate.holds_iff, List.mem_range]
  refine ⟨fun hmem => ⟨?_, hmem⟩, And.right⟩
  -- who holds a permit is one of the tunnels
  by_contra hlt
  refine (h.asks i).mp (List.mem_append_left _ hmem) ?_
  simp [stance, List.getElem?_eq_none (Nat.le_of_not_lt hlt)]

/-- Once a dial has ended, its worker neither holds a permit nor waits for one, and the permit that
it held is given back. -/
theorem Accounted.ended (h : f.Accounted permits) {t : Tunnel} {w : Worker}
    (ht : f.tunnels[i]? = some t) (hw : t.worker = some w) (hends : t.DialEnds w e)
    (hstep : f.step i now e = some (f', seen)) :
    f'.gate.holds i = false ∧ f'.gate.waits i = false ∧
      (f.gate.holds i = true → f.gate.Returned i f'.gate) := by
  have haway : f'.stance i = .away := by
    obtain ⟨u, u', hu, -, hustep, rfl⟩ := step_spec hstep
    cases ht.symm.trans hu
    rw [stance_set ht, if_pos rfl]
    exact hends.stance_eq_away hw hustep
  have hgone : i ∉ f'.gate.askers := fun hmem => ((h.step hstep).asks i).mp hmem haway
  rw [DialGate.askers, List.mem_append, ← DialGate.holds_iff, ← DialGate.waits_iff, not_or,
    Bool.not_eq_true, Bool.not_eq_true] at hgone
  refine ⟨hgone.1, hgone.2, fun hholds => ?_⟩
  have hasked : f.stance i ≠ .away :=
    (h.asks i).mp (List.mem_append_left _ (DialGate.holds_iff.mp hholds))
  cases (gateMoved_of_step hstep).1 with
  | stays hs => exact absurd (hs.symm.trans haway) hasked
  | asks _ hs' => cases hs'.symm.trans haway
  | passes _ hs' => cases hs'.symm.trans haway
  | leaves _ _ _ _ _ _ _ hgate =>
    rw [hgate]
    exact DialGate.returned_leave hholds

/-- A worker keeps its permit until its dial has ended in one of the known ways. -/
theorem Accounted.ends (h : f.Accounted permits) (hstep : f.step i now e = some (f', seen))
    (hholds : f.gate.holds i = true) (hgone : f'.gate.holds i = false) :
    ∃ t w, f.tunnels[i]? = some t ∧ t.worker = some w ∧ t.DialEnds w e := by
  cases (gateMoved_of_step hstep).1 with
  | stays _ hgate | passes _ _ hgate =>
    rw [hgate, hholds] at hgone
    cases hgone
  | asks hs =>
    exact absurd hs ((h.asks i).mp (List.mem_append_left _ (DialGate.holds_iff.mp hholds)))
  | leaves t w ht hw hends => exact ⟨t, w, ht, hw, hends⟩

/-- A worker that comes to the gate has a permit at once where not all are with others. -/
theorem Accounted.asked (h : f.Accounted permits) (hstep : f.step i now e = some (f', seen))
    (haway : f.stance i = .away) (hasks : f'.stance i = .asking) :
    f'.gate.holds i = true ↔ f.windows.length < permits := by
  have hnew : i ∉ f.gate.askers := fun hmem => (h.asks i).mp hmem haway
  have hlength := h.perm_windows.length_eq
  have htotal := h.total
  cases (gateMoved_of_step hstep).1 with
  | stays hs => cases haway.symm.trans (hs.symm.trans hasks)
  | passes hs => cases haway.symm.trans hs
  | leaves _ _ _ _ _ _ hs' => cases hs'.symm.trans hasks
  | asks _ _ hgate =>
    rw [hgate, DialGate.holds_request_iff hnew]
    omega

/-- **Permits are conserved.** Take a gate for `n` dials and any tunnels that share it, and any
order of their events, which are the steps of their workers, clients, owners and sends. Then the
permits that are with workers and those that are available make up `max 1 n`; a worker has a permit
just while it is on its way from getting it to the end of its hold; and nobody waits for a permit
that is available. At the next event of a tunnel, whichever it is, a worker that comes to the gate
is given a permit just if not all are with others. If a dial ends, stopped at the gate, after
a wait in vain, by a configuration that the client refuses, with the connection, stopped during the
hold, at the end of the hold, without a connection or aborted, its worker then neither holds a
permit nor waits for one, and the permit that it held goes to the first in line or back to the gate.
And only so does a worker lose its permit. -/
theorem permits_conserved (n : Nat) (wait : Duration) (endpoints : List (String × TunnelOptions))
    (events : List (Nat × Duration × TunnelEvent)) {f : Fleet} {seen : List TunnelEffect}
    (hrun : (fresh n wait endpoints).run events = some (f, seen)) :
    f.windows.length + f.gate.available = max 1 n ∧
    (∀ i, f.gate.holds i = f.inWindow i) ∧ f.gate.holders.Perm f.windows ∧
    (f.gate.line ≠ [] → f.gate.available = 0) ∧
    ∀ i now e f' seen', f.step i now e = some (f', seen') →
      (f.stance i = .away → f'.stance i = .asking →
        (f'.gate.holds i = true ↔ f.windows.length < max 1 n)) ∧
      (∀ t w, f.tunnels[i]? = some t → t.worker = some w → t.DialEnds w e →
        f'.gate.holds i = false ∧ f'.gate.waits i = false ∧
          (f.gate.holds i = true → f.gate.Returned i f'.gate)) ∧
      (f.gate.holds i = true → f'.gate.holds i = false →
        ∃ t w, f.tunnels[i]? = some t ∧ t.worker = some w ∧ t.DialEnds w e) := by
  have h : f.Accounted (max 1 n) :=
    Nat.max_comm n 1 ▸ (accounted_fresh n wait endpoints).run hrun
  have hlength := h.perm_windows.length_eq
  have htotal := h.total
  refine ⟨?_, h.holds_eq_inWindow, h.perm_windows, h.busy, fun i now e f' seen' hstep => ?_⟩
  · rw [← hlength, DialGate.available]
    omega
  · exact ⟨h.asked hstep, fun t w ht hw hends => h.ended ht hw hends hstep, h.ends hstep⟩

/-- Two tunnels share a gate of one permit. The first is dialing, the second waits in line, and
the end of the first one's hold hands the permit over. -/
theorem permits_conserved_handed_over :
    let endpoints := [("/ws/control", TunnelOptions.usual), ("/ws/camera", TunnelOptions.usual)]
    let configure (key : String) : TunnelEvent :=
      .configure "wss://broker.example" "pier-1" "" key
    let events : List (Nat × Duration × TunnelEvent) :=
      [(0, .zero, configure "ws_control"), (1, .zero, configure "ws_camera"),
       (0, .zero, .setEnabled true), (1, .zero, .setEnabled true), (0, .zero, .worker .look),
       (1, .zero, .worker .look), (0, .zero, .worker (.passed true)),
       (0, .zero, .worker .locked)]
    ∃ f seen f' seen', (fresh 0 (.ofSeconds 15) endpoints).run events = some (f, seen) ∧
      f.step 0 (.ofSeconds 2) (.worker .releasedPermit) = some (f', seen') ∧
      f.windows = [0] ∧ f.gate.waits 1 = true ∧
      f.windows.length + f.gate.available = max 1 0 ∧
      f'.windows = [1] ∧ f'.gate.holds 0 = false ∧ f.gate.Returned 0 f'.gate := by
  intro endpoints configure events
  have hrun : ((fresh 0 (.ofSeconds 15) endpoints).run events).isSome = true := by
    decide +kernel
  obtain ⟨⟨f, seen⟩, hrun⟩ := Option.isSome_iff_exists.mp hrun
  have hbefore : ((fresh 0 (.ofSeconds 15) endpoints).run events).map
      (fun r => (r.1.windows, r.1.gate.waits 1, r.1.gate.holds 0)) = some ([0], true, true) := by
    decide +kernel
  have hafter : (((fresh 0 (.ofSeconds 15) endpoints).run events).bind fun r =>
      r.1.step 0 (.ofSeconds 2) (.worker .releasedPermit)).map (·.1.windows) = some [1] := by
    decide +kernel
  have hdial : ((fresh 0 (.ofSeconds 15) endpoints).run events).bind (fun r =>
      (r.1.tunnels[0]?).bind fun t => t.worker.bind fun w =>
        some (decide (w.phase = .connecting ⟨t.config,
          "wss://broker.example/ws/device/pier-1?announce=1&tunnel=ws_control"⟩ true .zero))) =
      some true := by
    decide +kernel
  rw [hrun] at hbefore hafter hdial
  simp only [Option.map_some, Option.some.injEq, Prod.mk.injEq] at hbefore
  obtain ⟨hwindows, hwaits, hholds⟩ := hbefore
  rw [Option.bind_some] at hafter hdial
  obtain ⟨⟨f', seen'⟩, hstep, hwindows'⟩ := Option.map_eq_some_iff.mp hafter
  obtain ⟨t, ht, hdial⟩ := Option.bind_eq_some_iff.mp hdial
  obtain ⟨w, hw, hphase⟩ := Option.bind_eq_some_iff.mp hdial
  obtain ⟨htotal, -, -, -, hnext⟩ := permits_conserved 0 (.ofSeconds 15) endpoints events hrun
  have hends : t.DialEnds w (.worker .releasedPermit) :=
    .holdOver _ _ _ (of_decide_eq_true (Option.some.inj hphase))
  obtain ⟨hreleased, -, hreturned⟩ := (hnext 0 _ _ f' seen' hstep).2.1 t w ht hw hends
  exact ⟨f, seen, f', seen', hrun, hstep, hwindows, hwaits, htotal, hwindows', hreleased,
    hreturned hholds⟩

end Fleet

end DeviceRelay
