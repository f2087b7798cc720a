import DeviceRelay.Proofs.Tunnel.Pace
import DeviceRelay.Relays.Settings
import Mathlib.Data.List.Chain

/-!
# The waits of a worker

A worker that dials rests before it dials again, and for how long depends on the snapshot that it
dialed with alone: never less than the snapshot's delay, or the ceiling where that is shorter, and
never more than the ceiling. The bounds carry over from one session to the next, however long the
sessions last, and a snapshot with another delay starts them over. No document has a delay of zero.

* `Deed`, `Watched.deeds`: what the workers of a tunnel do.
* `Deed.Follows`: which deed of a worker comes after which.
* `Tunnel.Paced`, `Tunnel.Paced.drives`: where a worker is, by its last deed.
* `CloudSettings.reconnectDelay_pos`: the delays that a document can hold.
* `Watched.never_spins`: the theorem on waits.
-/

namespace DeviceRelay

/-- What takes a worker from one stage to another. -/
inductive Deed where
  /-- A new worker is put into the slot. -/
  | begins
  /-- It leaves an incomplete configuration alone. -/
  | pauses
  /-- It goes to the gate with a snapshot of the configuration. -/
  | dials (config : TunnelConfig)
  /-- Its attempt is over, and it waits. -/
  | rests (since delay : Duration)
  /-- Its wait is over. -/
  | wakes (now : Duration)
  deriving DecidableEq, Repr

/-- The deed of a worker that goes from one stage to another. -/
def Stage.deed? (config : TunnelConfig) (now : Duration) : Option Stage → Option Stage → Option Deed
  | none, some .starting => some .begins
  | some .finished, some .starting => some .begins
  | some .starting, some .pausing => some .pauses
  | some .starting, some (.trying _) => some (.dials config)
  | some (.trying _), some (.resting _ delay) => some (.rests now delay)
  | some (.resting _ _), some .starting => some (.wakes now)
  | _, _ => none

/-- The deed that is seen from one moment to the next. -/
def Tunnel.deed? (t : Tunnel) (now : Duration) (t' : Tunnel) : Option Deed :=
  Stage.deed? t.config now (t.pace.map Pace.stage) (t'.pace.map Pace.stage)

/-- The deeds of the workers that are in the slot during moves. -/
def Watched.deeds (w : Watched) : List Watched.Move → List Deed
  | [] => []
  | m :: moves => (w.tunnel.deed? m.now (w.next m).tunnel).toList ++ (w.next m).deeds moves

namespace Deed

/-- Which deed comes after which. Only a new worker dials without a wait before it. -/
inductive Follows : Deed → Deed → Prop where
  | begins (d : Deed) : Follows d .begins
  | pauses {d : Deed} (h : d = .begins ∨ d = .pauses) : Follows d .pauses
  | dials {d : Deed} (config : TunnelConfig)
      (h : d = .begins ∨ d = .pauses ∨ ∃ now, d = .wakes now) : Follows d (.dials config)
  | rests {config : TunnelConfig} {since delay : Duration}
      (hlower : min config.reconnectDelay (.ofSeconds 30) ≤ delay)
      (hupper : delay ≤ .ofSeconds 30) : Follows (.dials config) (.rests since delay)
  | wakes {since delay now : Duration} (hdue : since.add delay ≤ now) :
      Follows (.rests since delay) (.wakes now)

/-- Deeds of one worker after the other. -/
structure Orderly (deeds : List Deed) : Prop where
  head : ∀ d ∈ deeds.head?, d = .begins
  chain : deeds.IsChain Follows

theorem orderly_nil : Orderly [] := ⟨nofun, .nil⟩

variable {deeds : List Deed} {d d' : Deed}

/-- One more deed. -/
theorem Orderly.concat (h : Orderly deeds) (hfirst : deeds = [] → d = .begins)
    (hlast : ∀ d' ∈ deeds.getLast?, Follows d' d) : Orderly (deeds ++ [d]) := by
  refine ⟨fun first hmem => ?_, List.isChain_append.mpr ⟨h.chain, .singleton d, ?_⟩⟩
  · cases deeds with
    | nil =>
      cases hmem
      exact hfirst rfl
    | cons => exact h.head first hmem
  · intro d' hd' x hx
    cases hx
    exact hlast d' hd'

theorem Orderly.begins (h : Orderly deeds) : Orderly (deeds ++ [.begins]) :=
  h.concat (fun _ => rfl) fun d _ => .begins d

theorem Orderly.goes (h : Orderly deeds) (hlast : deeds.getLast? = some d') (hf : Follows d' d) :
    Orderly (deeds ++ [d]) := by
  refine h.concat (fun hnil => ?_) fun d'' hd'' => ?_
  · rw [hnil] at hlast
    cases hlast
  · cases hlast.symm.trans hd''
    exact hf

/-- A worker rests right after it dialed. -/
theorem Orderly.dialed (h : Orderly deeds) {before after : List Deed} {since delay : Duration}
    (heq : deeds = before ++ .rests since delay :: after) :
    ∃ config, before.getLast? = some (.dials config) ∧
      min config.reconnectDelay (.ofSeconds 30) ≤ delay ∧ delay ≤ .ofSeconds 30 := by
  subst heq
  obtain ⟨-, -, hlink⟩ := List.isChain_append.mp h.chain
  cases hlast : before.getLast? with
  | none =>
    rw [List.getLast?_eq_none_iff] at hlast
    subst hlast
    cases h.head _ rfl
  | some d =>
    cases hlink d hlast _ rfl with
    | @rests config _ _ hlower hupper => exact ⟨config, rfl, hlower, hupper⟩

theorem Follows.of_dials {config : TunnelConfig} (h : Follows (.dials config) d) :
    d = .begins ∨ ∃ since delay, d = .rests since delay := by
  cases h with
  | begins => exact .inl rfl
  | rests => exact .inr ⟨_, _, rfl⟩
  | pauses h => obtain h | h := h <;> cases h
  | dials _ h => obtain h | h | ⟨_, h⟩ := h <;> cases h

theorem Follows.of_rests {since delay : Duration} (h : Follows (.rests since delay) d) :
    d = .begins ∨ ∃ now, d = .wakes now ∧ since.add delay ≤ now := by
  cases h with
  | begins => exact .inl rfl
  | wakes hdue => exact .inr ⟨_, rfl, hdue⟩
  | pauses h => obtain h | h := h <;> cases h
  | dials _ h => obtain h | h | ⟨_, h⟩ := h <;> cases h

theorem Follows.of_wakes {now : Duration} (h : Follows (.wakes now) d) :
    d = .begins ∨ ∃ config, d = .dials config := by
  cases h with
  | begins => exact .inl rfl
  | dials config => exact .inr ⟨config, rfl⟩
  | pauses h => obtain h | h := h <;> cases h

/-- **Between two dials** a worker rests once, and no shorter than it is to. -/
theorem Orderly.between (h : Orderly deeds) {before between after : List Deed}
    {config config' : TunnelConfig}
    (heq : deeds = before ++ .dials config :: (between ++ .dials config' :: after))
    (hsame : .begins ∉ between) (hnext : ∀ c, .dials c ∉ between) :
    ∃ since delay now, between = [.rests since delay, .wakes now] ∧ since.add delay ≤ now := by
  subst heq
  obtain ⟨-, hchain, -⟩ := List.isChain_append.mp h.chain
  -- the deeds between the two dials are read off one by one
  cases between with
  | nil =>
    obtain hd | ⟨_, _, hd⟩ := (List.isChain_cons_cons.mp hchain).1.of_dials <;> cases hd
  | cons d between =>
    obtain ⟨hrests, hchain⟩ := List.isChain_cons_cons.mp hchain
    obtain rfl | ⟨since, delay, rfl⟩ := hrests.of_dials
    · simp at hsame
    cases between with
    | nil => obtain hd | ⟨_, hd, _⟩ := (List.isChain_cons_cons.mp hchain).1.of_rests <;> cases hd
    | cons d between =>
      obtain ⟨hwakes, hchain⟩ := List.isChain_cons_cons.mp hchain
      obtain rfl | ⟨now, rfl, hdue⟩ := hwakes.of_rests
      · simp at hsame
      cases between with
      | nil => exact ⟨since, delay, now, rfl, hdue⟩
      | cons d between =>
        obtain rfl | ⟨c, rfl⟩ := (List.isChain_cons_cons.mp hchain).1.of_wakes
        · simp at hsame
        · exact absurd (by simp) (hnext c)

end Deed

/-! ## Where a worker is -/

/-- Where a worker is, by the last deed that was seen. -/
inductive Pace.Place (config : TunnelConfig) (p : Pace) : Option Deed → Prop where
  | ended (last : Option Deed) (hp : p.stage = .finished) : Place config p last
  | begun (hp : p.stage = .starting) : Place config p (some .begins)
  | paused (hp : p.stage = .pausing ∨ p.stage = .starting) : Place config p (some .pauses)
  | dialed (a : Attempt) (hp : p.stage = .trying a)
      (hpolicy : p.backoff.policy = .tunnel a.config.reconnectDelay)
      (hc : p.Going → config.CanDial) : Place config p (some (.dials a.config))
  | rested (since delay : Duration) (hp : p.stage = .resting since delay)
      (hc : p.Going → config.CanDial) : Place config p (some (.rests since delay))
  | woken (now : Duration) (hp : p.stage = .starting) (hc : p.Going → config.CanDial) :
      Place config p (some (.wakes now))

namespace Pace

variable {config : TunnelConfig} {p : Pace} {last : Option Deed}

theorem Place.of_starting (h : p.Place config last) (hp : p.stage = .starting) :
    ∃ d, last = some d ∧ (d = .begins ∨ d = .pauses ∨
      (∃ now, d = .wakes now) ∧ (p.Going → config.CanDial)) := by
  cases h with
  | begun => exact ⟨_, rfl, .inl rfl⟩
  | paused => exact ⟨_, rfl, .inr (.inl rfl)⟩
  | woken now _ hc => exact ⟨_, rfl, .inr (.inr ⟨⟨now, rfl⟩, hc⟩)⟩
  | ended _ h | dialed _ h | rested _ _ h => cases hp.symm.trans h

theorem Place.of_pausing (h : p.Place config last) (hp : p.stage = .pausing) :
    last = some .pauses := by
  cases h with
  | paused => rfl
  | ended _ h | begun h | dialed _ h | rested _ _ h | woken _ h => cases hp.symm.trans h

theorem Place.of_trying (h : p.Place config last) {a : Attempt} (hp : p.stage = .trying a) :
    last = some (.dials a.config) ∧ p.backoff.policy = .tunnel a.config.reconnectDelay ∧
      (p.Going → config.CanDial) := by
  cases h with
  | dialed a' h hpolicy hc =>
    cases hp.symm.trans h
    exact ⟨rfl, hpolicy, hc⟩
  | paused h => obtain h | h := h <;> cases hp.symm.trans h
  | ended _ h | begun h | rested _ _ h | woken _ h => cases hp.symm.trans h

theorem Place.of_resting (h : p.Place config last) {since delay : Duration}
    (hp : p.stage = .resting since delay) :
    last = some (.rests since delay) ∧ (p.Going → config.CanDial) := by
  cases h with
  | rested since' delay' h hc =>
    cases hp.symm.trans h
    exact ⟨rfl, hc⟩
  | paused h => obtain h | h := h <;> cases hp.symm.trans h
  | ended _ h | begun h | dialed _ h | woken _ h => cases hp.symm.trans h

/-- A worker that is left where it is. -/
theorem Place.keep (h : p.Place config last) {config' : TunnelConfig}
    (hconfig : p.Going → config.CanDial → config'.CanDial) : p.Place config' last := by
  cases h with
  | ended last hp => exact .ended last hp
  | begun hp => exact .begun hp
  | paused hp => exact .paused hp
  | dialed a hp hpolicy hc => exact .dialed a hp hpolicy fun hgo => hconfig hgo (hc hgo)
  | rested since delay hp hc => exact .rested since delay hp fun hgo => hconfig hgo (hc hgo)
  | woken now hp hc => exact .woken now hp fun hgo => hconfig hgo (hc hgo)

/-- A worker that is asked to stop. -/
theorem Place.stop (h : p.Place config last) (config' : TunnelConfig) :
    ({ p with stopRequested := true } : Pace).Place config' last := by
  have hstopped : ¬({ p with stopRequested := true } : Pace).Going := fun hgo => by cases hgo.free
  cases h with
  | ended last hp => exact .ended last hp
  | begun hp => exact .begun hp
  | paused hp => exact .paused hp
  | dialed a hp hpolicy => exact .dialed a hp hpolicy fun hgo => absurd hgo hstopped
  | rested since delay hp => exact .rested since delay hp fun hgo => absurd hgo hstopped
  | woken now hp => exact .woken now hp fun hgo => absurd hgo hstopped

end Pace

namespace Backoff

variable {b : Backoff}

/-- A history of the delays of a tunnel. -/
structure OfTunnel (b : Backoff) : Prop where
  within : b.Within
  policy : ∃ base, b.policy = .tunnel base

theorem ofTunnel_new (base : Duration) : (new (.tunnel base)).OfTunnel :=
  ⟨within_new _, base, rfl⟩

theorem OfTunnel.rebased (h : b.OfTunnel) (base : Duration) :
    (b.rebased base).OfTunnel ∧ (b.rebased base).policy = .tunnel base := by
  unfold Backoff.rebased
  split
  case isTrue => exact ⟨ofTunnel_new base, rfl⟩
  case isFalse hsame =>
    obtain ⟨base', hpolicy⟩ := h.policy
    rw [hpolicy, Classical.not_not] at hsame
    subst hsame
    exact ⟨h, hpolicy⟩

theorem OfTunnel.onSessionEnd (h : b.OfTunnel) (held : Duration) :
    (b.onSessionEnd held).2.OfTunnel := by
  obtain ⟨base, hpolicy⟩ := h.policy
  obtain ⟨hwithin, hsame, -⟩ := h.within.onSessionEnd held
  exact ⟨hwithin, base, hsame.trans hpolicy⟩

/-- The wait after a session of a tunnel. -/
theorem OfTunnel.delay (h : b.OfTunnel) {base : Duration} (hpolicy : b.policy = .tunnel base)
    (held : Duration) :
    min base (.ofSeconds 30) ≤
        (b.onSessionEnd held).1.getD (b.onSessionEnd held).2.policy.ceiling ∧
      (b.onSessionEnd held).1.getD (b.onSessionEnd held).2.policy.ceiling ≤ .ofSeconds 30 := by
  obtain ⟨-, hsame, hdelay⟩ := h.within.onSessionEnd held
  rw [hpolicy] at hsame hdelay
  cases hwait : (b.onSessionEnd held).1 with
  | none =>
    rw [Option.getD_none, hsame]
    exact ⟨Policy.floor_le_ceiling (.tunnel base), Nat.le_refl _⟩
  | some delay => exact hdelay delay hwait

end Backoff

namespace Tunnel

variable {t t' : Tunnel} {now : Duration} {deeds : List Deed}

/-- The worker in the slot, by what the workers have done. -/
structure Paced (t : Tunnel) (deeds : List Deed) : Prop where
  orderly : Deed.Orderly deeds
  delays : ∀ p, t.pace = some p → p.backoff.OfTunnel
  place : ∀ p, t.pace = some p → p.Place t.config deeds.getLast?

theorem paced_new (label : String) (options : TunnelOptions) : (new label options).Paced [] :=
  ⟨Deed.orderly_nil, nofun, nofun⟩

/-- A worker after a deed. -/
theorem Paced.of_deed {p : Pace} {d : Deed} (hp : t.pace = some p)
    (horderly : Deed.Orderly (deeds ++ [d])) (hdelays : p.backoff.OfTunnel)
    (hplace : p.Place t.config (some d)) : t.Paced (deeds ++ [d]) := by
  refine ⟨horderly, fun q hq => ?_, fun q hq => ?_⟩
  · cases hp.symm.trans hq
    exact hdelays
  · cases hp.symm.trans hq
    rw [List.getLast?_concat]
    exact hplace

/-- A worker after something that is no deed. -/
theorem Paced.of_same {p : Pace} (hp : t.pace = some p) (horderly : Deed.Orderly deeds)
    (hdelays : p.backoff.OfTunnel) (hplace : p.Place t.config deeds.getLast?) :
    t.Paced (deeds ++ []) := by
  rw [List.append_nil]
  refine ⟨horderly, fun q hq => ?_, fun q hq => ?_⟩
  · cases hp.symm.trans hq
    exact hdelays
  · cases hp.symm.trans hq
    exact hplace

/-- **A step of the worker.** -/
theorem Paced.goes (h : t.Paced deeds) {p p' : Pace} (hp : t.pace = some p)
    (hp' : t'.pace = some p') (hconfig : t'.config = t.config)
    (hgoes : p.Goes t.config now p') : t'.Paced (deeds ++ (t.deed? now t').toList) := by
  have hdelays := h.delays p hp
  have hplace := h.place p hp
  have hdeed : t.deed? now t' = Stage.deed? t.config now (some p.stage) (some p'.stage) := by
    rw [deed?, hp, hp']
    rfl
  -- the deed is read off the two stages, and the place of the worker says which one came before
  cases hgoes with
  | ends =>
    have hnone : t.deed? now t' = none := by
      rw [hdeed]
      cases p.stage <;> rfl
    rw [hnone]
    exact .of_same hp' h.orderly hdelays (.ended _ rfl)
  | pauses hp hfree hc =>
    rw [hdeed, hp]
    obtain ⟨d, hlast, hd⟩ := hplace.of_starting hp
    refine .of_deed hp' (h.orderly.goes hlast (.pauses ?_)) (hdelays.rebased _).1
      (.paused (.inl rfl))
    obtain hd | hd | ⟨-, hcan⟩ := hd
    · exact .inl hd
    · exact .inr hd
    · exact absurd (hcan ⟨by rw [hp]; nofun, hfree⟩) hc
  | dials a hp ha hc =>
    rw [hdeed, hp, ← ha]
    obtain ⟨d, hlast, hd⟩ := hplace.of_starting hp
    obtain ⟨hdelays, hpolicy⟩ := hdelays.rebased a.config.reconnectDelay
    refine .of_deed (ha ▸ hp') (h.orderly.goes hlast (.dials _ ?_)) hdelays
      (.dialed a rfl hpolicy fun _ => hconfig ▸ hc)
    obtain hd | hd | ⟨hd, -⟩ := hd
    · exact .inl hd
    · exact .inr (.inl hd)
    · exact .inr (.inr hd)
  | tries a hp =>
    rw [hdeed, hp]
    exact .of_same hp' h.orderly hdelays (hconfig ▸ hplace)
  | rests a held hp =>
    rw [hdeed, hp]
    obtain ⟨hlast, hpolicy, hc⟩ := hplace.of_trying hp
    obtain ⟨hlower, hupper⟩ := hdelays.delay hpolicy held
    exact .of_deed hp' (h.orderly.goes hlast (.rests hlower hupper)) (hdelays.onSessionEnd held)
      (.rested now _ rfl fun hgo => hconfig ▸ hc ⟨by rw [hp]; nofun, hgo.free⟩)
  | returns hp =>
    rw [hdeed, hp]
    have hlast := hplace.of_pausing hp
    exact .of_same hp' h.orderly hdelays (hlast ▸ .paused (.inr rfl))
  | wakes since delay hp hdue =>
    rw [hdeed, hp]
    obtain ⟨hlast, hc⟩ := hplace.of_resting hp
    exact .of_deed hp' (h.orderly.goes hlast (.wakes hdue)) hdelays
      (.woken now rfl fun hgo => hconfig ▸ hc ⟨by rw [hp]; nofun, hgo.free⟩)

theorem deed?_of_stage (hp : t'.pace.map Pace.stage = t.pace.map Pace.stage) :
    t.deed? now t' = none := by
  rw [deed?, hp]
  cases t.pace.map Pace.stage with
  | none => rfl
  | some s => cases s <;> rfl

/-- **One step** of whatever kind. -/
theorem Paced.drives (h : t.Paced deeds) (hdrives : Drives t now t') :
    t'.Paced (deeds ++ (t.deed? now t').toList) := by
  cases hdrives with
  | goes p p' hp hp' hgoes hconfig => exact h.goes hp hp' hconfig hgoes
  | keeps hp hmild hconfig =>
    rw [deed?_of_stage (by rw [hp]), Option.toList_none, List.append_nil]
    refine ⟨h.orderly, fun p hp' => h.delays p (hp.symm.trans hp'), fun p hp' => ?_⟩
    have hp : t.pace = some p := hp.symm.trans hp'
    exact (h.place p hp).keep (hconfig p hp)
  | stops hp =>
    have hstage : t'.pace.map Pace.stage = t.pace.map Pace.stage := by
      rw [hp, Option.map_map]
      rfl
    rw [deed?_of_stage hstage, Option.toList_none, List.append_nil]
    refine ⟨h.orderly, fun p' hp' => ?_, fun p' hp' => ?_⟩
    · obtain ⟨p, hp, rfl⟩ := Option.map_eq_some_iff.mp (hp.symm.trans hp')
      exact h.delays p hp
    · obtain ⟨p, hp, rfl⟩ := Option.map_eq_some_iff.mp (hp.symm.trans hp')
      exact (h.place p hp).stop t'.config
  | leaves hp =>
    have hnone : t.deed? now t' = none := by
      rw [deed?, hp]
      cases t.pace.map Pace.stage with
      | none => rfl
      | some s => cases s <;> rfl
    rw [hnone, Option.toList_none, List.append_nil]
    exact ⟨h.orderly, fun p hp' => (by cases hp.symm.trans hp'),
      fun p hp' => (by cases hp.symm.trans hp')⟩
  | begins base hold hp' =>
    have hdeed : t.deed? now t' = some .begins := by
      rw [deed?, hp']
      cases hp : t.pace with
      | none => rfl
      | some p =>
        rw [Option.map_some, hold p hp]
        rfl
    rw [hdeed]
    exact .of_deed hp' h.orderly.begins (Backoff.ofTunnel_new base) (.begun rfl)

end Tunnel

namespace Watched

variable {w : Watched}

/-- **A whole run.** -/
theorem Sound.paced_run (h : w.Sound) (hsteady : w.tunnel.Steady) {deeds : List Deed}
    (hpaced : w.tunnel.Paced deeds) (moves : List Move) :
    (w.run moves).tunnel.Paced (deeds ++ w.deeds moves) := by
  induction moves generalizing w deeds with
  | nil =>
    rw [Watched.deeds, List.append_nil]
    exact hpaced
  | cons m moves ih =>
    have hdrives := h.drives hsteady m
    rw [Watched.deeds, ← List.append_assoc]
    exact ih (h.next m) (hsteady.drives hdrives) (hpaced.drives hdrives)

end Watched

/-! ## Delays of documents -/

theorem CloudSettings.millisField?_pos {config : Json} {name : String} {d : Duration}
    (h : millisField? config name = some d) : Duration.zero < d := by
  obtain ⟨n, hn, rfl⟩ := Option.map_eq_some_iff.mp h
  obtain ⟨-, hpos⟩ := Option.filter_eq_some_iff.mp hn
  have hpos : 0 < n := by simpa using hpos
  change 0 < min (n * 1000000) longestNanos
  have hlongest : 0 < longestNanos := by decide
  omega

/-- **No document has a delay of zero.** -/
theorem CloudSettings.reconnectDelay_pos (config : Json) (defaultDeviceId : String) :
    Duration.zero < (ofConfig config defaultDeviceId).reconnectDelay := by
  unfold ofConfig
  dsimp only
  cases h : millisField? config "reconnectDelay" with
  | none =>
    rw [Option.getD_none]
    decide
  | some d => exact millisField?_pos h

namespace Watched

variable {w : Watched}

/-- The timing that moves set is that of documents. -/
def TimedByDocuments (moves : List Move) : Prop :=
  ∀ now autoReconnect reconnectDelay pingInterval,
    Move.event now (.setTiming autoReconnect reconnectDelay pingInterval) ∈ moves →
      ∃ config defaultDeviceId,
        reconnectDelay = (CloudSettings.ofConfig config defaultDeviceId).reconnectDelay

theorem config_of_deed? {t t' : Tunnel} {now : Duration} {config : TunnelConfig}
    (h : t.deed? now t' = some (.dials config)) : config = t.config := by
  unfold Tunnel.deed? Stage.deed? at h
  split at h <;> cases h
  rfl

/-- The configuration is as it was, or as an event of a call says. -/
theorem Sound.config_next (h : w.Sound) (m : Move) :
    (w.next m).tunnel.config = w.tunnel.config ∨
      ∃ now e, m = .event now e ∧ (w.next m).tunnel.config = e.configured w.tunnel.config := by
  have hchanged := h.changed m
  generalize (w.next m).tunnel = t at hchanged ⊢
  cases hchanged with
  | stays | client | hears => exact .inl rfl
  | @steps now e t seen he hstep =>
    exact .inr ⟨now, e, rfl, congrArg TunnelSettings.config (Tunnel.step_cases hstep).settings⟩

/-- The delay of a configuration that documents time is not zero. -/
theorem Sound.delay_pos (h : w.Sound) {m : Move} {moves : List Move}
    (htimed : TimedByDocuments (m :: moves))
    (hpos : Duration.zero < w.tunnel.config.reconnectDelay) :
    Duration.zero < (w.next m).tunnel.config.reconnectDelay := by
  obtain heq | ⟨now, e, rfl, heq⟩ := h.config_next m <;> rw [heq]
  · exact hpos
  · cases e with
    | setTiming autoReconnect reconnectDelay pingInterval =>
      obtain ⟨config, id, hdelay⟩ := htimed now autoReconnect reconnectDelay pingInterval (by simp)
      change Duration.zero < reconnectDelay
      rw [hdelay]
      exact CloudSettings.reconnectDelay_pos config id
    | configure | setEnabled | control | worker | network | send | sending => exact hpos

theorem Sound.dials_pos (h : w.Sound) {moves : List Move} (htimed : TimedByDocuments moves)
    (hpos : Duration.zero < w.tunnel.config.reconnectDelay) {config : TunnelConfig}
    (hmem : .dials config ∈ w.deeds moves) : Duration.zero < config.reconnectDelay := by
  induction moves generalizing w with
  | nil => cases hmem
  | cons m moves ih =>
    rw [Watched.deeds, List.mem_append, Option.mem_toList] at hmem
    obtain hdeed | hmem := hmem
    · rw [config_of_deed? hdeed]
      exact hpos
    · refine ih (h.next m) (fun now a r p hm => htimed now a r p (.tail _ hm)) ?_ hmem
      exact h.delay_pos htimed hpos

/-- **No configuration makes a tunnel spin.** Whatever is set and however long sessions last, a
worker rests right after it dialed, for the delay of the snapshot that it dialed with or 30 seconds
at least, and for 30 seconds at most; it does not wake earlier, nothing keeps it from waking then,
and between two dials it does nothing else. Documents have no delay of zero, so with their timing
no wait is zero. -/
theorem never_spins (label : String) (options : TunnelOptions) (moves : List Move) :
    let w := Watched.new label options
    let t := (w.run moves).tunnel
    (∀ before after since delay, w.deeds moves = before ++ .rests since delay :: after →
      ∃ config, before.getLast? = some (.dials config) ∧
        min config.reconnectDelay (.ofSeconds 30) ≤ delay ∧ delay ≤ .ofSeconds 30) ∧
    (∀ before between after config config',
      w.deeds moves = before ++ .dials config :: (between ++ .dials config' :: after) →
      .begins ∉ between → (∀ c, .dials c ∉ between) →
      ∃ since delay now, between = [.rests since delay, .wakes now] ∧ since.add delay ≤ now) ∧
    (∀ worker a since delay, t.worker = some worker → worker.phase = .resting a since delay →
      (w.deeds moves).getLast? = some (.rests since delay) ∧
        ∀ now, (t.workerStep now .woken).isSome = true ↔ since.add delay ≤ now) ∧
    (∀ config defaultDeviceId,
      Duration.zero < (CloudSettings.ofConfig config defaultDeviceId).reconnectDelay) ∧
    (TimedByDocuments moves → ∀ since delay, .rests since delay ∈ w.deeds moves →
      Duration.zero < delay) := by
  dsimp only
  have hsound := sound_new label options
  have hpaced := hsound.paced_run (Tunnel.steady_new label options)
    (Tunnel.paced_new label options) moves
  rw [List.nil_append] at hpaced
  have horderly := hpaced.orderly
  refine ⟨fun before after since delay heq => horderly.dialed heq,
    fun before between after config config' heq => horderly.between heq,
    fun worker a since delay hw hp => ?_, CloudSettings.reconnectDelay_pos,
    fun htimed since delay hmem => ?_⟩
  · have hpace : ((new label options).run moves).tunnel.pace = some worker.pace := by
      rw [Tunnel.pace, hw]
      rfl
    have hstage : worker.pace.stage = .resting since delay := by rw [Worker.pace, hp]; rfl
    refine ⟨((hpaced.place _ hpace).of_resting hstage).1, fun now => ?_⟩
    simp [Tunnel.workerStep, Tunnel.wake, hw, hp]
  · have hblank : Duration.zero < TunnelConfig.blank.reconnectDelay := by decide
    obtain ⟨before, after, heq⟩ := List.append_of_mem hmem
    obtain ⟨config, hlast, hlower, -⟩ := horderly.dialed heq
    have hdials : .dials config ∈ (new label options).deeds moves := by
      rw [heq]
      exact List.mem_append_left _ (List.mem_of_getLast? hlast)
    have hpos := hsound.dials_pos htimed hblank hdials
    have hfloor : Duration.zero.nanos < min config.reconnectDelay.nanos
        (Duration.ofSeconds 30).nanos := lt_min hpos (by decide)
    rw [Duration.le_def, Duration.nanos_min] at hlower
    exact Nat.lt_of_lt_of_le hfloor hlower

/-- A document asks for a wait of twenty seconds; the broker never answers, and the second dial
comes after thirty. -/
theorem never_spins_unanswered :
    let document := Json.ofMembers
      [("cloudTunnel", .ofMembers [("reconnectDelay", .ofNat 20000)])]
    let delay := (CloudSettings.ofConfig document "pier-1").reconnectDelay
    let c : TunnelConfig :=
      ⟨"wss://broker.example", "pier-1", "", "ws_control", true, delay, .ofSeconds 10⟩
    let rest : List Move :=
      [.event .zero (.setTiming true delay (.ofSeconds 10)),
       .event .zero (.configure "wss://broker.example" "pier-1" "" "ws_control"),
       .event .zero (.setEnabled true), .event .zero (.worker .look),
       .event .zero (.worker (.passed true)), .event .zero (.worker .locked),
       .event (.ofSeconds 15) (.worker .woken), .event (.ofSeconds 15) (.worker .locked),
       .event (.ofSeconds 20) (.worker .gaveUp)]
    let moves := rest ++
      [.event (.ofSeconds 50) (.worker .woken), .event (.ofSeconds 50) (.worker .look)]
    let wait : Deed := .rests (.ofSeconds 20) (.ofSeconds 30)
    TimedByDocuments moves ∧
      (new "/ws/control" .usual).deeds rest = [.begins, .dials c] ++ wait :: [] ∧
      (new "/ws/control" .usual).deeds moves =
        [.begins] ++ .dials c :: ([wait, .wakes (.ofSeconds 50)] ++ [.dials c]) ∧
      (∃ config, [Deed.begins, .dials c].getLast? = some (.dials config) ∧
        min config.reconnectDelay (.ofSeconds 30) ≤ .ofSeconds 30 ∧
          Duration.ofSeconds 30 ≤ .ofSeconds 30) ∧
      (∃ since delay now, [wait, .wakes (.ofSeconds 50)] = [.rests since delay, .wakes now] ∧
        since.add delay ≤ now) ∧
      (((new "/ws/control" .usual).deeds rest).getLast? = some wait ∧ ∀ now,
        (((new "/ws/control" .usual).run rest).tunnel.workerStep now .woken).isSome = true ↔
          (Duration.ofSeconds 20).add (.ofSeconds 30) ≤ now) ∧
      Duration.zero < .ofSeconds 30 := by
  intro document delay c rest moves wait
  have htimed : TimedByDocuments moves := by
    intro now autoReconnect reconnectDelay pingInterval hmem
    refine ⟨document, "pier-1", ?_⟩
    simp only [moves, rest, List.cons_append, List.nil_append, List.mem_cons, Move.event.injEq,
      TunnelEvent.setTiming.injEq, reduceCtorEq, and_false, List.not_mem_nil, or_false] at hmem
    exact hmem.2.2.1
  have hrest : (new "/ws/control" .usual).deeds rest = [.begins, .dials c] ++ wait :: [] := by
    decide +kernel
  have hmoves : (new "/ws/control" .usual).deeds moves =
      [.begins] ++ .dials c :: ([wait, .wakes (.ofSeconds 50)] ++ [.dials c]) := by
    decide +kernel
  obtain ⟨hrests, -, hresting, -, -⟩ := never_spins "/ws/control" .usual rest
  obtain ⟨-, hbetween, -, -, hpos⟩ := never_spins "/ws/control" .usual moves
  refine ⟨htimed, hrest, hmoves, hrests _ _ _ _ hrest, ?_, ?_, ?_⟩
  · exact hbetween _ _ _ _ _ hmoves (by simp [wait]) (by simp [wait])
  · have hworker : ((new "/ws/control" .usual).run rest).tunnel.worker.map Worker.phase =
        some (.resting ⟨c, "wss://broker.example/ws/device/pier-1?announce=1&tunnel=ws_control"⟩
          (.ofSeconds 20) (.ofSeconds 30)) := by
      decide +kernel
    obtain ⟨worker, hw, hp⟩ := Option.map_eq_some_iff.mp hworker
    exact hresting worker _ (.ofSeconds 20) (.ofSeconds 30) hw hp
  · have hmem : wait ∈ (new "/ws/control" .usual).deeds moves := by
      rw [hmoves]
      exact .tail _ (.tail _ (.head _))
    exact hpos htimed (.ofSeconds 20) (.ofSeconds 30) hmem

end Watched

end DeviceRelay
