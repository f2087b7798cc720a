import DeviceRelay.Proofs.Backoff
import DeviceRelay.Proofs.Outbound.Script

/-!
# What a client tells while it reconnects

A client that reconnects dials until its redials are spent. A session that was stable renews them;
the last of as many short redials in a row as the configuration allows is the last of all. Then the
client tells so once, and does nothing more.

* `Supervision`: a client with one task, what its dials came to, and all that was told.
* `Supervised`, `Supervised.next`: where the client is, by what its dials came to.
* `Supervision.exists_script`: whatever the dials are to come to, there are steps in which they do.
* `OutboundClient.gives_up_after_redials`: the theorem on the whole course.
-/

namespace DeviceRelay

/-! ## A client at work -/

/-- A client with a task at work, what its dials came to, and what it told. -/
structure Supervision where
  client : OutboundClient
  script : Script
  events : List ClientEvent

namespace Supervision

/-- One step of the task; what cannot happen changes nothing. -/
def next (number : Nat) (r : Supervision) (step : Duration × OutboundClient.NetworkStep) :
    Supervision :=
  match r.client.taskStep number step.1 step.2 with
  | none => r
  | some (client, events) => ⟨client, r.script.after step.1 step.2, r.events ++ events⟩

def run (number : Nat) (r : Supervision) (steps : List (Duration × OutboundClient.NetworkStep)) :
    Supervision :=
  steps.foldl (next number) r

end Supervision

/-- A history of delays by what dials came to: the attempts that were counted. -/
structure Backoff.Counts (b : Backoff) (config : ClientConfig) (outcomes : List DialOutcome) :
    Prop where
  policy : b.policy = OutboundClient.policyOf config
  failures : b.failures.toNat = if outcomes = [] then 0 else redials outcomes + 1

/-- Where a task is, by the script. -/
inductive NetworkTask.Follows (task : NetworkTask) (config : ClientConfig) (s : Script) : Prop where
  | starts (hp : task.phase = .starting) (hs : s = .blank) : Follows task config s
  | dials (hp : task.phase = .dialing) (hs : s.underway = none)
      (hb : task.backoff.Counts config s.outcomes) : Follows task config s
  | serves (since : Duration) (messages : List (List UInt8 × Bool))
      (hp : task.phase = .inSession since) (hs : s.underway = some (since, messages))
      (hb : task.backoff.Counts config s.outcomes) : Follows task config s
  | waits (wakeAt : Duration) (hp : task.phase = .waiting wakeAt) (hs : s.underway = none)
      (hb : task.backoff.Counts config s.outcomes) : Follows task config s

/-- A client that reconnects and was not asked to stop, with its only task. -/
structure OutboundClient.Employs (c : OutboundClient) (config : ClientConfig) (task : NetworkTask) :
    Prop where
  tasks : c.tasks = [task]
  wanted : c.stopRequested = false
  auto : c.autoReconnect = true
  config : c.config = some config

/-- A client with one task, by what its dials came to. -/
inductive Supervised (config : ClientConfig) (m number : Nat) (r : Supervision) : Prop where
  /-- The task is at work. -/
  | works (task : NetworkTask) (hemploys : r.client.Employs config task)
      (hnumber : task.number = number) (hfollows : task.Follows config r.script)
      (hleft : redials r.script.outcomes < m) (htold : r.events = r.script.told) :
      Supervised config m number r
  /-- It has given up. -/
  | spent (htasks : r.client.tasks = []) (hauto : r.client.autoReconnect = false)
      (hs : r.script.underway = none) (hspent : redials r.script.outcomes = m)
      (htold : r.events = r.script.told ++ [.failed (.exhausted m)]) :
      Supervised config m number r

/-- The attempts that a configuration allows. -/
structure ClientConfig.Allows (config : ClientConfig) (m : UInt32) : Prop where
  bound : config.maxAttempts = some m
  pos : 0 < m

namespace OutboundClient

variable {config : ClientConfig} {m : UInt32}

theorem policyOf_of_allows (h : config.Allows m) :
    (policyOf config).maxAttempts = some m ∧ (policyOf config).escalateFirst = false ∧
      (policyOf config).stableAfter = .ofSeconds 30 ∧ 0 < m.toNat := by
  refine ⟨?_, rfl, rfl, UInt32.lt_iff_toNat_lt.mp h.pos⟩
  simp [policyOf, Backoff.Policy.outbound, h.bound, h.pos]

end OutboundClient

/-! ## The end of an attempt -/

/-- **One more outcome.** There is a wait after it while redials are left, and none once as many as
are allowed came to no stable session. -/
theorem Backoff.Counts.onSessionEnd {b : Backoff} {config : ClientConfig} {m : UInt32}
    {outcomes : List DialOutcome} (h : b.Counts config outcomes) (hallows : config.Allows m)
    (hleft : redials outcomes < m.toNat) (o : DialOutcome) :
    (∃ delay b', b.onSessionEnd o.held = (some delay, b') ∧ b'.Counts config (outcomes ++ [o]) ∧
        redials (outcomes ++ [o]) < m.toNat) ∨
      b.onSessionEnd o.held = (none, b) ∧ b.failures.toNat = m.toNat ∧
        redials (outcomes ++ [o]) = m.toNat := by
  obtain ⟨hmax, hlast, hstable, hm⟩ := OutboundClient.policyOf_of_allows hallows
  rw [← h.policy] at hmax hlast hstable
  have hcount := h.failures
  cases ho : o.isStable with
  | true =>
    have hheld : b.policy.stableAfter ≤ o.held := hstable ▸ of_decide_eq_true ho
    have hnone := redials_concat_stable ho outcomes
    obtain ⟨delay, next, heq⟩ := Backoff.onSessionEnd_stable hmax hlast hm hheld
    exact .inl ⟨delay, _, heq, ⟨h.policy, by simp [hnone]⟩, by omega⟩
  | false =>
    have hheld : ¬b.policy.stableAfter ≤ o.held := hstable ▸ of_decide_eq_false ho
    by_cases hnil : outcomes = []
    · subst hnil
      rw [if_pos rfl] at hcount
      obtain ⟨delay, next, failures, heq, hfailures⟩ :=
        Backoff.onSessionEnd_short hmax hlast hheld (by omega)
      refine .inl ⟨delay, _, heq, ⟨h.policy, ?_⟩, hm⟩
      rw [hfailures, hcount]
      rfl
    · rw [if_neg hnil] at hcount
      have hmore := redials_concat_short ho hnil
      by_cases hspent : m.toNat ≤ b.failures.toNat
      · exact .inr ⟨Backoff.onSessionEnd_spent hmax hheld hspent, by omega, by omega⟩
      · obtain ⟨delay, next, failures, heq, hfailures⟩ :=
          Backoff.onSessionEnd_short hmax hlast hheld (by omega)
        refine .inl ⟨delay, _, heq, ⟨h.policy, ?_⟩, by omega⟩
        rw [if_neg (by simp)]
        dsimp only
        omega

section Attempt

variable {config : ClientConfig} {m : UInt32} {c c' : OutboundClient} {task : NetworkTask}

/-- **A dial has come to something.** The client waits for the next one, or gives up. -/
theorem OutboundClient.Employs.afterSession (h : c.Employs config task) (hallows : config.Allows m)
    {outcomes : List DialOutcome} (hb : task.backoff.Counts config outcomes)
    (hleft : redials outcomes < m.toNat) (o : DialOutcome) (now : Duration) :
    Supervised config m.toNat task.number
      ⟨(c.afterSession task now o.held).1, ⟨outcomes ++ [o], none⟩,
        (Script.mk (outcomes ++ [o]) none).told ++ (c.afterSession task now o.held).2⟩ := by
  unfold OutboundClient.afterSession
  rw [if_neg (by simp [h.wanted, h.auto])]
  obtain ⟨delay, b, heq, hb', hleft'⟩ | ⟨heq, hfailures, hspent⟩ :=
    hb.onSessionEnd hallows hleft o
  · rw [heq]
    refine .works { task with backoff := b, phase := .waiting (now.add delay) }
      ⟨?_, h.wanted, h.auto, h.config⟩ rfl (.waits (now.add delay) rfl rfl hb') hleft'
      (List.append_nil _)
    simp [h.tasks]
  · rw [heq]
    dsimp only
    rw [hfailures]
    refine .spent ?_ rfl rfl hspent rfl
    simp [OutboundClient.abort, h.tasks]

/-- A session has ended. -/
theorem OutboundClient.Employs.endSession (h : c.Employs config task) (hallows : config.Allows m)
    {outcomes : List DialOutcome} (hb : task.backoff.Counts config outcomes)
    (hleft : redials outcomes < m.toNat) (now since : Duration)
    (messages : List (List UInt8 × Bool)) (error : Option ClientError) :
    Supervised config m.toNat task.number
      ⟨(c.endSession task now since).1,
        (Script.mk outcomes (some (since, messages))).close now error,
        (Script.mk outcomes (some (since, messages))).told ++
          ((error.map ClientEvent.failed).toList ++ (c.endSession task now since).2)⟩ := by
  have hdown : ({ c with outbox := none, isConnected := false } : OutboundClient).Employs config
      task := ⟨h.tasks, h.wanted, h.auto, h.config⟩
  have hafter := hdown.afterSession hallows hb hleft (.session messages error (now.sub since)) now
  have htold : ∀ more, (Script.mk outcomes (some (since, messages))).told ++
      ((error.map ClientEvent.failed).toList ++ .disconnected :: more) =
      (Script.mk (outcomes ++ [.session messages error (now.sub since)]) none).told ++ more := by
    intro more
    simp [Script.told, DialOutcome.told]
  rw [OutboundClient.endSession]
  dsimp only [Script.close]
  rw [htold]
  exact hafter

end Attempt

/-! ## Steps of the task -/

section Step

open OutboundClient

variable {config : ClientConfig} {m : UInt32} {c c' : OutboundClient} {task : NetworkTask}
  {now : Duration} {step : NetworkStep} {events : List ClientEvent}

/-- The task goes on to another phase. -/
theorem OutboundClient.Employs.setPhase (h : c.Employs config task) (phase : TaskPhase) :
    (c.setPhase task.number phase).Employs config { task with phase := phase } :=
  ⟨by simp [OutboundClient.setPhase, h.tasks], h.wanted, h.auto, h.config⟩

/-- A task that starts finds the configuration. -/
theorem OutboundClient.Employs.starts (h : c.Employs config task) (hp : task.phase = .starting)
    (hm : 0 < m.toNat) (hstep : c.stepOf task now step = some (c', events)) :
    Supervised config m.toNat task.number
      ⟨c', Script.blank.after now step, Script.blank.told ++ events⟩ := by
  cases step with
  | start =>
    simp only [stepOf, hp, h.config, Option.some.injEq, Prod.mk.injEq] at hstep
    obtain ⟨rfl, rfl⟩ := hstep
    refine .works { task with
      config := config, backoff := .new (policyOf config), phase := .dialing }
      ⟨?_, h.wanted, h.auto, rfl⟩ rfl (.dials rfl rfl ⟨rfl, rfl⟩) hm rfl
    simp [h.tasks]
  | stopped => simp [stepOf, h.wanted] at hstep
  | dialed | dialFailed | received | transmitted | peerClosed | broken | saidGoodbye | woken =>
    simp [stepOf, hp] at hstep

theorem OutboundClient.Employs.dials (h : c.Employs config task) (hallows : config.Allows m)
    (hp : task.phase = .dialing) {outcomes : List DialOutcome}
    (hb : task.backoff.Counts config outcomes) (hleft : redials outcomes < m.toNat)
    (hstep : c.stepOf task now step = some (c', events)) :
    Supervised config m.toNat task.number
      ⟨c', (Script.mk outcomes none).after now step, (Script.mk outcomes none).told ++ events⟩ := by
  cases step with
  | dialed =>
    simp only [stepOf, hp, Option.some.injEq, Prod.mk.injEq] at hstep
    obtain ⟨rfl, rfl⟩ := hstep
    obtain ⟨htasks, hwanted, hauto, hconfig⟩ := h.setPhase (.inSession now)
    refine .works _ ⟨htasks, hwanted, hauto, hconfig⟩ rfl (.serves now [] rfl rfl hb) hleft ?_
    simp [Script.told, Script.after, toldOfSession]
  | dialFailed e =>
    simp only [stepOf, hp, Option.some.injEq, Prod.mk.injEq] at hstep
    obtain ⟨rfl, rfl⟩ := hstep
    have hafter := h.afterSession hallows hb hleft (.failed e) now
    have htold : ∀ more, (Script.mk outcomes none).told ++ .failed e :: more =
        (Script.mk (outcomes ++ [.failed e]) none).told ++ more := by
      intro more
      simp [Script.told, DialOutcome.told]
    rw [htold]
    exact hafter
  | stopped => simp [stepOf, h.wanted] at hstep
  | start | received | transmitted | peerClosed | broken | saidGoodbye | woken =>
    simp [stepOf, hp] at hstep

theorem OutboundClient.Employs.serves (h : c.Employs config task) (hallows : config.Allows m)
    {since : Duration} (hp : task.phase = .inSession since) {outcomes : List DialOutcome}
    {messages : List (List UInt8 × Bool)}
    (hb : task.backoff.Counts config outcomes) (hleft : redials outcomes < m.toNat)
    (hstep : c.stepOf task now step = some (c', events)) :
    Supervised config m.toNat task.number
      ⟨c', (Script.mk outcomes (some (since, messages))).after now step,
        (Script.mk outcomes (some (since, messages))).told ++ events⟩ := by
  cases step with
  | received payload isBinary =>
    simp only [stepOf, hp, Option.some.injEq, Prod.mk.injEq] at hstep
    obtain ⟨rfl, rfl⟩ := hstep
    refine .works task h rfl (.serves since _ hp rfl hb) hleft ?_
    simp [Script.told, Script.after, toldOfSession]
  | transmitted =>
    simp only [stepOf, hp, Option.some.injEq, Prod.mk.injEq] at hstep
    obtain ⟨rfl, rfl⟩ := hstep
    exact .works task ⟨h.tasks, h.wanted, h.auto, h.config⟩ rfl (.serves since messages hp rfl hb)
      hleft (List.append_nil _)
  | peerClosed =>
    simp only [stepOf, hp, Option.some.injEq] at hstep
    have hended := h.endSession hallows hb hleft now since messages none
    rw [hstep] at hended
    exact hended
  | broken e =>
    simp only [stepOf, hp, Option.some.injEq, Prod.mk.injEq] at hstep
    obtain ⟨rfl, rfl⟩ := hstep
    exact h.endSession hallows hb hleft now since messages (some e)
  | stopped => simp [stepOf, h.wanted] at hstep
  | start | dialed | dialFailed | saidGoodbye | woken => simp [stepOf, hp] at hstep

theorem OutboundClient.Employs.waits (h : c.Employs config task)
    {wakeAt : Duration} (hp : task.phase = .waiting wakeAt) {outcomes : List DialOutcome}
    (hb : task.backoff.Counts config outcomes) (hleft : redials outcomes < m.toNat)
    (hstep : c.stepOf task now step = some (c', events)) :
    Supervised config m.toNat task.number
      ⟨c', (Script.mk outcomes none).after now step, (Script.mk outcomes none).told ++ events⟩ := by
  cases step with
  | woken =>
    simp only [stepOf, hp, Option.ite_none_right_eq_some, Option.some.injEq, Prod.mk.injEq]
      at hstep
    obtain ⟨-, rfl, rfl⟩ := hstep
    exact .works _ (h.setPhase .dialing) rfl (.dials rfl rfl hb) hleft (List.append_nil _)
  | stopped => simp [stepOf, h.wanted] at hstep
  | start | dialed | dialFailed | received | transmitted | peerClosed | broken | saidGoodbye =>
    simp [stepOf, hp] at hstep

end Step

namespace Supervised

open OutboundClient

variable {config : ClientConfig} {m : UInt32} {number : Nat} {r : Supervision}

theorem taskStep_of_employs {c : OutboundClient} {task : NetworkTask} (h : c.Employs config task)
    (now : Duration) (step : NetworkStep) :
    c.taskStep task.number now step = c.stepOf task now step := by
  simp [OutboundClient.taskStep, h.tasks]

/-- **One step** of the task. -/
theorem next (h : Supervised config m.toNat number r) (hallows : config.Allows m)
    (step : Duration × NetworkStep) : Supervised config m.toNat number (r.next number step) := by
  obtain ⟨now, step⟩ := step
  unfold Supervision.next
  split
  case h_1 => exact h
  case h_2 c' events hstep =>
    obtain ⟨client, ⟨outcomes, underway⟩, told⟩ := r
    cases h with
    | works task hemploys hnumber hfollows hleft htold =>
      subst hnumber
      dsimp only at *
      rw [taskStep_of_employs hemploys] at hstep
      rw [htold]
      cases hfollows with
      | starts hp hs =>
        obtain ⟨rfl, rfl⟩ := Script.mk.inj hs
        exact hemploys.starts hp (policyOf_of_allows hallows).2.2.2 hstep
      | dials hp hs hb =>
        obtain rfl : underway = none := hs
        exact hemploys.dials hallows hp hb hleft hstep
      | serves since messages hp hs hb =>
        obtain rfl : underway = some (since, messages) := hs
        exact hemploys.serves hallows hp hb hleft hstep
      | waits wakeAt hp hs hb =>
        obtain rfl : underway = none := hs
        exact hemploys.waits hp hb hleft hstep
    | spent htasks =>
      dsimp only at *
      simp [OutboundClient.taskStep, htasks] at hstep

theorem run (h : Supervised config m.toNat number r) (hallows : config.Allows m)
    (steps : List (Duration × NetworkStep)) :
    Supervised config m.toNat number (r.run number steps) := by
  unfold Supervision.run
  induction steps generalizing r with
  | nil => exact h
  | cons step steps ih => exact ih (h.next hallows step)

end Supervised

/-! ## Every dial is one that is allowed -/

namespace Supervised

variable {config : ClientConfig} {m : UInt32} {number : Nat} {r : Supervision}

/-- A client that has given up takes no step. -/
theorem affordable_next (h : Supervised config m.toNat number r)
    (haffordable : Affordable m.toNat r.script.outcomes)
    (step : Duration × OutboundClient.NetworkStep) :
    Affordable m.toNat (r.next number step).script.outcomes := by
  unfold Supervision.next
  split
  case h_1 => exact haffordable
  case h_2 c' events hstep =>
    cases h with
    | works task hemploys hnumber hfollows hleft htold =>
      obtain heq | ⟨o, heq⟩ := r.script.outcomes_after step.1 step.2
      · exact heq ▸ haffordable
      · exact heq ▸ affordable_concat_iff.mpr ⟨haffordable, hleft⟩
    | spent htasks => simp [OutboundClient.taskStep, htasks] at hstep

theorem affordable_run (h : Supervised config m.toNat number r) (hallows : config.Allows m)
    (haffordable : Affordable m.toNat r.script.outcomes)
    (steps : List (Duration × OutboundClient.NetworkStep)) :
    Affordable m.toNat (r.run number steps).script.outcomes := by
  unfold Supervision.run
  induction steps generalizing r with
  | nil => exact haffordable
  | cons step steps ih => exact ih (h.next hallows step) (h.affordable_next haffordable step)

end Supervised

/-! ## Every script can be met -/

namespace Supervision

open OutboundClient

variable {config : ClientConfig} {m : UInt32} {number : Nat} {r : Supervision}
  {task : NetworkTask} {now : Duration} {step : NetworkStep} {c' : OutboundClient}
  {events : List ClientEvent}

theorem run_append (number : Nat) (r : Supervision) (steps more : List (Duration × NetworkStep)) :
    r.run number (steps ++ more) = (r.run number steps).run number more :=
  List.foldl_append

/-- A step of the only task. -/
theorem next_of_stepOf (h : r.client.Employs config task)
    (hstep : r.client.stepOf task now step = some (c', events)) :
    r.next task.number (now, step) = ⟨c', r.script.after now step, r.events ++ events⟩ := by
  have hstep := (Supervised.taskStep_of_employs h now step).trans hstep
  simp only [next, hstep]

/-- A task that has no session comes to its next dial. -/
theorem exists_dialing (h : Supervised config m.toNat number r) (hs : r.script.underway = none)
    (hleft : redials r.script.outcomes < m.toNat) :
    ∃ steps task, (r.run number steps).client.Employs config task ∧ task.number = number ∧
      task.phase = .dialing ∧ (r.run number steps).script = r.script := by
  cases h with
  | spent _ _ _ hspent => omega
  | works task hemploys hnumber hfollows _ _ =>
    subst hnumber
    cases hfollows with
    | starts hp hblank =>
      let task' : NetworkTask := { task with
        config := config, backoff := .new (policyOf config), phase := .dialing }
      have hstep : r.client.stepOf task .zero .start = some ({ r.client with
          tasks := r.client.tasks.map fun u =>
            if u.number = task.number then task' else u }, []) := by
        simp only [stepOf, hp, hemploys.config, task']
      refine ⟨[(.zero, .start)], task', ?_⟩
      rw [run, List.foldl_cons, List.foldl_nil, next_of_stepOf hemploys hstep]
      refine ⟨⟨?_, hemploys.wanted, hemploys.auto, hemploys.config⟩, rfl, rfl, rfl⟩
      simp [hemploys.tasks]
    | dials hp => exact ⟨[], task, hemploys, rfl, hp, rfl⟩
    | serves since messages hp hother =>
      rw [hs] at hother
      cases hother
    | waits wakeAt hp =>
      have hstep : r.client.stepOf task wakeAt .woken =
          some (r.client.setPhase task.number .dialing, []) := by
        simp only [stepOf, hp]
        exact if_pos (Nat.le_refl _)
      refine ⟨[(wakeAt, .woken)], { task with phase := .dialing }, ?_⟩
      rw [run, List.foldl_cons, List.foldl_nil, next_of_stepOf hemploys hstep]
      exact ⟨hemploys.setPhase .dialing, rfl, rfl, rfl⟩

/-- Messages come in, one by one. -/
theorem run_received (h : r.client.Employs config task) {since : Duration}
    (hp : task.phase = .inSession since) (messages : List (List UInt8 × Bool))
    {before : List (List UInt8 × Bool)} (hs : r.script.underway = some (since, before)) :
    (r.run task.number (messages.map fun m => (.zero, .received m.1 m.2))).client = r.client ∧
      (r.run task.number (messages.map fun m => (.zero, .received m.1 m.2))).script =
        { r.script with underway := some (since, before ++ messages) } := by
  induction messages generalizing r before with
  | nil =>
    refine ⟨rfl, ?_⟩
    rw [List.append_nil, ← hs]
    rfl
  | cons m messages ih =>
    have hstep : r.client.stepOf task .zero (.received m.1 m.2) =
        some (r.client, [.message m.1 m.2]) := by
      simp only [stepOf, hp]
    have hnext := next_of_stepOf h hstep
    have hs' : (r.script.after .zero (.received m.1 m.2)).underway =
        some (since, before ++ [m]) := by
      rw [Script.after, hs]
      rfl
    obtain ⟨hclient, hscript⟩ := ih (r := r.next task.number (.zero, .received m.1 m.2))
      (by rw [hnext]; exact h) (by rw [hnext]; exact hs')
    rw [hnext] at hclient hscript
    rw [List.map_cons, run, List.foldl_cons, hnext]
    refine ⟨hclient, hscript.trans ?_⟩
    rw [List.append_assoc]
    rfl

/-- A session ends the way it is to. -/
theorem exists_closed (h : r.client.Employs config task) (hp : task.phase = .inSession .zero)
    {messages : List (List UInt8 × Bool)} (hs : r.script.underway = some (.zero, messages))
    (error : Option ClientError) (held : Duration) :
    ∃ step, (r.next task.number (held, step)).script =
      ⟨r.script.outcomes ++ [.session messages error held], none⟩ := by
  have hclose : ∀ error, r.script.close held error =
      ⟨r.script.outcomes ++ [.session messages error held], none⟩ := by
    intro error
    rw [Script.close, hs]
    rfl
  cases error with
  | none =>
    have hstep : r.client.stepOf task held .peerClosed =
        some (r.client.endSession task held .zero) := by
      simp only [stepOf, hp]
    exact ⟨.peerClosed, by rw [next_of_stepOf h hstep]; exact hclose none⟩
  | some e =>
    have hstep : r.client.stepOf task held (.broken e) =
        some ((r.client.endSession task held .zero).1,
          .failed e :: (r.client.endSession task held .zero).2) := by
      simp only [stepOf, hp]
    exact ⟨.broken e, by rw [next_of_stepOf h hstep]; exact hclose (some e)⟩

theorem exists_outcome_of_dialing (h : r.client.Employs config task) (hp : task.phase = .dialing)
    (hs : r.script.underway = none) (o : DialOutcome) :
    ∃ steps, (r.run task.number steps).script = ⟨r.script.outcomes ++ [o], none⟩ := by
  cases o with
  | failed e =>
    have hstep : r.client.stepOf task .zero (.dialFailed e) =
        some ((r.client.afterSession task .zero .zero).1,
          .failed e :: (r.client.afterSession task .zero .zero).2) := by
      simp only [stepOf, hp]
    refine ⟨[(.zero, .dialFailed e)], ?_⟩
    rw [run, List.foldl_cons, List.foldl_nil, next_of_stepOf h hstep]
    dsimp only [Script.after]
    rw [hs]
  | session messages error held =>
    have hstep : r.client.stepOf task .zero .dialed =
        some ({ r.client.setPhase task.number (.inSession .zero) with
          isConnected := true, outbox := some (.new outboxDepth) }, [.connected]) := by
      simp only [stepOf, hp]
    have hnext := next_of_stepOf h hstep
    -- the session begins at zero, so that it ends when it was held for as long as it is to be
    have hserves : (r.next task.number (.zero, .dialed)).client.Employs config
        { task with phase := .inSession .zero } := by
      obtain ⟨htasks, hwanted, hauto, hconfig⟩ := h.setPhase (.inSession .zero)
      rw [hnext]
      exact ⟨htasks, hwanted, hauto, hconfig⟩
    have hbegun : (r.next task.number (.zero, .dialed)).script =
        ⟨r.script.outcomes, some (.zero, [])⟩ := by
      rw [hnext]
      rfl
    obtain ⟨hclient, hscript⟩ := run_received hserves rfl messages (by rw [hbegun])
    rw [hbegun] at hscript
    obtain ⟨step, hclosed⟩ := exists_closed (hclient ▸ hserves) rfl (by rw [hscript]) error held
    rw [hscript] at hclosed
    exact ⟨(.zero, .dialed) :: (messages.map (fun m => (.zero, .received m.1 m.2)) ++
      [(held, step)]), by rw [run, List.foldl_cons, List.foldl_append]; exact hclosed⟩

/-- **Every outcome** can be met while redials are left. -/
theorem exists_outcome (h : Supervised config m.toNat number r) (hs : r.script.underway = none)
    (hleft : redials r.script.outcomes < m.toNat) (o : DialOutcome) :
    ∃ steps, (r.run number steps).script = ⟨r.script.outcomes ++ [o], none⟩ := by
  obtain ⟨steps, task, hemploys, rfl, hp, hscript⟩ := exists_dialing h hs hleft
  obtain ⟨more, hmore⟩ := exists_outcome_of_dialing hemploys hp (hscript ▸ hs) o
  exact ⟨steps ++ more, by rw [run_append, hmore, hscript]⟩

/-- **Every script** that the redials suffice for can be met. -/
theorem exists_script (h : Supervised config m.toNat number r) (hallows : config.Allows m)
    (hblank : r.script = .blank) (outcomes : List DialOutcome)
    (haffordable : Affordable m.toNat outcomes) :
    ∃ steps, (r.run number steps).script = ⟨outcomes, none⟩ := by
  induction outcomes using List.reverseRecOn with
  | nil => exact ⟨[], hblank⟩
  | append_singleton outcomes o ih =>
    obtain ⟨hbefore, hleft⟩ := affordable_concat_iff.mp haffordable
    obtain ⟨steps, hscript⟩ := ih hbefore
    obtain ⟨more, hmore⟩ := exists_outcome (h.run hallows steps) (by rw [hscript])
      (by rw [hscript]; exact hleft) o
    exact ⟨steps ++ more, by rw [run_append, hmore, hscript]⟩

end Supervision

/-! ## The whole course -/

namespace OutboundClient

variable {c c' : OutboundClient} {config : ClientConfig} {m : UInt32}

/-- A client without a task begins. -/
theorem supervised_begin (hidle : c.tasks = []) (hdown : c.isConnected = false)
    (hbegin : c.begin config = .ok c') (hauto : config.autoReconnect = true)
    (hallows : config.Allows m) :
    Supervised config m.toNat c.started ⟨c', .blank, []⟩ := by
  have hfree : (c.isConnected || c.handle.any c.isRunning) = false := by
    have hnone : ∀ number, c.isRunning number = false := by simp [isRunning, hidle]
    simp [hdown, hnone, Option.any_eq_false]
  unfold begin connect at hbegin
  split at hbegin
  case h_1 => cases hbegin
  case h_2 =>
    change (if (c.isConnected || c.handle.any c.isRunning) = true then _ else _) = _ at hbegin
    rw [if_neg (by simp [hfree])] at hbegin
    cases hbegin
    refine .works ⟨c.started, config, .new (policyOf config), .starting⟩
      ⟨by simp [hidle], rfl, hauto, rfl⟩ rfl (.starts rfl rfl)
      (policyOf_of_allows hallows).2.2.2 rfl

/-- **The course of a client that reconnects**, where `m` redials are allowed and nobody stops it.
What it tells are the blocks of its dials, one after the other. Every dial but the first of all is
one of at most `m` redials since the last stable session. While fewer than `m` of them came to no
stable session it goes on; once as many did, it tells at the end that they are exhausted, no longer
reconnects, and does nothing more. And whatever the dials are to come to, as long as the redials
suffice for it, there are steps in which they do. -/
theorem gives_up_after_redials (hidle : c.tasks = []) (hdown : c.isConnected = false)
    (hbegin : c.begin config = .ok c') (hauto : config.autoReconnect = true)
    (hmax : config.maxAttempts = some m) (hm : 0 < m) :
    (∀ steps,
      let r := Supervision.run c.started ⟨c', .blank, []⟩ steps
      Affordable m.toNat r.script.outcomes ∧
      redials r.script.outcomes ≤ m.toNat ∧
      (redials r.script.outcomes < m.toNat →
        r.events = r.script.told ∧ r.client.autoReconnect = true ∧
          r.client.isRunning c.started = true) ∧
      (redials r.script.outcomes = m.toNat →
        r.script.underway = none ∧
          r.events = r.script.told ++ [.failed (.exhausted m.toNat)] ∧
          r.client.autoReconnect = false ∧
          ∀ now step, r.client.taskStep c.started now step = none)) ∧
    ∀ outcomes, Affordable m.toNat outcomes →
      ∃ steps, (Supervision.run c.started ⟨c', .blank, []⟩ steps).script = ⟨outcomes, none⟩ := by
  have hallows : config.Allows m := ⟨hmax, hm⟩
  have hbegun := supervised_begin hidle hdown hbegin hauto hallows
  refine ⟨fun steps => ?_, Supervision.exists_script hbegun hallows rfl⟩
  have haffordable := hbegun.affordable_run hallows (affordable_nil m.toNat) steps
  refine ⟨haffordable, ?_⟩
  cases hbegun.run hallows steps with
  | works task hemploys hnumber hfollows hleft htold =>
    refine ⟨Nat.le_of_lt hleft, fun _ => ⟨htold, hemploys.auto, ?_⟩, fun hspent => by omega⟩
    simp [isRunning, hemploys.tasks, hnumber]
  | spent htasks hoff hs hspent htold =>
    refine ⟨Nat.le_of_eq hspent, fun hleft => by omega, fun _ => ⟨hs, htold, hoff, ?_⟩⟩
    intro now step
    simp [OutboundClient.taskStep, htasks]

/-- One redial is allowed. The first dial fails; the redial comes to a session of a minute with one
message, and the next one to a session that breaks at once. -/
theorem gives_up_after_redials_once :
    let config : ClientConfig :=
      { ClientConfig.ofUri "ws://127.0.0.1:9/ws" with maxAttempts := some 1 }
    let begun : OutboundClient :=
      { new with
        config := some config, autoReconnect := true, handle := some 0, started := 1
        tasks := [⟨0, config, .new (policyOf config), .starting⟩] }
    let steps : List (Duration × NetworkStep) :=
      [(.zero, .start), (.zero, .dialFailed .timeout), (.ofSeconds 5, .woken),
       (.ofSeconds 5, .dialed), (.ofSeconds 6, .received [104, 105] false),
       (.ofSeconds 65, .peerClosed), (.ofSeconds 70, .woken), (.ofSeconds 70, .dialed),
       (.ofSeconds 70, .broken .timeout)]
    let outcomes : List DialOutcome :=
      [.failed .timeout, .session [([104, 105], false)] none (.ofSeconds 60),
       .session [] (some .timeout) .zero]
    new.begin config = .ok begun ∧ (0 : UInt32) < 1 ∧
      (Supervision.run new.started ⟨begun, .blank, []⟩ steps).script = ⟨outcomes, none⟩ ∧
      redials outcomes = 1 ∧
      (Supervision.run new.started ⟨begun, .blank, []⟩ steps).events =
        [.failed .timeout, .connected, .message [104, 105] false, .disconnected,
         .connected, .failed .timeout, .disconnected, .failed (.exhausted 1)] ∧
      (Supervision.run new.started ⟨begun, .blank, []⟩ steps).client.autoReconnect = false ∧
      (∀ now step, (Supervision.run new.started ⟨begun, .blank, []⟩ steps).client.taskStep
        new.started now step = none) ∧
      Affordable 1 outcomes ∧
      ∃ steps, (Supervision.run new.started ⟨begun, .blank, []⟩ steps).script =
        ⟨outcomes, none⟩ := by
  intro config begun steps outcomes
  have hbegin : new.begin config = .ok begun := by decide +kernel
  have hscript : (Supervision.run new.started ⟨begun, .blank, []⟩ steps).script =
      ⟨outcomes, none⟩ := by
    decide +kernel
  have hredials : redials outcomes = 1 := by decide +kernel
  have htold : (Script.mk outcomes none).told ++ [.failed (.exhausted 1)] =
      [.failed .timeout, .connected, .message [104, 105] false, .disconnected,
        .connected, .failed .timeout, .disconnected, .failed (.exhausted 1)] := by
    decide +kernel
  obtain ⟨hcourse, hscripts⟩ :=
    gives_up_after_redials (c := new) (m := 1) rfl rfl hbegin rfl rfl (by decide)
  obtain ⟨haffordable, -, -, hspent⟩ := hcourse steps
  rw [hscript] at haffordable hspent
  obtain ⟨-, hevents, hauto, hdone⟩ := hspent hredials
  exact ⟨hbegin, by decide, hscript, hredials, hevents.trans htold, hauto, hdone, haffordable,
    hscripts outcomes haffordable⟩

end OutboundClient

end DeviceRelay
