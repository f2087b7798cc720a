import DeviceRelay.Outbound.Client

/-!
# A client with several callers

A disconnect takes the handle of the client's task before the task has ended, and other calls may
come while it waits. A call that starts a task looks at the handle alone: one that comes while a
disconnect still waits for a task of a client that is not connected starts a second task beside the
first. Otherwise a client has one task at most, and in any case a task whose disconnect has returned
is gone.

* `SharedClient`: a client with the disconnects under way.
* `SharedClient.Moved`: what a call, a task or a disconnect that waits can do.
* `SharedClient.Tended`: each task is that of the handle, or a disconnect waits for it.
* `SharedClient.startsBeside`: the calls that start a task beside another.
* `SharedClient.one_task_iff`: the theorem on the tasks of a client.
* `SharedClient.two_tasks_beside_disconnect`: two tasks at once.
-/

namespace DeviceRelay

/-! ## Tasks of a client -/

namespace OutboundClient

variable {c c' : OutboundClient} {now : Duration} {task : NetworkTask} {s : NetworkStep}
  {events : List ClientEvent}

/-- The numbers of the tasks that have not ended. -/
def running (c : OutboundClient) : List Nat := c.tasks.map NetworkTask.number

theorem isRunning_iff {number : Nat} : c.isRunning number = true ↔ number ∈ c.running := by
  simp [isRunning, running]

/-- What a task can do to the tasks of its client: none is added. -/
structure Works (c c' : OutboundClient) : Prop where
  running : c'.running.Sublist c.running
  handle : c'.handle = c.handle
  started : c'.started = c.started

theorem Works.of_tasks (h : c'.running = c.running) (hhandle : c'.handle = c.handle)
    (hstarted : c'.started = c.started) : Works c c' :=
  ⟨h ▸ List.Sublist.refl _, hhandle, hstarted⟩

theorem works_abort (c : OutboundClient) (number : Nat) : Works c (c.abort number) :=
  ⟨List.filter_sublist.map _, rfl, rfl⟩

/-- A task is another one of the same number. -/
theorem running_map {f : NetworkTask → NetworkTask} (h : ∀ t, (f t).number = t.number) :
    ({ c with tasks := c.tasks.map f } : OutboundClient).running = c.running := by
  simp [running, Function.comp_def, h]

theorem number_replaced {t t' : NetworkTask} (h : t'.number = t.number) (u : NetworkTask) :
    (if u.number = t.number then t' else u).number = u.number := by
  split
  · rename_i heq
    exact h.trans heq.symm
  · rfl

theorem works_setPhase (c : OutboundClient) (number : Nat) (phase : TaskPhase) :
    Works c (c.setPhase number phase) :=
  .of_tasks (running_map fun t => by split <;> rfl) rfl rfl

theorem works_afterSession (c : OutboundClient) (task : NetworkTask) (now held : Duration) :
    Works c (c.afterSession task now held).1 := by
  unfold afterSession
  split
  · exact c.works_abort task.number
  · dsimp only
    split
    · exact .of_tasks (running_map (number_replaced rfl)) rfl rfl
    · exact ⟨List.filter_sublist.map _, rfl, rfl⟩

theorem works_endSession (c : OutboundClient) (task : NetworkTask) (now since : Duration) :
    Works c (c.endSession task now since).1 := by
  obtain ⟨hrunning, hhandle, hstarted⟩ :=
    works_afterSession { c with outbox := none, isConnected := false } task now (now.sub since)
  exact ⟨hrunning, hhandle, hstarted⟩

theorem works_stepOf (h : c.stepOf task now s = some (c', events)) : Works c c' := by
  cases s with
  | start =>
    simp only [stepOf] at h
    split at h <;> cases h
    exact .of_tasks (running_map (number_replaced rfl)) rfl rfl
  | dialed =>
    simp only [stepOf] at h
    split at h <;> cases h
    obtain ⟨hrunning, hhandle, hstarted⟩ := c.works_setPhase task.number (.inSession now)
    exact ⟨hrunning, hhandle, hstarted⟩
  | received | transmitted =>
    simp only [stepOf] at h
    split at h <;> cases h
    exact .of_tasks rfl rfl rfl
  | woken =>
    simp only [stepOf] at h
    split at h
    · obtain ⟨-, h⟩ := Option.ite_none_right_eq_some.mp h
      cases h
      exact c.works_setPhase task.number .dialing
    · cases h
  | stopped =>
    obtain ⟨-, h⟩ := Option.ite_none_right_eq_some.mp h
    split at h <;> cases h
    · exact c.works_abort task.number
    · exact c.works_abort task.number
    · exact c.works_setPhase task.number _
  | dialFailed e =>
    simp only [stepOf] at h
    split at h
    · obtain ⟨rfl, -⟩ := Prod.mk.inj (Option.some.inj h)
      exact c.works_afterSession task now .zero
    · cases h
  | peerClosed | broken e | saidGoodbye =>
    simp only [stepOf] at h
    split at h
    · have hc : (c.endSession task now _).1 = c' := congrArg Prod.fst (Option.some.inj h)
      exact hc ▸ c.works_endSession task now _
    · cases h

/-- **A step of a task** adds no task, and is one of a task that has not ended. -/
theorem works_taskStep {number : Nat} (h : c.taskStep number now s = some (c', events)) :
    Works c c' ∧ number ∈ c.running := by
  obtain ⟨t, hfind, hstep⟩ := Option.bind_eq_some_iff.mp h
  have hnumber : t.number = number := by simpa using List.find?_some hfind
  exact ⟨works_stepOf hstep, List.mem_map.mpr ⟨t, List.mem_of_find?_eq_some hfind, hnumber⟩⟩

/-- Whether a call that has a configuration starts a task: there is no connection, and the task of
the handle has ended. -/
def canStart (c : OutboundClient) : Bool := !c.isConnected && !c.handle.any c.isRunning

/-- What a call that may start a task does, by whether it starts one. -/
inductive Starts (c c' : OutboundClient) : Bool → Prop where
  | stays (hrunning : c'.running = c.running) (hhandle : c'.handle = c.handle)
      (hstarted : c'.started = c.started) : Starts c c' false
  | spawns (hcan : c.canStart = true) (hrunning : c'.running = c.running ++ [c.started])
      (hhandle : c'.handle = some c.started) (hstarted : c'.started = c.started + 1) :
      Starts c c' true

/-- What a call starts does not depend on the settings. -/
theorem Starts.of_settings {autoReconnect b : Bool} {config : Option ClientConfig}
    (h : Starts { c with autoReconnect := autoReconnect, config := config } c' b) :
    Starts c c' b := by
  cases h with
  | stays hrunning hhandle hstarted => exact .stays hrunning hhandle hstarted
  | spawns hcan hrunning hhandle hstarted => exact .spawns hcan hrunning hhandle hstarted

theorem connect_of_config {config : ClientConfig} (h : c.config = some config) :
    ∃ c', c.connect = .ok c' ∧ Starts c c' c.canStart := by
  have hcond : (c.isConnected || c.handle.any c.isRunning) = !c.canStart := by simp [canStart]
  unfold connect
  rw [hcond, h]
  cases hcan : c.canStart with
  | false => exact ⟨c, rfl, .stays rfl rfl rfl⟩
  | true => exact ⟨_, rfl, .spawns hcan (by simp [running]) rfl rfl⟩

theorem starts_connect (c : OutboundClient) :
    Starts c (c.connect.toOption.getD c) (c.config.isSome && c.canStart) := by
  cases h : c.config with
  | none =>
    have hconnect : c.connect.toOption.getD c = c := by
      unfold connect
      rw [h]
      split <;> rfl
    rw [hconnect]
    exact .stays rfl rfl rfl
  | some config =>
    obtain ⟨c', hconnect, hstarts⟩ := connect_of_config h
    rwa [hconnect]

theorem starts_begin (c : OutboundClient) (config : ClientConfig) :
    Starts c ((c.begin config).toOption.getD c) (config.check.isOk && c.canStart) := by
  unfold begin
  cases config.check with
  | error e => exact .stays rfl rfl rfl
  | ok =>
    obtain ⟨c', hconnect, hstarts⟩ := connect_of_config
      (c := { c with autoReconnect := config.autoReconnect, config := some config }) rfl
    dsimp only
    rw [hconnect]
    exact hstarts.of_settings

end OutboundClient

/-! ## Calls that come at any time -/

/-- A client with what its callers do. -/
structure SharedClient where
  client : OutboundClient
  /-- The disconnects under way: the task that each waits for, and since when. -/
  pending : List (Nat × Duration)
  /-- The tasks whose disconnect has returned. -/
  released : List Nat
  /-- What was told, with the task that told it. -/
  told : List (Nat × ClientEvent)

namespace SharedClient

def new : SharedClient := ⟨.new, [], [], []⟩

/-- What happens between two points at which others may run. -/
inductive Move where
  | begin (config : ClientConfig)
  | connect
  | disconnect (now : Duration)
  /-- A disconnect has waited for this task long enough. -/
  | gaveUp (now : Duration) (task : Nat)
  /-- The disconnect that waited for this task returns. -/
  | returned (task : Nat)
  | step (now : Duration) (task : Nat) (s : OutboundClient.NetworkStep)

/-- The client after a move; what cannot happen changes nothing. -/
def next (s : SharedClient) : Move → SharedClient
  | .begin config => { s with client := (s.client.begin config).toOption.getD s.client }
  | .connect => { s with client := s.client.connect.toOption.getD s.client }
  | .disconnect now =>
    match s.client.startDisconnect with
    | (none, client) => { s with client := client.finishDisconnect }
    | (some task, client) => { s with client := client, pending := s.pending ++ [(task, now)] }
  | .gaveUp now task =>
    if s.pending.any fun p => p.1 = task && p.2.add OutboundClient.stopWait ≤ now then
      { s with client := s.client.abort task }
    else s
  | .returned task =>
    if (s.pending.any fun p => p.1 = task) && !s.client.isRunning task then
      { s with
        client := s.client.finishDisconnect
        pending := s.pending.filter fun p => p.1 ≠ task
        released := s.released ++ [task] }
    else s
  | .step now task step =>
    match s.client.taskStep task now step with
    | none => s
    | some (client, events) =>
      { s with client := client, told := s.told ++ events.map fun e => (task, e) }

def run (s : SharedClient) (moves : List Move) : SharedClient := moves.foldl next s

variable {s : SharedClient} {m : Move} {moves : List Move}

theorem run_concat (s : SharedClient) (moves : List Move) (m : Move) :
    s.run (moves ++ [m]) = (s.run moves).next m := by
  simp [run]

/-- Whether a move starts a task. -/
def starts (s : SharedClient) : Move → Bool
  | .begin config => config.check.isOk && s.client.canStart
  | .connect => s.client.config.isSome && s.client.canStart
  | _ => false

/-- Whether a move starts a task while a disconnect still waits for one that runs. -/
def startsBeside (s : SharedClient) (m : Move) : Bool :=
  s.starts m && s.pending.any fun p => s.client.isRunning p.1

/-- What a move can do, by whether it starts a task. -/
inductive Moved (s : SharedClient) : SharedClient → Bool → Prop where
  /-- A task works or is aborted, or a call changes nothing. -/
  | works {client : OutboundClient} {told events : List (Nat × ClientEvent)}
      (hworks : OutboundClient.Works s.client client) (htold : told = s.told ++ events)
      (hby : ∀ e ∈ events, e.1 ∈ s.client.running) :
      Moved s { s with client := client, told := told } false
  | spawns {client : OutboundClient} (hstarts : OutboundClient.Starts s.client client true) :
      Moved s { s with client := client } true
  /-- The task of the handle becomes one that a disconnect waits for. -/
  | asks {task : Nat} {now : Duration} (hhandle : s.client.handle = some task) :
      Moved s { s with
        client := s.client.startDisconnect.2, pending := s.pending ++ [(task, now)] } false
  /-- The disconnect of a task that has ended returns. -/
  | returns {task : Nat} (hpending : task ∈ s.pending.map Prod.fst)
      (hended : task ∉ s.client.running) :
      Moved s { s with
        client := s.client.finishDisconnect
        pending := s.pending.filter fun p => p.1 ≠ task
        released := s.released ++ [task] } false

theorem Moved.quiet {client : OutboundClient} (hworks : OutboundClient.Works s.client client) :
    Moved s { s with client := client } false :=
  .works hworks (List.append_nil _).symm (by simp)

theorem Moved.of_starts {client : OutboundClient} {b : Bool}
    (h : OutboundClient.Starts s.client client b) : Moved s { s with client := client } b := by
  cases b with
  | false =>
    cases h with
    | stays hrunning hhandle hstarted => exact .quiet (.of_tasks hrunning hhandle hstarted)
  | true => exact .spawns h

/-- **A move** does one of these. -/
theorem moved (s : SharedClient) (m : Move) : Moved s (s.next m) (s.starts m) := by
  cases m with
  | begin config => exact .of_starts (s.client.starts_begin config)
  | connect => exact .of_starts s.client.starts_connect
  | disconnect now =>
    cases hhandle : s.client.handle with
    | none =>
      have hnext : s.next (.disconnect now) =
          { s with client := s.client.startDisconnect.2.finishDisconnect } := by
        simp [next, OutboundClient.startDisconnect, hhandle]
      exact hnext ▸ .quiet (.of_tasks rfl hhandle.symm rfl)
    | some task =>
      have hnext : s.next (.disconnect now) = { s with
          client := s.client.startDisconnect.2, pending := s.pending ++ [(task, now)] } := by
        simp [next, OutboundClient.startDisconnect, hhandle]
      exact hnext ▸ .asks hhandle
  | gaveUp now task =>
    unfold next
    dsimp only
    split
    · exact .quiet (s.client.works_abort task)
    · exact .quiet (.of_tasks rfl rfl rfl)
  | returned task =>
    unfold next
    dsimp only
    split
    case isTrue hcond =>
      obtain ⟨hpending, hended⟩ := Bool.and_eq_true_iff.mp hcond
      exact .returns (by simpa using hpending)
        (by simpa [← OutboundClient.isRunning_iff] using hended)
    case isFalse => exact .quiet (.of_tasks rfl rfl rfl)
  | step now task step =>
    unfold next
    dsimp only
    split
    case h_1 => exact .quiet (.of_tasks rfl rfl rfl)
    case h_2 client events hstep =>
      obtain ⟨hworks, htask⟩ := OutboundClient.works_taskStep hstep
      refine .works hworks rfl fun e he => ?_
      obtain ⟨event, -, rfl⟩ := List.mem_map.mp he
      exact htask

/-! ## Where the tasks are -/

/-- Each task is that of the handle, or a disconnect waits for it. A disconnect waits for a task
that was started, and a task whose disconnect has returned is gone. -/
structure Tended (s : SharedClient) : Prop where
  owned : ∀ n ∈ s.client.running, s.client.handle = some n ∨ n ∈ s.pending.map Prod.fst
  handle_lt : ∀ n ∈ s.client.handle, n < s.client.started
  pending_lt : ∀ n ∈ s.pending.map Prod.fst, n < s.client.started
  released_lt : ∀ n ∈ s.released, n < s.client.started
  gone : ∀ n ∈ s.released, n ∉ s.client.running

theorem tended_new : Tended new where
  owned := by simp [new, OutboundClient.new, OutboundClient.running]
  handle_lt := by simp [new, OutboundClient.new]
  pending_lt := by simp [new]
  released_lt := by simp [new]
  gone := by simp [new]

/-- While the task of the handle has ended, a disconnect waits for each task that runs. -/
theorem Tended.mem_pending (h : s.Tended) (hcan : s.client.canStart = true) {n : Nat}
    (hn : n ∈ s.client.running) : n ∈ s.pending.map Prod.fst := by
  refine (h.owned n hn).resolve_left fun hhandle => ?_
  have hrun := OutboundClient.isRunning_iff.mpr hn
  simp [OutboundClient.canStart, hhandle, hrun] at hcan

/-- The task of the handle has ended before another takes its place. -/
theorem Tended.spawns {client : OutboundClient} (h : s.Tended)
    (hstarts : OutboundClient.Starts s.client client true) :
    Tended { s with client := client } := by
  cases hstarts with
  | spawns hcan hrunning hhandle hstarted =>
    have hlt {n : Nat} (hn : n < s.client.started) : n < client.started := by omega
    refine ⟨fun n hn => ?_, fun n hn => ?_, fun n hn => hlt (h.pending_lt n hn),
      fun n hn => hlt (h.released_lt n hn), fun n hn hrun => ?_⟩
    · rw [hrunning] at hn
      obtain hn | hn := List.mem_append.mp hn
      · exact .inr (h.mem_pending hcan hn)
      · exact .inl (by rw [hhandle, List.mem_singleton.mp hn])
    · rw [show n = s.client.started from (Option.mem_some_iff.mp (hhandle ▸ hn)).symm, hstarted]
      exact Nat.lt_succ_self _
    · rw [hrunning] at hrun
      obtain hrun | hrun := List.mem_append.mp hrun
      · exact h.gone n hn hrun
      · have := h.released_lt n hn
        have := List.mem_singleton.mp hrun
        omega

theorem Tended.asks (h : s.Tended) {task : Nat} (hhandle : s.client.handle = some task)
    (now : Duration) : Tended { s with
      client := s.client.startDisconnect.2, pending := s.pending ++ [(task, now)] } := by
  refine ⟨fun n hn => .inr ?_, fun n hn => (Option.not_mem_none n hn).elim, fun n hn => ?_,
    h.released_lt, h.gone⟩
  · rw [List.map_append]
    obtain hn | hn := h.owned n hn
    · exact List.mem_append_right _ (by simp [Option.some.inj (hhandle.symm.trans hn)])
    · exact List.mem_append_left _ hn
  · rw [List.map_append] at hn
    obtain hn | hn := List.mem_append.mp hn
    · exact h.pending_lt n hn
    · exact List.mem_singleton.mp hn ▸ h.handle_lt task hhandle

theorem Tended.returns (h : s.Tended) {task : Nat} (hpending : task ∈ s.pending.map Prod.fst)
    (hended : task ∉ s.client.running) : Tended { s with
      client := s.client.finishDisconnect
      pending := s.pending.filter fun p => p.1 ≠ task
      released := s.released ++ [task] } := by
  refine ⟨fun n hn => ?_, h.handle_lt, fun n hn => ?_, fun n hn => ?_, fun n hn => ?_⟩
  · refine (h.owned n hn).imp_right fun hmem => ?_
    obtain ⟨p, hp, rfl⟩ := List.mem_map.mp hmem
    have hne : p.1 ≠ task := fun heq => hended (heq ▸ hn)
    exact List.mem_map.mpr ⟨p, by simp [hp, hne], rfl⟩
  · exact h.pending_lt n ((List.filter_sublist.map _).mem hn)
  · obtain hn | hn := List.mem_append.mp hn
    · exact h.released_lt n hn
    · exact List.mem_singleton.mp hn ▸ h.pending_lt task hpending
  · obtain hn | hn := List.mem_append.mp hn
    · exact h.gone n hn
    · exact List.mem_singleton.mp hn ▸ hended

theorem Moved.tended {s' : SharedClient} {b : Bool} (hmoved : Moved s s' b) (h : s.Tended) :
    s'.Tended := by
  cases hmoved with
  | works hworks =>
    obtain ⟨hrunning, hhandle, hstarted⟩ := hworks
    exact ⟨fun n hn => hhandle ▸ h.owned n (hrunning.mem hn), hhandle ▸ hstarted ▸ h.handle_lt,
      hstarted ▸ h.pending_lt, hstarted ▸ h.released_lt,
      fun n hn hrun => h.gone n hn (hrunning.mem hrun)⟩
  | spawns hstarts => exact h.spawns hstarts
  | asks hhandle => exact h.asks hhandle _
  | returns hpending hended => exact h.returns hpending hended

/-- A move leaves each task with the handle or with a disconnect. -/
theorem Tended.next (h : s.Tended) (m : Move) : (s.next m).Tended := (s.moved m).tended h

theorem Tended.run (h : s.Tended) (moves : List Move) : (s.run moves).Tended := by
  induction moves generalizing s with
  | nil => exact h
  | cons m moves ih => exact ih (h.next m)

/-! ## How many tasks there are -/

theorem Moved.spawned {s' : SharedClient} (h : Moved s s' true) :
    s.client.canStart = true ∧ s'.client.running = s.client.running ++ [s.client.started] := by
  cases h with
  | spawns hstarts =>
    cases hstarts with
    | spawns hcan hrunning => exact ⟨hcan, hrunning⟩

theorem Moved.sublist {s' : SharedClient} (h : Moved s s' false) :
    s'.client.running.Sublist s.client.running := by
  cases h with
  | works hworks => exact hworks.running
  | asks | returns => exact List.Sublist.refl _

theorem Tended.running_of_not_startsBeside (h : s.Tended) (hle : s.client.running.length ≤ 1)
    (hm : s.startsBeside m = false) : (s.next m).client.running.length ≤ 1 := by
  have hmoved := s.moved m
  cases hstarts : s.starts m with
  | false =>
    rw [hstarts] at hmoved
    exact Nat.le_trans hmoved.sublist.length_le hle
  | true =>
    rw [hstarts] at hmoved
    obtain ⟨hcan, hrunning⟩ := hmoved.spawned
    have hnil : s.client.running = [] := by
      refine List.eq_nil_iff_forall_not_mem.mpr fun n hn => ?_
      obtain ⟨p, hp, rfl⟩ := List.mem_map.mp (h.mem_pending hcan hn)
      have hbeside : s.startsBeside m = true :=
        Bool.and_eq_true_iff.mpr
          ⟨hstarts, List.any_eq_true.mpr ⟨p, hp, OutboundClient.isRunning_iff.mpr hn⟩⟩
      exact Bool.false_ne_true (hm ▸ hbeside)
    simp [hrunning, hnil]

theorem running_of_startsBeside (hm : s.startsBeside m = true) :
    1 < (s.next m).client.running.length := by
  obtain ⟨hstarts, hbeside⟩ := Bool.and_eq_true_iff.mp hm
  obtain ⟨p, -, hp⟩ := List.any_eq_true.mp hbeside
  have hpos := List.length_pos_of_mem (OutboundClient.isRunning_iff.mp hp)
  have hmoved := s.moved m
  rw [hstarts] at hmoved
  rw [hmoved.spawned.2, List.length_append, List.length_singleton]
  omega

/-- The moves up to one that starts no task beside another leave one task at most. -/
theorem running_take_le_one
    (h : ∀ i (hi : i < moves.length),
      (new.run (moves.take i)).startsBeside (moves.get ⟨i, hi⟩) = false) (i : Nat) :
    (new.run (moves.take i)).client.running.length ≤ 1 := by
  induction i with
  | zero => simp [run, new, OutboundClient.new, OutboundClient.running]
  | succ i ih =>
    by_cases hi : i < moves.length
    · rw [List.take_succ_eq_append_getElem hi, run_concat]
      exact (tended_new.run _).running_of_not_startsBeside ih (h i hi)
    · -- past the last move nothing happens
      rwa [List.take_of_length_le (by omega), ← List.take_of_length_le (Nat.not_lt.mp hi)]

/-! ## What is told after a disconnect -/

/-- What a move tells, a task tells that runs. -/
theorem Moved.told {s' : SharedClient} {b : Bool} (h : Moved s s' b) :
    ∃ events, s'.told = s.told ++ events ∧ ∀ e ∈ events, e.1 ∈ s.client.running := by
  cases h with
  | works _ htold hby => exact ⟨_, htold, hby⟩
  | spawns | asks | returns => exact ⟨[], (List.append_nil _).symm, by simp⟩

theorem Moved.released {s' : SharedClient} {b : Bool} (h : Moved s s' b) :
    s.released ⊆ s'.released := by
  cases h with
  | works | spawns | asks => exact List.Subset.refl _
  | returns => exact List.subset_append_left _ _

/-- **A task whose disconnect has returned** is gone, and tells nothing more. -/
theorem Tended.run_released (h : s.Tended) {task : Nat} (htask : task ∈ s.released)
    (moves : List Move) : task ∉ (s.run moves).client.running ∧
      ∃ events, (s.run moves).told = s.told ++ events ∧ ∀ e ∈ events, e.1 ≠ task := by
  induction moves generalizing s with
  | nil => exact ⟨h.gone task htask, [], (List.append_nil _).symm, by simp⟩
  | cons m moves ih =>
    obtain ⟨now, htold, hnow⟩ := (s.moved m).told
    obtain ⟨hgone, later, hrun, hlater⟩ := ih (h.next m) ((s.moved m).released htask)
    refine ⟨hgone, now ++ later, ?_, fun e he => ?_⟩
    · rw [← List.append_assoc, ← htold]
      exact hrun
    · obtain he | he := List.mem_append.mp he
      · exact fun heq => h.gone task htask (heq ▸ hnow e he)
      · exact hlater e he

/-- **A client has one task at most**, as long as no call starts one while a disconnect still waits
for a task that runs; such a call leaves two. However the calls come, a task whose disconnect has
returned is gone, and tells nothing more. -/
theorem one_task_iff (moves : List Move) :
    ((∀ i, (new.run (moves.take i)).client.tasks.length ≤ 1) ↔
      ∀ i (hi : i < moves.length),
        (new.run (moves.take i)).startsBeside (moves.get ⟨i, hi⟩) = false) ∧
    ∀ i, ∀ task ∈ (new.run (moves.take i)).released,
      (new.run moves).client.isRunning task = false ∧
        ∃ events, (new.run moves).told = (new.run (moves.take i)).told ++ events ∧
          ∀ e ∈ events, e.1 ≠ task := by
  have hlength (c : OutboundClient) : c.tasks.length = c.running.length :=
    (List.length_map _).symm
  refine ⟨⟨fun h i hi => ?_, fun h i => hlength _ ▸ running_take_le_one h i⟩, ?_⟩
  · refine Bool.eq_false_iff.mpr fun hbeside => ?_
    have htwo := running_of_startsBeside hbeside
    have hone := hlength _ ▸ h (i + 1)
    rw [List.take_succ_eq_append_getElem hi, run_concat] at hone
    exact absurd hone (Nat.not_le.mpr htwo)
  · intro i task htask
    obtain ⟨hgone, htold⟩ := (tended_new.run _).run_released htask (moves.drop i)
    have hrun : (new.run (moves.take i)).run (moves.drop i) = new.run moves := by
      rw [run, run, ← List.foldl_append, List.take_append_drop, run]
    rw [hrun] at hgone htold
    exact ⟨Bool.eq_false_iff.mpr fun h => hgone (OutboundClient.isRunning_iff.mp h), htold⟩

/-- A disconnect returns before the next task starts. -/
def inTurn : List Move :=
  [.begin (.ofUri "ws://broker.example/"), .step .zero 0 .start, .step .zero 0 .dialed,
    .disconnect .zero, .gaveUp (.ofSeconds 2) 0, .returned 0, .connect,
    .step (.ofSeconds 2) 1 .start, .step (.ofSeconds 2) 1 .dialed]

/-- The first task is gone when its disconnect returns, and the second one runs alone. -/
theorem one_task_iff_in_turn :
    (∀ i, (new.run (inTurn.take i)).client.tasks.length ≤ 1) ∧
      0 ∈ (new.run (inTurn.take 6)).released ∧ (new.run inTurn).client.running = [1] ∧
      ∃ events, (new.run inTurn).told = [(0, .connected)] ++ events ∧ ∀ e ∈ events, e.1 ≠ 0 := by
  have hreleased : 0 ∈ (new.run (inTurn.take 6)).released := by decide +kernel
  have htold : (new.run (inTurn.take 6)).told = [(0, .connected)] := by decide +kernel
  exact ⟨(one_task_iff inTurn).1.mpr (by decide +kernel), hreleased, by decide +kernel,
    htold ▸ ((one_task_iff inTurn).2 6 0 hreleased).2⟩

/-- A call comes while a disconnect waits for a task that is about to dial. -/
def overlapping : List Move :=
  [.begin (.ofUri "ws://broker.example/"), .step .zero 0 .start, .disconnect .zero, .connect,
    .step .zero 1 .start, .step .zero 0 .dialed, .step .zero 1 .dialed]

/-- The call finds the slot of the handle empty and starts a second task, and both dial and
connect. -/
theorem two_tasks_beside_disconnect :
    (new.run overlapping).client.running = [0, 1] ∧
      (new.run overlapping).told = [(0, .connected), (1, .connected)] ∧
      ¬ ∀ moves, (new.run moves).client.tasks.length ≤ 1 :=
  ⟨by decide +kernel, by decide +kernel, fun h => absurd (h overlapping) (by decide +kernel)⟩

end SharedClient

end DeviceRelay
