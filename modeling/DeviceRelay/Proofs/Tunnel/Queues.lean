import DeviceRelay.Proofs.Tunnel.Moves

/-!
# The queues of a tunnel's transports

A transport keeps its queue wherever it is: installed, being stopped, or given up. A send puts its
payload at the end of the queue of the transport that is installed; no other step, of whatever task
or client, puts anything into any queue.

* `Tunnel.queues`, `Tunnel.queue`: what waits, by generation.
* `Tunnel.Distinct`: transports of one generation have one queue.
* `Tunnel.Moved.queues_subset`: the queues after a step of the owner or the worker.
* `Tunnel.queue_enqueue`: the queues after a payload was put into one of them.
-/

namespace DeviceRelay

/-- The generation of a transport, and the messages that wait in its queue. -/
def Transport.entry (tr : Transport) : Nat × List Message := (tr.generation, tr.client.waiting)

namespace Tunnel

variable {t t' : Tunnel} {now : Duration} {e : TunnelEvent} {w : Worker} {c : ControlTask}

/-- What waits for the network, with each transport, installed or taken out. -/
def queues (t : Tunnel) : List (Nat × List Message) := t.transports.map Transport.entry

/-- What waits in the queue of the transport of a generation. -/
def queue (t : Tunnel) (generation : Nat) : List Message :=
  ((t.queues.find? fun q => q.1 = generation).map Prod.snd).getD []

/-- Transports of one generation have one queue. -/
def Distinct (t : Tunnel) : Prop :=
  ∀ generation q q', (generation, q) ∈ t.queues → (generation, q') ∈ t.queues → q = q'

theorem queue_cases (t : Tunnel) (generation : Nat) :
    t.queue generation = [] ∨ (generation, t.queue generation) ∈ t.queues := by
  unfold queue
  cases hf : t.queues.find? fun q => q.1 = generation with
  | none => exact .inl rfl
  | some q =>
    obtain rfl : q.1 = generation := by simpa using List.find?_some hf
    exact .inr (List.mem_of_find?_eq_some hf)

theorem queue_eq_of_mem (hd : t.Distinct) {generation : Nat} {q : List Message}
    (h : (generation, q) ∈ t.queues) : t.queue generation = q := by
  unfold queue
  cases hf : t.queues.find? fun q => q.1 = generation with
  | none => exact absurd (by simp) (List.find?_eq_none.mp hf _ h)
  | some p =>
    obtain rfl : p.1 = generation := by simpa using List.find?_some hf
    exact hd p.1 p.2 q (List.mem_of_find?_eq_some hf) h

/-- Of each queue what is left is the end of what was there. -/
def Shrinks (t t' : Tunnel) : Prop :=
  ∀ generation q, (generation, q) ∈ t'.queues → q <:+ t.queue generation

theorem Shrinks.queue (h : Shrinks t t') (generation : Nat) :
    t'.queue generation <:+ t.queue generation := by
  obtain hnil | hmem := t'.queue_cases generation
  · rw [hnil]
    exact List.nil_suffix
  · exact h generation _ hmem

theorem Distinct.shrinks (hd : t.Distinct) {generation : Nat}
    (h : t'.queues ⊆ (generation, []) :: t.queues) : Shrinks t t' := by
  intro g q hq
  obtain heq | hmem := List.mem_cons.mp (h hq)
  · cases heq
    exact List.nil_suffix
  · obtain rfl := queue_eq_of_mem hd hmem
    exact List.suffix_rfl

/-! ## Where the queues are -/

theorem entry_mem_queues {tr : Transport} (h : t.transport = some tr) : tr.entry ∈ t.queues :=
  List.mem_map_of_mem (mem_transports_iff.mpr (.inl h))

theorem TakenOut.entry_mem_queues {tr : Transport} (h : t.TakenOut tr) : tr.entry ∈ t.queues :=
  List.mem_map_of_mem (mem_transports_iff.mpr (.inr h))

theorem queues_subset_of {queues : List (Nat × List Message)}
    (hinst : ∀ tr, t.transport = some tr → tr.entry ∈ queues)
    (htaken : ∀ tr, t.TakenOut tr → tr.entry ∈ queues) : t.queues ⊆ queues := by
  intro q hq
  obtain ⟨tr, htr, rfl⟩ := List.mem_map.mp hq
  exact (mem_transports_iff.mp htr).elim (hinst tr) (htaken tr)

/-- Only these parts of a tunnel count. -/
theorem queues_subset_of_same (htr : t'.transport = t.transport)
    (hworker : t'.worker = t.worker) (hcontrol : t'.control = t.control)
    (habandoned : t'.abandoned = t.abandoned) : t'.queues ⊆ t.queues := by
  unfold queues
  rw [transports_eq, transports_eq, htr, hworker, hcontrol, habandoned]
  exact List.Subset.refl _

/-- A transport that is being stopped keeps its queue. -/
theorem entry_stop (tr : Transport) (now : Duration) : (tr.stop now).transport.entry = tr.entry :=
  rfl

/-- No transport is of a generation to come. -/
theorem Kept.fst_le_of_mem_queues (h : t.Kept) {q : Nat × List Message} (hq : q ∈ t.queues) :
    q.1 ≤ t.generation := by
  obtain ⟨tr, htr, rfl⟩ := List.mem_map.mp hq
  obtain hinst | htaken := mem_transports_iff.mp htr
  · exact Nat.le_of_eq (h.installed tr hinst)
  · exact Nat.le_of_lt (h.older tr htaken)

/-! ## Steps of the owner and the worker -/

/-- A worker that is stopping no client adds no queue. -/
theorem queues_subset_of_worker (hfree : ∀ w, t'.worker = some w → w.phase.taken? = none)
    (htr : t'.transport = t.transport) (hcontrol : t'.control = t.control)
    (habandoned : t'.abandoned = t.abandoned) : t'.queues ⊆ t.queues := by
  refine queues_subset_of (fun tr h => entry_mem_queues (htr ▸ h)) fun tr h => ?_
  cases h with
  | worker w hw htaken => rw [hfree w hw] at htaken; cases htaken
  | control c hc htaken => exact (TakenOut.control c (hcontrol ▸ hc) htaken).entry_mem_queues
  | abandoned h => exact (TakenOut.abandoned (habandoned ▸ h)).entry_mem_queues

/-- A call that is stopping no client adds no queue. -/
theorem queues_subset_of_control (hfree : ∀ c, t'.control = some c → c.phase.taken? = none)
    (htr : t'.transport = t.transport)
    (hworker : ∀ w, t'.worker = some w → ∃ w', t.worker = some w' ∧
      w'.phase.taken? = w.phase.taken?)
    (habandoned : ∀ tr ∈ t'.abandoned, t.TakenOut tr) : t'.queues ⊆ t.queues := by
  refine queues_subset_of (fun tr h => entry_mem_queues (htr ▸ h)) fun tr h => ?_
  cases h with
  | worker w hw htaken =>
    obtain ⟨w', hw', heq⟩ := hworker w hw
    exact (TakenOut.worker w' hw' (heq.trans htaken)).entry_mem_queues
  | control c hc htaken => rw [hfree c hc] at htaken; cases htaken
  | abandoned h => exact (habandoned tr h).entry_mem_queues

theorem queues_spawnWorker (t : Tunnel) : t.spawnWorker.queues ⊆ t.queues := by
  obtain ⟨w, -, heq⟩ | ⟨w', hw', -, heq⟩ := t.spawnWorker_cases
  · rw [heq]
    exact List.Subset.refl _
  · rw [heq]
    refine queues_subset_of_worker (fun w hw => ?_) rfl rfl rfl
    cases hw
    rw [hw']
    rfl

theorem queues_startStopping (t : Tunnel) (restarts : Bool) (now : Duration) :
    (t.startStopping restarts now).queues ⊆ t.queues := by
  obtain ⟨hw, heq⟩ | ⟨w, hw, heq⟩ := t.startStopping_cases restarts now <;> rw [heq]
  · exact queues_subset_of_control (fun c hc => by cases hc; rfl) rfl
      (fun w' hw' => ⟨w', hw', rfl⟩) fun tr h => .abandoned h
  · exact queues_subset_of_control (fun c hc => by cases hc; rfl) rfl
      (fun w' hw' => ⟨w, hw, by cases hw'; rfl⟩) fun tr h => .abandoned h

theorem queues_finishControl (t : Tunnel) (c : ControlTask) :
    (t.finishControl c).queues ⊆ t.queues := by
  have hdone : ({ t with control := none } : Tunnel).queues ⊆ t.queues :=
    queues_subset_of_control (fun c hc => by cases hc) rfl (fun w hw => ⟨w, hw, rfl⟩)
      fun tr h => .abandoned h
  unfold finishControl
  split
  · exact List.Subset.trans (queues_spawnWorker _) hdone
  · exact hdone

theorem queues_call {config : TunnelConfig} {enabled : Bool}
    (hmoved : CallMoved t now config enabled t') : t'.queues ⊆ t.queues := by
  cases hmoved with
  | sets => exact queues_subset_of_same rfl rfl rfl rfl
  | spawns hc hon =>
    exact List.Subset.trans (queues_spawnWorker _) (queues_subset_of_same rfl rfl rfl rfl)
  | stops restarts hc hr =>
    exact List.Subset.trans (queues_startStopping _ restarts now)
      (queues_subset_of_same rfl rfl rfl rfl)

theorem queues_control (hmoved : ControlMoved t c now t') :
    t'.queues ⊆ t.queues := by
  cases hmoved with
  | joins since hp =>
    exact queues_subset_of_control (fun c' hc' => by cases hc'; rfl) rfl
      (fun w hw => by cases hw) fun tr h => .abandoned h
  | aborts since hp =>
    exact queues_subset_of_control (fun c' hc' => by cases hc'; rfl) rfl
      (fun w hw => by cases hw) fun tr h => takenOut_of_mem_abortWorker h
  | takes tr hp htr =>
    refine queues_subset_of (fun tr' h => by cases h) fun tr' h => ?_
    cases h with
    | worker w hw htaken => exact (TakenOut.worker (t := t) w hw htaken).entry_mem_queues
    | control c' hc' htaken =>
      cases hc'
      cases htaken
      rw [entry_stop]
      exact entry_mem_queues htr
    | abandoned h => exact (TakenOut.abandoned (t := t) h).entry_mem_queues
  | finds hp htr | stops s hp =>
    exact List.Subset.trans (queues_finishControl _ c) (queues_subset_of_same rfl rfl rfl rfl)

theorem queues_worker (hmoved : WorkerMoved t w now t') :
    t'.queues ⊆ (t.generation + 1, []) :: t.queues := by
  have hold : t.queues ⊆ (t.generation + 1, []) :: t.queues := List.subset_cons_self ..
  cases hmoved with
  | waits w' hwaits =>
    refine List.Subset.trans (queues_subset_of_worker (t := t) (fun w'' hw'' => ?_) rfl rfl rfl)
      hold
    cases hw''
    exact WorkerPhase.taken?_of_free hwaits.free'
  | dials a permit hp =>
    obtain ⟨client, hbegin, heq⟩ | heq := t.install_cases a <;> rw [heq]
    · refine queues_subset_of (fun tr htr => ?_) fun tr h => ?_
      · cases htr
        have hnone : client.waiting = [] := by
          simp [OutboundClient.waiting, OutboundClient.outbox_begin hbegin]
        rw [Transport.entry, hnone]
        exact List.mem_cons_self
      · refine hold ?_
        cases h with
        | worker w' hw' htaken => cases hw'; cases htaken
        | control c hc htaken => exact (TakenOut.control (t := t) c hc htaken).entry_mem_queues
        | abandoned h => exact (TakenOut.abandoned (t := t) h).entry_mem_queues
    · exact List.Subset.trans
        (queues_subset_of_worker (t := t) (fun w' hw' => by cases hw'; rfl) rfl rfl rfl) hold
  | takes a held tr hp htr =>
    refine List.Subset.trans (queues_subset_of (fun tr' h => by cases h) fun tr' h => ?_) hold
    cases h with
    | worker w' hw' htaken =>
      cases hw'
      cases htaken
      rw [entry_stop]
      exact entry_mem_queues htr
    | control c hc htaken => exact (TakenOut.control (t := t) c hc htaken).entry_mem_queues
    | abandoned h => exact (TakenOut.abandoned (t := t) h).entry_mem_queues
  | finds a held hp htr | stops a held s hp =>
    refine List.Subset.trans (queues_subset_of_worker (t := t) (fun w' hw' => ?_) rfl rfl rfl)
      hold
    cases hw'
    exact WorkerPhase.taken?_of_free
      (WorkerPhase.holdsLock_of_isIdle (isIdle_afterAttempt w a now held))

/-- **A step of the owner or the worker** takes queues along or drops them. A dial adds an empty
one. -/
theorem Moved.queues_subset (hmoved : Moved t now e t')
    (hnetwork : ∀ generation task s, e ≠ .network generation task s)
    (hsending : ∀ ticket s, e ≠ .sending ticket s) (hsend : ∀ ticket f, e ≠ .send ticket f) :
    t'.queues ⊆ (t.generation + 1, []) :: t.queues := by
  have hold : t.queues ⊆ (t.generation + 1, []) :: t.queues := List.subset_cons_self ..
  cases hmoved with
  | call _ hmoved => exact List.Subset.trans (queues_call hmoved) hold
  | control c hc hmoved => exact List.Subset.trans (queues_control hmoved) hold
  | worker w hw hmoved => exact queues_worker hmoved
  | network _ => exact absurd rfl (hnetwork _ _ _)
  | send _ => exact absurd rfl (hsend _ _)
  | sending _ => exact absurd rfl (hsending _ _)

/-- A new queue is of a generation that no transport had. -/
theorem Distinct.of_subset (hd : t.Distinct) (hkept : t.Kept)
    (h : t'.queues ⊆ (t.generation + 1, []) :: t.queues) : t'.Distinct := by
  have hold {q : List Message} (hq : (t.generation + 1, q) ∈ t.queues) : False :=
    absurd (hkept.fst_le_of_mem_queues hq) (Nat.not_succ_le_self _)
  intro g q q' hq hq'
  obtain heq | hmem := List.mem_cons.mp (h hq) <;>
    obtain heq' | hmem' := List.mem_cons.mp (h hq')
  · cases heq
    cases heq'
    rfl
  · cases heq
    exact (hold hmem').elim
  · cases heq'
    exact (hold hmem).elim
  · exact hd g q q' hmem hmem'

/-! ## Sends -/

/-- The queues of all transports but the installed one. -/
theorem exists_queues_eq_cons {tr : Transport} (htr : t.transport = some tr) :
    ∃ rest, t.queues = tr.entry :: rest ∧ (∀ q ∈ rest, ∃ tr', t.TakenOut tr' ∧ tr'.entry = q) ∧
      ∀ (tr' : Transport) (sends : List PendingSend),
        ({ t with transport := some tr', sends := sends } : Tunnel).queues = tr'.entry :: rest := by
  refine ⟨((t.worker.bind (·.phase.taken?)).toList ++ (t.control.bind (·.phase.taken?)).toList ++
    t.abandoned).map Transport.entry, ?_, fun q hq => ?_, fun tr' sends => ?_⟩
  · unfold queues
    rw [transports_eq, htr]
    simp
  · obtain ⟨tr', htr', rfl⟩ := List.mem_map.mp hq
    refine ⟨tr', ?_, rfl⟩
    simp only [List.mem_append, Option.mem_toList, Option.bind_eq_some_iff] at htr'
    obtain (⟨w, hw, h⟩ | ⟨c, hc, h⟩) | h := htr'
    · exact .worker w hw h
    · exact .control c hc h
    · exact .abandoned h
  · unfold queues
    rw [transports_eq]
    simp

/-- The tunnel after a send has put its payload into the queue of the installed transport. -/
theorem queue_enqueue {tr : Transport} (htr : t.transport = some tr)
    (hq : tr.client.outbox.isSome = true) (m : Message) (sends : List PendingSend) (g : Nat) :
    ({ t with transport := some (tr.enqueue m), sends := sends } : Tunnel).queue g =
      t.queue g ++ if g = tr.generation then [m] else [] := by
  obtain ⟨rest, heq, -, hput⟩ := exists_queues_eq_cons htr
  have hwaiting := OutboundClient.waiting_enqueue hq m
  unfold queue
  rw [heq, hput, List.find?_cons, List.find?_cons]
  by_cases hg : g = tr.generation
  · subst hg
    simpa [Transport.entry, Transport.enqueue] using hwaiting
  · simp [Transport.entry, Transport.enqueue, hg, Ne.symm hg]

theorem Distinct.enqueue (hd : t.Distinct) (hkept : t.Kept) {tr : Transport}
    (htr : t.transport = some tr) (m : Message) (sends : List PendingSend) :
    ({ t with transport := some (tr.enqueue m), sends := sends } : Tunnel).Distinct := by
  obtain ⟨rest, heq, hrest, hput⟩ := exists_queues_eq_cons htr
  have holder {q : List Message} (hq : (tr.generation, q) ∈ rest) : False := by
    obtain ⟨tr', htaken, hentry⟩ := hrest _ hq
    have hlt := hkept.older tr' htaken
    have hg : tr'.generation = tr.generation := congrArg Prod.fst hentry
    rw [hg, hkept.installed tr htr] at hlt
    exact Nat.lt_irrefl _ hlt
  intro g q q' hq hq'
  rw [hput] at hq hq'
  obtain hhead | hmem := List.mem_cons.mp hq <;> obtain hhead' | hmem' := List.mem_cons.mp hq'
  · cases hhead
    cases hhead'
    rfl
  · cases hhead
    exact (holder hmem').elim
  · cases hhead'
    exact (holder hmem).elim
  · refine hd g q q' ?_ ?_ <;> rw [heq]
    · exact List.mem_cons_of_mem _ hmem
    · exact List.mem_cons_of_mem _ hmem'

/-! ## The network -/

theorem mem_queues_putTransport {tr : Transport} {g : Nat} {q : List Message}
    (h : (g, q) ∈ (t.putTransport tr).queues) :
    g = tr.generation ∧ q = tr.client.waiting ∨ g ≠ tr.generation ∧ (g, q) ∈ t.queues := by
  unfold queues at h
  rw [transports_putTransport, List.map_map] at h
  obtain ⟨old, hold, heq⟩ := List.mem_map.mp h
  by_cases hg : old.generation = tr.generation
  · simp only [Function.comp, put, hg, if_true] at heq
    cases heq
    exact .inl ⟨rfl, rfl⟩
  · simp only [Function.comp, put, hg, if_false] at heq
    cases heq
    exact .inr ⟨hg, List.mem_map_of_mem hold⟩

theorem Distinct.putTransport (hd : t.Distinct) (tr : Transport) :
    (t.putTransport tr).Distinct := by
  intro g q q' hq hq'
  obtain ⟨hg, rfl⟩ | ⟨hg, hmem⟩ := mem_queues_putTransport hq <;>
    obtain ⟨hg', rfl⟩ | ⟨hg', hmem'⟩ := mem_queues_putTransport hq'
  · rfl
  · exact absurd hg hg'
  · exact absurd hg' hg
  · exact hd g q q' hmem hmem'

/-- A client that has taken a step has what is left of its queue. -/
theorem Distinct.shrinks_putTransport (hd : t.Distinct) {tr : Transport}
    (htr : tr ∈ t.transports) {client : OutboundClient}
    (h : client.waiting <:+ tr.client.waiting) :
    Shrinks t (t.putTransport { tr with client := client }) := by
  intro g q hq
  obtain ⟨rfl, rfl⟩ | ⟨-, hmem⟩ := mem_queues_putTransport hq
  · have hold : (tr.generation, tr.client.waiting) ∈ t.queues := List.mem_map_of_mem htr
    rw [queue_eq_of_mem hd hold]
    exact h
  · obtain rfl := queue_eq_of_mem hd hmem
    exact List.suffix_rfl

end Tunnel

end DeviceRelay
