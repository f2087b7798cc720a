import DeviceRelay.Proofs.Tunnel.Generations
import DeviceRelay.Proofs.Tunnel.Queues

/-!
# What becomes of a payload

A send looks at the tunnel before it has the transport lock, and the tunnel may be configured anew,
disabled or lose its session between any two of its steps. Still its payload is in a queue if and
only if the send ended well: the step that ends it well puts the payload behind what waits for the
transport that is installed then, and no other step of it touches a queue.

* `Tunnel.SendMoved.queue`: the queues after a step of a send.
* `Watched.puts`, `Watched.putsBy`: what a move, or a send in a run, puts into the queues.
* `Watched.Outcome`: what a send can come to.
* `Watched.sends_accounted`: the theorem on sends.
-/

namespace DeviceRelay

namespace Tunnel

variable {t t' : Tunnel} {now : Duration} {e : TunnelEvent}

/-! ## Steps of sends -/

/-- What a step of a send puts into the queue of a generation: its payload, where it ends the send
well and the transport of that generation is installed. -/
def putBy (t : Tunnel) (f : Frame) (result : SendResult) (generation : Nat) : List Message :=
  match result with
  | some (.ok ()) =>
    if t.transport.map Transport.generation = some generation then [.data f] else []
  | _ => []

/-- **The queues after a step of a send.** -/
theorem SendMoved.queue {p : PendingSend} {result : SendResult} (h : SendMoved t p result t')
    (generation : Nat) :
    t'.queue generation = t.queue generation ++ t.putBy p.frame result generation := by
  cases h with
  | queues tr htr hq =>
    rw [dropSend, queue_enqueue htr hq]
    simp only [putBy, htr, Option.map_some, Option.some.injEq, eq_comm]
  | fails err => exact (List.append_nil _).symm
  | waits giveUpAt htr => exact (List.append_nil _).symm

theorem SendMoved.distinct {p : PendingSend} {result : SendResult} (h : SendMoved t p result t')
    (hd : t.Distinct) (hkept : t.Kept) : t'.Distinct := by
  cases h with
  | queues tr htr hq => exact hd.enqueue hkept htr _ _
  | fails err => exact hd
  | waits giveUpAt htr => exact hd

/-- A send that has ended does not wait any more. -/
theorem SendMoved.gone {p : PendingSend} {result : Except TunnelError Unit}
    (h : SendMoved t p (some result) t') : ∀ s ∈ t'.sends, s.ticket ≠ p.ticket := by
  cases h with
  | queues tr htr hq => exact fun s hs => by simpa using (List.mem_filter.mp hs).2
  | fails err => exact fun s hs => by simpa using (List.mem_filter.mp hs).2

/-- A step of a send keeps what waits under other tickets as it is. -/
theorem SendMoved.exists_of_mem {p : PendingSend} {result : SendResult}
    (h : SendMoved t p result t') :
    ∀ s' ∈ t'.sends, ∃ s ∈ t.sends, s.ticket = s'.ticket ∧ s.frame = s'.frame ∧
      (s'.ticket ≠ p.ticket → s' = s) := by
  intro s' hs'
  cases h with
  | queues tr htr hq => exact ⟨s', (List.mem_filter.mp hs').1, rfl, rfl, fun _ => rfl⟩
  | fails err => exact ⟨s', (List.mem_filter.mp hs').1, rfl, rfl, fun _ => rfl⟩
  | waits giveUpAt htr =>
    obtain ⟨s, hs, rfl⟩ := List.mem_map.mp hs'
    refine ⟨s, hs, ?_⟩
    split
    · rename_i hown
      exact ⟨rfl, rfl, fun hne => absurd hown hne⟩
    · exact ⟨rfl, rfl, fun _ => rfl⟩

/-! ## Other steps -/

theorem sends_spawnWorker (t : Tunnel) : t.spawnWorker.sends = t.sends := by
  obtain ⟨w, -, heq⟩ | ⟨w', -, -, heq⟩ := t.spawnWorker_cases <;> rw [heq]

theorem sends_startStopping (t : Tunnel) (restarts : Bool) (now : Duration) :
    (t.startStopping restarts now).sends = t.sends := by
  obtain ⟨-, heq⟩ | ⟨w, -, heq⟩ := t.startStopping_cases restarts now <;> rw [heq]

theorem sends_finishControl (t : Tunnel) (c : ControlTask) :
    (t.finishControl c).sends = t.sends := by
  obtain ⟨worker, heq⟩ := finishControl_cases t c
  rw [heq]

theorem sends_install (t : Tunnel) (a : Attempt) : (t.install a).1.sends = t.sends := by
  obtain ⟨client, -, heq⟩ | heq := t.install_cases a <;> rw [heq] <;> rfl

/-- The owner and the worker leave the sends alone. -/
theorem Moved.sends (h : Moved t now e t')
    (hnetwork : ∀ generation task s, e ≠ .network generation task s)
    (hsending : ∀ ticket s, e ≠ .sending ticket s) (hsend : ∀ ticket f, e ≠ .send ticket f) :
    t'.sends = t.sends := by
  cases h with
  | call _ h =>
    cases h with
    | sets => rfl
    | spawns hc hon => exact sends_spawnWorker _
    | stops restarts hc hr => exact sends_startStopping _ restarts now
  | control c _ h =>
    cases h with
    | joins | aborts | takes => rfl
    | finds | stops => exact sends_finishControl _ c
  | worker w _ h =>
    cases h with
    | dials a _ _ => exact sends_install t a
    | waits | takes | finds | stops => rfl
  | network _ => exact absurd rfl (hnetwork _ _ _)
  | send _ => exact absurd rfl (hsend _ _)
  | sending _ => exact absurd rfl (hsending _ _)

/-- Only a step of a send shows a result of it. -/
theorem sent_mem_seen {seen : List TunnelEffect} (h : t.step now e = some (t', seen))
    {ticket : Nat} {result : Except TunnelError Unit} (hmem : .sent ticket result ∈ seen) :
    (∃ f, e = .send ticket f) ∨ ∃ s, e = .sending ticket s := by
  cases e with
  | configure baseUrl deviceId authToken tunnelKey =>
    obtain ⟨after, -, heq⟩ := Option.bind_eq_some_iff.mp h
    cases heq
    simp at hmem
  | setTiming autoReconnect reconnectDelay pingInterval =>
    cases h
    simp at hmem
  | setEnabled | control | worker =>
    obtain ⟨after, -, heq⟩ := Option.map_eq_some_iff.mp h
    cases heq
    simp at hmem
  | network generation task s =>
    obtain ⟨after, -, heq⟩ := Option.bind_eq_some_iff.mp h
    cases heq
    simp at hmem
  | send k f =>
    obtain ⟨err, -, rfl⟩ | ⟨phase, -, rfl⟩ := step_send_cases h
    · simp only [List.mem_singleton, TunnelEffect.sent.injEq] at hmem
      exact .inl ⟨f, by rw [hmem.1]⟩
    · cases hmem
  | sending k s =>
    obtain ⟨p, -, -, result', -, rfl⟩ := step_sending_cases h
    obtain ⟨r, -, heq⟩ := List.mem_map.mp hmem
    cases heq
    exact .inr ⟨s, rfl⟩

end Tunnel

namespace Watched

variable {w : Watched} {m : Move} {ticket : Nat}

/-! ## Queues -/

/-- Whether a move is a step of the send with this ticket. -/
def isSendOf (ticket : Nat) : Move → Bool
  | .event _ (.send k _) => k = ticket
  | .event _ (.sending k _) => k = ticket
  | _ => false

theorem isSendOf_cases (hm : isSendOf ticket m = true) :
    (∃ now f, m = .event now (.send ticket f)) ∨ ∃ now s, m = .event now (.sending ticket s) := by
  unfold isSendOf at hm
  split at hm
  case h_1 now k f => exact .inl ⟨now, f, by rw [of_decide_eq_true hm]⟩
  case h_2 now k s => exact .inr ⟨now, s, by rw [of_decide_eq_true hm]⟩
  case h_3 => cases hm

/-- What a move puts into the queue of a generation: what lies there behind as many messages as
there were. -/
def puts (w : Watched) (m : Move) (generation : Nat) : List Message :=
  ((w.next m).tunnel.queue generation).drop (w.tunnel.queue generation).length

theorem puts_eq {messages : Nat → List Message} (h : ∀ generation,
    (w.next m).tunnel.queue generation = w.tunnel.queue generation ++ messages generation) :
    w.puts m = messages := by
  funext generation
  rw [puts, h, List.drop_left]

theorem puts_eq_nil (h : ∀ generation,
    (w.next m).tunnel.queue generation = w.tunnel.queue generation) :
    w.puts m = fun _ => [] :=
  puts_eq fun generation => (h generation).trans (List.append_nil _).symm

theorem distinct_new (label : String) (options : TunnelOptions) :
    (new label options).tunnel.Distinct :=
  fun _ _ _ h => by cases h

/-- What a move that is no step of a send does to the queues. -/
theorem Sound.next_queues (h : w.Sound) (hd : w.tunnel.Distinct)
    (hm : ∀ ticket, isSendOf ticket m = false) :
    (w.next m).tunnel.Distinct ∧ Tunnel.Shrinks w.tunnel (w.next m).tunnel := by
  have hsame : Tunnel.Shrinks w.tunnel w.tunnel :=
    hd.shrinks (List.subset_cons_self (0, []) w.tunnel.queues)
  have hchanged := h.changed m
  generalize (w.next m).tunnel = t at hchanged ⊢
  cases hchanged with
  | stays => exact ⟨hd, hsame⟩
  | @steps now e t seen he hstep =>
    have hsending : ∀ ticket s, e ≠ .sending ticket s := by
      rintro ticket s rfl
      simpa [isSendOf] using hm ticket
    have hsend : ∀ ticket f, e ≠ .send ticket f := by
      rintro ticket f rfl
      simpa [isSendOf] using hm ticket
    have hsubset := (Tunnel.step_cases hstep).queues_subset he hsending hsend
    exact ⟨hd.of_subset h.kept hsubset, hd.shrinks hsubset⟩
  | client hfind hstep =>
    exact ⟨hd.putTransport _, hd.shrinks_putTransport (List.mem_of_find?_eq_some hfind)
      (OutboundClient.waiting_taskStep hstep)⟩
  | hears htr state uiConnected record => exact ⟨hd, hsame⟩

/-- The start of a send moves nothing but sends. -/
theorem next_send (w : Watched) (now : Duration) (ticket : Nat) (f : Frame) :
    ∃ sends, (w.next (.event now (.send ticket f))).tunnel = { w.tunnel with sends := sends } := by
  cases hstep : w.tunnel.step now (.send ticket f) with
  | none =>
    rw [next_of_step_eq_none (fun _ _ _ => by simp) hstep]
    exact ⟨w.tunnel.sends, rfl⟩
  | some after =>
    obtain ⟨t, seen⟩ := after
    rw [next_of_step (fun _ _ _ => by simp) hstep]
    obtain ⟨err, rfl, -⟩ | ⟨phase, rfl, -⟩ := Tunnel.step_send_cases hstep
    · exact ⟨w.tunnel.sends, rfl⟩
    · exact ⟨_, rfl⟩

theorem puts_send (w : Watched) (now : Duration) (ticket : Nat) (f : Frame) :
    w.puts (.event now (.send ticket f)) = fun _ => [] := by
  obtain ⟨sends, heq⟩ := w.next_send now ticket f
  exact puts_eq_nil fun generation => by rw [heq]; rfl

/-- What a step of a send does to the queues: it puts the payload into one of them, or nothing into
any. -/
theorem Sound.next_queues_send (h : w.Sound) (hd : w.tunnel.Distinct)
    (hm : isSendOf ticket m = true) :
    (w.next m).tunnel.Distinct ∧ ∃ f result, ∀ generation, (w.next m).tunnel.queue generation =
      w.tunnel.queue generation ++ w.tunnel.putBy f result generation := by
  obtain ⟨now, f, rfl⟩ | ⟨now, s, rfl⟩ := isSendOf_cases hm
  · obtain ⟨sends, heq⟩ := w.next_send now ticket f
    rw [heq]
    exact ⟨hd, f, none, fun generation => (List.append_nil _).symm⟩
  · cases hstep : w.tunnel.step now (.sending ticket s) with
    | none =>
      rw [next_of_step_eq_none (fun _ _ _ => by simp) hstep]
      exact ⟨hd, .text "", none, fun generation => (List.append_nil _).symm⟩
    | some after =>
      obtain ⟨t, seen⟩ := after
      rw [next_of_step (fun _ _ _ => by simp) hstep]
      obtain ⟨p, -, -, result, hmoved, -⟩ := Tunnel.step_sending_cases hstep
      exact ⟨hmoved.distinct hd h.kept, p.frame, result, hmoved.queue⟩

theorem Sound.next_distinct (h : w.Sound) (hd : w.tunnel.Distinct) (m : Move) :
    (w.next m).tunnel.Distinct := by
  by_cases hm : ∃ ticket, isSendOf ticket m = true
  · obtain ⟨ticket, hm⟩ := hm
    exact (h.next_queues_send hd hm).1
  · exact (h.next_queues hd fun ticket => by simpa using fun hsend => hm ⟨ticket, hsend⟩).1

theorem Sound.run_distinct (h : w.Sound) (hd : w.tunnel.Distinct) (moves : List Move) :
    (w.run moves).tunnel.Distinct := by
  induction moves generalizing w with
  | nil => exact hd
  | cons m moves ih => exact ih (h.next m) (h.next_distinct hd m)

/-- **A step of a send** adds to the queues what it puts there, and leaves them otherwise. -/
theorem Sound.queue_next_send (h : w.Sound) (hd : w.tunnel.Distinct)
    (hm : isSendOf ticket m = true) (generation : Nat) :
    (w.next m).tunnel.queue generation =
      w.tunnel.queue generation ++ w.puts m generation := by
  obtain ⟨-, f, result, hqueue⟩ := h.next_queues_send hd hm
  rw [puts_eq hqueue]
  exact hqueue generation

/-- Into the queue of a transport that is not installed nothing is put. -/
theorem Sound.queue_next_of_ne (h : w.Sound) (hd : w.tunnel.Distinct) {generation : Nat}
    (hne : w.tunnel.transport.map Transport.generation ≠ some generation) (m : Move) :
    (w.next m).tunnel.queue generation <:+ w.tunnel.queue generation := by
  by_cases hm : ∃ ticket, isSendOf ticket m = true
  · obtain ⟨ticket, hm⟩ := hm
    obtain ⟨-, f, result, hqueue⟩ := h.next_queues_send hd hm
    have hnil : w.tunnel.putBy f result generation = [] := by
      unfold Tunnel.putBy
      split
      · exact if_neg hne
      · rfl
    have hsame : (w.next m).tunnel.queue generation = w.tunnel.queue generation := by
      rw [hqueue, hnil, List.append_nil]
    exact hsame ▸ List.suffix_rfl
  · exact (h.next_queues hd fun ticket => by simpa using fun hsend => hm ⟨ticket, hsend⟩).2.queue
      generation

/-- **Once a transport was taken out**, nothing is put into its queue. -/
theorem Sound.queue_run_of_lt (h : w.Sound) (hd : w.tunnel.Distinct) {generation : Nat}
    (hlt : generation < w.tunnel.generation) (moves : List Move) :
    (w.run moves).tunnel.queue generation <:+ w.tunnel.queue generation := by
  induction moves generalizing w with
  | nil => exact List.suffix_rfl
  | cons m moves ih =>
    have hle := h.generation_le_run [m]
    have hne : w.tunnel.transport.map Transport.generation ≠ some generation := by
      intro heq
      obtain ⟨tr, htr, rfl⟩ := Option.map_eq_some_iff.mp heq
      exact Nat.ne_of_lt hlt (h.kept.installed tr htr)
    exact (ih (h.next m) (h.next_distinct hd m) (Nat.lt_of_lt_of_le hlt hle)).trans
      (h.queue_next_of_ne hd hne m)

/-! ## The course of a send -/

/-- The results of a send that a move shows. -/
def returns (w : Watched) (ticket : Nat) : Move → List (Except TunnelError Unit)
  | .event now e =>
    match w.tunnel.step now e with
    | none => []
    | some (_, seen) => seen.filterMap fun
      | .sent k result => if k = ticket then some result else none
      | _ => none
  | .callback _ _ => []

/-- The results of a send that a run shows, each with the generation of the transport that is
installed at that moment. -/
def results (w : Watched) (ticket : Nat) : List Move → List (Option Nat × Except TunnelError Unit)
  | [] => []
  | m :: moves =>
    (w.returns ticket m).map (w.tunnel.transport.map Transport.generation, ·) ++
      (w.next m).results ticket moves

/-- What the steps of a send put into the queue of a generation in a run. -/
def putsBy (w : Watched) (ticket : Nat) : List Move → Nat → List Message
  | [], _ => []
  | m :: moves, generation =>
    (if isSendOf ticket m then w.puts m generation else []) ++
      (w.next m).putsBy ticket moves generation

/-- What a send of a frame can come to: its results, and what it puts into the queues. -/
inductive Outcome (f : Frame) : List (Option Nat × Except TunnelError Unit) →
    (Nat → List Message) → Prop where
  | waits : Outcome f [] fun _ => []
  | fails (installed : Option Nat) (err : TunnelError) :
      Outcome f [(installed, .error err)] fun _ => []
  | queued (generation : Nat) :
      Outcome f [(some generation, .ok ())] fun g => if g = generation then [.data f] else []

theorem returns_of_step {now : Duration} {e : TunnelEvent} {t : Tunnel}
    (seen : List (Except TunnelError Unit))
    (h : w.tunnel.step now e = some (t, seen.map (.sent ticket))) :
    w.returns ticket (.event now e) = seen := by
  simp [returns, h, List.filterMap_map]

/-- Only a step of a send shows a result of it. -/
theorem returns_of_not_isSendOf (hm : isSendOf ticket m = false) : w.returns ticket m = [] := by
  unfold returns
  split
  case h_1 now e =>
    split
    · rfl
    · rename_i t seen hstep
      refine List.filterMap_eq_nil_iff.mpr fun effect hmem => ?_
      cases effect with
      | configured changed => rfl
      | delivered f => rfl
      | sent k result =>
        refine if_neg ?_
        rintro rfl
        obtain ⟨f, rfl⟩ | ⟨s, rfl⟩ := Tunnel.sent_mem_seen hstep hmem <;> simp [isSendOf] at hm
  case h_2 => rfl

/-- A send that waits after a move had waited before, and in the same way if the move is no step of
it, or was begun by the move. -/
theorem Sound.exists_of_mem_sends (h : w.Sound) (m : Move) :
    ∀ s' ∈ (w.next m).tunnel.sends,
      (∃ s ∈ w.tunnel.sends, s.ticket = s'.ticket ∧ s.frame = s'.frame ∧
        (isSendOf s'.ticket m = false → s' = s)) ∨
        ∃ now, m = .event now (.send s'.ticket s'.frame) := by
  intro s' hs'
  have hchanged := h.changed m
  generalize (w.next m).tunnel = t at hchanged hs'
  cases hchanged with
  | stays | client | hears => exact .inl ⟨s', hs', rfl, rfl, fun _ => rfl⟩
  | @steps now e t seen he hstep =>
    cases e with
    | send k f =>
      obtain ⟨err, rfl, -⟩ | ⟨phase, rfl, -⟩ := Tunnel.step_send_cases hstep
      · exact .inl ⟨s', hs', rfl, rfl, fun _ => rfl⟩
      · obtain hs' | hs' := List.mem_append.mp hs'
        · exact .inl ⟨s', hs', rfl, rfl, fun _ => rfl⟩
        · rw [List.mem_singleton.mp hs']
          exact .inr ⟨now, rfl⟩
    | sending k s =>
      obtain ⟨p, -, rfl, result, hmoved, -⟩ := Tunnel.step_sending_cases hstep
      obtain ⟨s₀, hs₀, hticket, hframe, hsame⟩ := hmoved.exists_of_mem s' hs'
      refine .inl ⟨s₀, hs₀, hticket, hframe, fun hother => hsame fun hown => ?_⟩
      simp [isSendOf, hown] at hother
    | network generation task s => exact absurd rfl (he _ _ _)
    | configure | setTiming | setEnabled | control | worker =>
      rw [(Tunnel.step_cases hstep).sends he (fun _ _ => by simp) (fun _ _ => by simp)] at hs'
      exact .inl ⟨s', hs', rfl, rfl, fun _ => rfl⟩

/-- The frame that a send carries, in all that waits under its ticket. -/
def Carries (t : Tunnel) (ticket : Nat) (f : Frame) : Prop :=
  ∀ s ∈ t.sends, s.ticket = ticket → s.frame = f

/-- No send waits under a ticket. -/
def Idle (t : Tunnel) (ticket : Nat) : Prop := ∀ s ∈ t.sends, s.ticket ≠ ticket

theorem Sound.next_carries (h : w.Sound) {f : Frame} (hw : Carries w.tunnel ticket f)
    (hm : ∀ now f, m ≠ .event now (.send ticket f)) : Carries (w.next m).tunnel ticket f := by
  intro s' hs' hticket
  obtain ⟨s, hs, hsame, hframe, -⟩ | ⟨now, heq⟩ := h.exists_of_mem_sends m s' hs'
  · rw [← hframe]
    exact hw s hs (hsame.trans hticket)
  · rw [hticket] at heq
    exact absurd heq (hm now s'.frame)

theorem Sound.next_idle (h : w.Sound) (hw : Idle w.tunnel ticket)
    (hm : ∀ now f, m ≠ .event now (.send ticket f)) : Idle (w.next m).tunnel ticket := by
  rintro s' hs' rfl
  obtain ⟨s, hs, hsame, -⟩ | ⟨now, heq⟩ := h.exists_of_mem_sends m s' hs'
  · exact hw s hs hsame
  · exact hm now s'.frame heq

/-- A later step of a send shows nothing, or ends the send: with an error, or with its payload in
the queue of the transport that is installed. -/
theorem next_sending_cases {f : Frame} (hw : Carries w.tunnel ticket f)
    (now : Duration) (s : Tunnel.SendStep) :
    let m : Move := .event now (.sending ticket s)
    (w.returns ticket m = [] ∧ w.puts m = fun _ => []) ∨
    (∃ err, w.returns ticket m = [.error err] ∧ (w.puts m = fun _ => []) ∧
      Idle (w.next m).tunnel ticket) ∨
    ∃ generation, w.tunnel.transport.map Transport.generation = some generation ∧
      w.returns ticket m = [.ok ()] ∧
      (w.puts m = fun g => if g = generation then [.data f] else []) ∧
      Idle (w.next m).tunnel ticket := by
  intro m
  cases hstep : w.tunnel.step now (.sending ticket s) with
  | none =>
    have hnext : w.next m = w := next_of_step_eq_none (fun _ _ _ => by simp) hstep
    exact .inl ⟨by simp [m, returns, hstep], puts_eq_nil fun _ => by rw [hnext]⟩
  | some after =>
    obtain ⟨t, seen⟩ := after
    have hnext : w.next m = { w with tunnel := t } := next_of_step (fun _ _ _ => by simp) hstep
    obtain ⟨p, hmem, hticket, result, hmoved, rfl⟩ := Tunnel.step_sending_cases hstep
    have hframe : p.frame = f := hw p hmem hticket
    have hreturns : w.returns ticket m = result.toList := returns_of_step result.toList hstep
    have hputs : w.puts m = w.tunnel.putBy p.frame result :=
      puts_eq fun generation => by rw [hnext]; exact hmoved.queue generation
    have hidle : ∀ r, result = some r → Idle t p.ticket := by
      rintro r rfl
      exact hmoved.gone
    rw [hnext, hreturns, hputs, hframe, ← hticket]
    cases hmoved with
    | queues tr htr hq =>
      refine .inr (.inr ⟨tr.generation, by rw [htr]; rfl, rfl, ?_, hidle _ rfl⟩)
      funext g
      simp [Tunnel.putBy, htr, eq_comm]
    | fails err => exact .inr (.inl ⟨err, rfl, rfl, hidle _ rfl⟩)
    | waits giveUpAt htr => exact .inl ⟨rfl, rfl⟩

theorem results_cons_of_nil (hreturns : w.returns ticket m = []) (moves : List Move) :
    w.results ticket (m :: moves) = (w.next m).results ticket moves := by
  rw [results, hreturns]
  rfl

theorem putsBy_cons_of_nil (hputs : isSendOf ticket m = true → w.puts m = fun _ => [])
    (moves : List Move) :
    w.putsBy ticket (m :: moves) = (w.next m).putsBy ticket moves := by
  funext generation
  rw [putsBy]
  split
  · rename_i hown
    rw [hputs hown]
    rfl
  · rfl

/-- A send that has ended shows no other result, and puts nothing anywhere. -/
theorem Sound.results_of_idle (h : w.Sound) (hw : Idle w.tunnel ticket) {moves : List Move}
    (hmoves : ∀ now f, .event now (.send ticket f) ∉ moves) :
    w.results ticket moves = [] ∧ w.putsBy ticket moves = fun _ => [] := by
  induction moves generalizing w with
  | nil => exact ⟨rfl, rfl⟩
  | cons m moves ih =>
    have hm : ∀ now f, m ≠ .event now (.send ticket f) :=
      fun now f heq => hmoves now f (heq ▸ List.mem_cons_self)
    have hstep : w.returns ticket m = [] ∧ (isSendOf ticket m = true → w.puts m = fun _ => []) := by
      by_cases hown : isSendOf ticket m = true
      · obtain ⟨now, f, rfl⟩ | ⟨now, s, rfl⟩ := isSendOf_cases hown
        · exact absurd rfl (hm now f)
        · have hnone : w.tunnel.step now (.sending ticket s) = none := by
            by_contra hsome
            obtain ⟨⟨t, seen⟩, hstep⟩ := Option.ne_none_iff_exists'.mp hsome
            obtain ⟨p, hmem, hticket, -⟩ := Tunnel.step_sending_cases hstep
            exact hw p hmem hticket
          have hnext := next_of_step_eq_none (fun _ _ _ => by simp) hnone
          exact ⟨by simp [returns, hnone], fun _ => puts_eq_nil fun _ => by rw [hnext]⟩
      · rw [Bool.not_eq_true] at hown
        exact ⟨returns_of_not_isSendOf hown, fun htrue => by rw [hown] at htrue; cases htrue⟩
    rw [results_cons_of_nil hstep.1, putsBy_cons_of_nil hstep.2]
    exact ih (h.next m) (h.next_idle hw hm) fun now f hmem =>
      hmoves now f (List.mem_cons_of_mem _ hmem)

/-- **The course of a send** that waits. -/
theorem Sound.outcome_of_carries (h : w.Sound) {f : Frame} (hw : Carries w.tunnel ticket f)
    {moves : List Move} (hmoves : ∀ now f, .event now (.send ticket f) ∉ moves) :
    Outcome f (w.results ticket moves) (w.putsBy ticket moves) := by
  induction moves generalizing w with
  | nil => exact .waits
  | cons m moves ih =>
    have hm : ∀ now f, m ≠ .event now (.send ticket f) :=
      fun now f heq => hmoves now f (heq ▸ List.mem_cons_self)
    have hrest : ∀ now f, .event now (.send ticket f) ∉ moves :=
      fun now f hmem => hmoves now f (List.mem_cons_of_mem _ hmem)
    by_cases hown : isSendOf ticket m = true
    · obtain ⟨now, f, rfl⟩ | ⟨now, s, rfl⟩ := isSendOf_cases hown
      · exact absurd rfl (hm now f)
      · obtain ⟨hreturns, hputs⟩ | ⟨err, hreturns, hputs, hidle⟩ |
          ⟨generation, hinst, hreturns, hputs, hidle⟩ := next_sending_cases hw now s
        · rw [results_cons_of_nil hreturns, putsBy_cons_of_nil fun _ => hputs]
          exact ih (h.next _) (h.next_carries hw hm) hrest
        · obtain ⟨hdone, hnone⟩ := (h.next _).results_of_idle hidle hrest
          rw [putsBy_cons_of_nil fun _ => hputs, hnone, results, hreturns, hdone]
          exact .fails _ err
        · obtain ⟨hdone, hnone⟩ := (h.next _).results_of_idle hidle hrest
          have hputsBy : w.putsBy ticket (.event now (.sending ticket s) :: moves) =
              fun g => if g = generation then [.data f] else [] := by
            funext g
            rw [putsBy, if_pos hown, hputs, hnone, List.append_nil]
          rw [hputsBy, results, hreturns, hdone, hinst]
          exact .queued generation
    · rw [Bool.not_eq_true] at hown
      rw [results_cons_of_nil (returns_of_not_isSendOf hown),
        putsBy_cons_of_nil fun htrue => by rw [hown] at htrue; cases htrue]
      exact ih (h.next m) (h.next_carries hw hm) hrest

/-- **The course of a send**, from its start on. -/
theorem Sound.outcome (h : w.Sound) (hw : Idle w.tunnel ticket) (now : Duration) (f : Frame)
    {moves : List Move} (hmoves : ∀ now f, .event now (.send ticket f) ∉ moves) :
    Outcome f (w.results ticket (.event now (.send ticket f) :: moves))
      (w.putsBy ticket (.event now (.send ticket f) :: moves)) := by
  rw [putsBy_cons_of_nil fun _ => w.puts_send now ticket f]
  cases hstep : w.tunnel.step now (.send ticket f) with
  | none =>
    have hnext := next_of_step_eq_none (fun _ _ _ => by simp) hstep
    obtain ⟨hdone, hnone⟩ := h.results_of_idle hw hmoves
    rw [results_cons_of_nil (by simp [returns, hstep]), hnext, hdone, hnone]
    exact .waits
  | some after =>
    obtain ⟨t, seen⟩ := after
    have hnext := next_of_step (fun _ _ _ => by simp) hstep
    obtain ⟨err, rfl, rfl⟩ | ⟨phase, rfl, rfl⟩ := Tunnel.step_send_cases hstep
    · have hreturns : w.returns ticket (.event now (.send ticket f)) = [.error err] :=
        returns_of_step [.error err] hstep
      obtain ⟨hdone, hnone⟩ := h.results_of_idle hw hmoves
      rw [results, hreturns, hnext, hdone, hnone]
      exact .fails _ err
    · have hreturns : w.returns ticket (.event now (.send ticket f)) = [] :=
        returns_of_step [] hstep
      have hcarries : Carries (w.next (.event now (.send ticket f))).tunnel ticket f := by
        rw [hnext]
        intro s hs hticket
        obtain hs | hs := List.mem_append.mp hs
        · exact absurd hticket (hw s hs)
        · rw [List.mem_singleton.mp hs]
      rw [results_cons_of_nil hreturns]
      exact (h.next _).outcome_of_carries hcarries hmoves

/-- **What becomes of payloads.** In every order of the steps of a tunnel, of its clients and of
their callbacks:

* a move that is no step of a send leaves of each queue the end of what was there, and a step of a
  send adds to each queue what it puts there;
* a send that is begun shows no result and has put nothing anywhere, or one error and has put
  nothing anywhere, or that it went well, and then it has put its payload once, into the queue of
  the transport that was installed when it ended, and nothing else anywhere;
* into the queue of a transport that was taken out nothing is put any more;
* a payload longer than the buffer is refused wherever the tunnel is connected. -/
theorem sends_accounted (label : String) (options : TunnelOptions) (before : List Move) :
    let w := (new label options).run before
    (∀ m, (∀ ticket, isSendOf ticket m = false) → ∀ generation,
      (w.next m).tunnel.queue generation <:+ w.tunnel.queue generation) ∧
    (∀ m ticket, isSendOf ticket m = true → ∀ generation,
      (w.next m).tunnel.queue generation =
        w.tunnel.queue generation ++ w.puts m generation) ∧
    (∀ now ticket f moves, (∀ s ∈ w.tunnel.sends, s.ticket ≠ ticket) →
      (∀ now f, .event now (.send ticket f) ∉ moves) →
      Outcome f (w.results ticket (.event now (.send ticket f) :: moves))
        (w.putsBy ticket (.event now (.send ticket f) :: moves))) ∧
    (∀ tr, w.tunnel.TakenOut tr → ∀ moves,
      (w.run moves).tunnel.queue tr.generation <:+ tr.client.waiting ∧
        ∀ m, (w.run moves).puts m tr.generation = []) ∧
    (∀ now ticket f, (∀ s ∈ w.tunnel.sends, s.ticket ≠ ticket) →
      w.tunnel.isConnected = true → w.tunnel.options.bufferSize < f.length →
      ∃ err, w.tunnel.step now (.send ticket f) = some (w.tunnel, [.sent ticket (.error err)]) ∧
        err = if w.tunnel.enabled then
          .payloadTooLarge f.length w.tunnel.options.bufferSize else .invalidState) := by
  intro w
  have h : w.Sound := (sound_new label options).run before
  have hd : w.tunnel.Distinct :=
    (sound_new label options).run_distinct (distinct_new label options) before
  refine ⟨fun m hm generation => (h.next_queues hd hm).2.queue generation,
    fun m ticket hm generation => h.queue_next_send hd hm generation,
    fun now ticket f moves hfresh hmoves => h.outcome hfresh now f hmoves,
    fun tr htaken moves => ?_, fun now ticket f hfresh hup hlong => ?_⟩
  · have hlt := h.kept.older tr htaken
    have hqueue := h.queue_run_of_lt hd hlt moves
    rw [Tunnel.queue_eq_of_mem hd htaken.entry_mem_queues] at hqueue
    refine ⟨hqueue, fun m => ?_⟩
    have hlt' := Nat.lt_of_lt_of_le hlt (h.generation_le_run moves)
    have hlen := ((h.run moves).queue_run_of_lt (h.run_distinct hd moves) hlt' [m]).length_le
    exact List.drop_eq_nil_of_le hlen
  · refine ⟨_, ?_, rfl⟩
    have hany : (w.tunnel.sends.any fun s => s.ticket = ticket) = false := by
      simpa [List.any_eq_false] using hfresh
    cases hon : w.tunnel.enabled <;>
      simp [Tunnel.step, hany, Tunnel.startSend, Tunnel.checkSendable, hon, hup, hlong]

/-- A text that is sent before the tunnel is disabled, and one whose turn comes after the transport
was taken out. -/
theorem sends_accounted_disabled :
    let before : List Move :=
      [.event .zero (.configure "wss://broker.example" "pier-1" "" "ws_control"),
       .event .zero (.setEnabled true), .event .zero (.worker .look),
       .event .zero (.worker (.passed true)), .event .zero (.worker .locked),
       .event .zero (.network 1 0 .start), .event .zero (.network 1 0 .dialed), .callback .zero 1,
       .event .zero (.send 8 (.text "late"))]
    let start : Move := .event .zero (.send 7 (.text "hello"))
    let moves : List Move :=
      [.event .zero (.sending 7 .locked), .event .zero (.setEnabled false),
       .event .zero (.worker .stopped), .event .zero (.worker .locked),
       .event (.ofSeconds 3) (.control .aborted), .event (.ofSeconds 3) (.sending 8 .locked)]
    let w := (new "/ws/control" .usual).run before
    (∀ s ∈ w.tunnel.sends, s.ticket ≠ 7) ∧
      Outcome (.text "hello") (w.results 7 (start :: moves)) (w.putsBy 7 (start :: moves)) ∧
      (w.putsBy 7 (start :: moves) 1 = [.data (.text "hello")]) ∧
      (w.run (start :: moves)).tunnel.queue 1 = [.data (.text "hello")] ∧
      w.putsBy 8 (start :: moves) 1 = [] := by
  dsimp only
  refine ⟨by decide +kernel, ?_, by decide +kernel, by decide +kernel, by decide +kernel⟩
  exact (sends_accounted "/ws/control" .usual _).2.2.1 .zero 7 (.text "hello") _
    (by decide +kernel) (by simp)

end Watched

end DeviceRelay
