import DeviceRelay.Proofs.Tunnel.Deliveries

/-!
# How a text gets through a tunnel

A text waits for the transport lock and then for room in the queue. It gets into the queue if the
transport that is installed takes it at one of its tries: when it gets the lock, or when it looks at
the queue again. It is lost if it is refused at once, if one of its tries finds no session, or when
one of its two waits is over.

* `Tunnel.Admits`: a transport takes a frame.
* `Watched.Taken`: at one of the tries of a send, a transport takes its frame.
* `Watched.Lost`: why a frame is lost.
* `Watched.Sound.text_outcome`: a text is taken and queued once, or is lost, or waits.
-/

namespace DeviceRelay

/-- A transport has a session for a frame: it is connected, the frame is not too long for it, and
its queue is open. -/
structure Transport.Serves (tr : Transport) (f : Frame) (q : BoundedQueue Message) : Prop where
  connected : tr.client.isConnected = true
  fits : f.length ≤ tr.client.bufferSize
  outbox : tr.client.outbox = some q
  isOpen : q.isOpen = true

/-- Where a text waits after a try that found no room. -/
def SendPhase.afterTry (phase : SendPhase) (now : Duration) : SendPhase :=
  match phase with
  | .locking _ => .queueing (now.add Tunnel.roomWait)
  | .queueing giveUpAt => .queueing giveUpAt

namespace Tunnel

variable {t t' : Tunnel} {f : Frame} {now : Duration}

/-- The transport that is installed has a session for a frame, with room in its queue or without. -/
def HasSession (t : Tunnel) (f : Frame) : Prop :=
  ∃ tr q, t.transport = some tr ∧ tr.Serves f q

/-- The transport of a generation is installed and takes a frame. -/
def Admits (t : Tunnel) (f : Frame) (generation : Nat) : Prop :=
  ∃ tr q, t.transport = some tr ∧ tr.generation = generation ∧ tr.Serves f q ∧ q.hasRoom = true

theorem Admits.unique {generation generation' : Nat} (h : t.Admits f generation)
    (h' : t.Admits f generation') : generation' = generation := by
  obtain ⟨tr, -, htr, rfl, -⟩ := h
  obtain ⟨tr', -, htr', rfl, -⟩ := h'
  cases htr.symm.trans htr'
  rfl

theorem Admits.installed {generation : Nat} (h : t.Admits f generation) :
    t.transport.map Transport.generation = some generation := by
  obtain ⟨tr, -, htr, rfl, -⟩ := h
  rw [htr, Option.map_some]

/-! ## One try -/

/-- What the queue of a session says to an offer. -/
theorem offer_of_serves {tr : Transport} {q : BoundedQueue Message} (htr : t.transport = some tr)
    (h : tr.Serves f q) :
    (t.offer f).1 = .ok (if q.hasRoom then .queued else .full) := by
  have hsubmit := OutboundClient.submit_of_outbox (m := .data f) h.connected h.fits h.outbox
  unfold offer
  simp only [htr, hsubmit]
  unfold BoundedQueue.push
  rw [h.isOpen]
  cases q.hasRoom <;> rfl

/-- Without a session an offer fails. -/
theorem offer_of_not_hasSession (h : ¬ t.HasSession f) :
    (t.offer f).1 ≠ .ok .full ∧ ∃ e, offerResult (t.offer f).1 = .error e := by
  unfold offer
  cases htr : t.transport with
  | none => exact ⟨nofun, _, rfl⟩
  | some tr =>
    by_cases hup : tr.client.isConnected = true ∧ f.length ≤ tr.client.bufferSize ∧
        tr.client.outbox.isSome = true
    · obtain ⟨hconnected, hfits, hsome⟩ := hup
      obtain ⟨q, hq⟩ := Option.isSome_iff_exists.mp hsome
      have hclosed : q.isOpen = false :=
        eq_false_of_ne_true fun hopen => h ⟨tr, q, htr, hconnected, hfits, hq, hopen⟩
      simp only [OutboundClient.submit_of_outbox hconnected hfits hq]
      unfold BoundedQueue.push
      rw [hclosed]
      exact ⟨nofun, _, rfl⟩
    · obtain ⟨err, hsubmit⟩ := OutboundClient.submit_refused (m := .data f) hup
      simp only [hsubmit]
      exact ⟨nofun, _, rfl⟩

/-- A send offers its frame: it gets the lock, or looks at the queue again. -/
def SendStep.isTry : SendStep → Bool
  | .locked | .retried => true
  | .lockGivenUp | .roomGivenUp => false

/-- All that a later step of a text can do. -/
inductive TextMoved (t : Tunnel) (p : PendingSend) (now : Duration) :
    SendStep → SendResult → Tunnel → Prop where
  | takes {s : SendStep} {t' : Tunnel} (hs : s.isTry = true) (generation : Nat)
      (h : t.Admits p.frame generation) : TextMoved t p now s (some (.ok ())) t'
  /-- There is a session, but no room in its queue. -/
  | waits {s : SendStep} (hs : s.isTry = true) (hsession : t.HasSession p.frame)
      (hfull : ∀ generation, ¬ t.Admits p.frame generation) :
      TextMoved t p now s none { t with sends := t.sends.map fun u =>
        if u.ticket = p.ticket then { u with phase := p.phase.afterTry now } else u }
  | noSession {s : SendStep} {t' : Tunnel} (hs : s.isTry = true) (h : ¬ t.HasSession p.frame)
      (e : TunnelError) : TextMoved t p now s (some (.error e)) t'
  | lockWaitOver {giveUpAt : Duration} {t' : Tunnel} (hphase : p.phase = .locking giveUpAt)
      (h : giveUpAt ≤ now) : TextMoved t p now .lockGivenUp (some (.error .timeout)) t'
  | roomWaitOver {giveUpAt : Duration} {t' : Tunnel} (hphase : p.phase = .queueing giveUpAt)
      (h : giveUpAt ≤ now) : TextMoved t p now .roomGivenUp (some (.error .timeout)) t'

theorem offerPending_text {p : PendingSend} {text : String} (hp : p.frame = .text text)
    {s : SendStep} (hs : s.isTry = true) {giveUpAt : Duration}
    (hphase : p.phase.afterTry now = .queueing giveUpAt) {result : SendResult}
    (h : t.offerPending p giveUpAt = (result, t')) : TextMoved t p now s result t' := by
  unfold offerPending at h
  by_cases hsession : t.HasSession p.frame
  · obtain ⟨tr, q, htr, hserves⟩ := hsession
    have hoffer := offer_of_serves htr hserves
    obtain ⟨tr', htr', -, heq⟩ | ⟨r, hr, -, heq⟩ := t.offer_cases p.frame
    · rw [heq] at hoffer h
      cases hroom : q.hasRoom with
      | false => simp [hroom] at hoffer
      | true =>
        cases h
        exact .takes hs tr.generation ⟨tr, q, htr, rfl, hserves, hroom⟩
    · rw [heq] at hoffer h
      dsimp only at hoffer
      subst hoffer
      cases hroom : q.hasRoom with
      | true => exact absurd (by rw [hroom]; rfl) hr
      | false =>
        rw [hroom, hp] at h
        cases h
        have hfull : ∀ generation, ¬ t.Admits p.frame generation := by
          rintro generation ⟨tr', q', htr', -, hserves', hroom'⟩
          cases htr.symm.trans htr'
          cases hserves.outbox.symm.trans hserves'.outbox
          rw [hroom] at hroom'
          cases hroom'
        rw [← hphase]
        exact .waits hs ⟨tr, q, htr, hserves⟩ hfull
  · obtain ⟨hne, e, hresult⟩ := offer_of_not_hasSession hsession
    split at h
    · rename_i heq _
      rw [heq] at hne
      exact absurd rfl hne
    · rename_i heq _
      rw [heq] at hresult
      cases h
      rw [hresult]
      exact .noSession hs hsession e

/-- **All that a later step of a text can do**, where nothing else waits under its ticket. -/
theorem sendStep_text {p : PendingSend} {text : String} (hp : p.frame = .text text)
    (hall : ∀ u ∈ t.sends, u.ticket = p.ticket → u = p) {s : SendStep} {result : SendResult}
    (h : t.sendStep p.ticket now s = some (result, t')) : TextMoved t p now s result t' := by
  obtain ⟨u, hfind, h⟩ := Option.bind_eq_some_iff.mp h
  obtain rfl : u = p := hall u (List.mem_of_find?_eq_some hfind)
    (by simpa using List.find?_some hfind)
  split at h
  case h_1 giveUpAt hphase _ =>
    simp only [Option.ite_none_left_eq_some, Option.some.injEq] at h
    exact offerPending_text hp rfl (by rw [hphase]; rfl) h.2
  case h_2 giveUpAt hphase _ =>
    simp only [Option.ite_none_right_eq_some, Option.some.injEq, Prod.mk.injEq] at h
    obtain ⟨hle, rfl, rfl⟩ := h
    exact .lockWaitOver hphase hle
  case h_3 giveUpAt hphase _ =>
    split at h
    · rename_i hgone
      cases h
      refine .noSession rfl ?_ .closed
      rintro ⟨tr, q, htr, hserves⟩
      simp [htr, hserves.outbox] at hgone
    · exact offerPending_text hp rfl (by rw [hphase]; rfl) (Option.some.inj h)
  case h_4 giveUpAt hphase _ =>
    simp only [Option.ite_none_right_eq_some, Option.some.injEq, Prod.mk.injEq] at h
    obtain ⟨hle, rfl, rfl⟩ := h
    exact .roomWaitOver hphase hle
  case h_5 => cases h

end Tunnel

namespace Watched

open Tunnel

variable {w : Watched} {m : Move} {ticket : Nat} {f : Frame} {generation : Nat}
  {moves : List Move}

/-! ## What becomes of a frame in a run -/

/-- A move is a try of the send with this ticket. -/
def Tries (w : Watched) (ticket : Nat) : Move → Prop
  | .event now (.sending k s) =>
    k = ticket ∧ s.isTry = true ∧ (w.tunnel.step now (.sending k s)).isSome = true
  | _ => False

theorem Tries.exists_sending (h : w.Tries ticket m) :
    ∃ now s, m = .event now (.sending ticket s) ∧ s.isTry = true ∧
      (w.tunnel.step now (.sending ticket s)).isSome = true := by
  cases m with
  | callback now generation => exact h.elim
  | event now e =>
    cases e with
    | sending k s =>
      obtain ⟨rfl, hs, hstep⟩ := h
      exact ⟨now, s, rfl, hs, hstep⟩
    | _ => exact h.elim

/-- At one of the tries of a send in a run, the transport of a generation takes its frame. -/
def Taken (w : Watched) (ticket : Nat) (f : Frame) (generation : Nat) : List Move → Prop
  | [] => False
  | m :: moves =>
    (w.Tries ticket m ∧ w.tunnel.Admits f generation) ∨
      (w.next m).Taken ticket f generation moves

/-- Why the frame of a send is lost in a run, by where the send waits at first. -/
inductive Lost (ticket : Nat) (f : Frame) :
    SendPhase → Watched → List Move → TunnelError → Prop where
  /-- The tunnel is disabled or down, or the frame is too long for it. -/
  | refused {phase : SendPhase} {w : Watched} {now : Duration} {moves : List Move}
      {e : TunnelError} (h : w.tunnel.checkSendable f.length = .error e) :
      Lost ticket f phase w (.event now (.send ticket f) :: moves) e
  /-- A try finds no session. -/
  | noSession {phase : SendPhase} {w : Watched} {m : Move} {moves : List Move} {e : TunnelError}
      (htries : w.Tries ticket m) (h : ¬ w.tunnel.HasSession f) :
      Lost ticket f phase w (m :: moves) e
  | lockWaitOver {giveUpAt now : Duration} {w : Watched} {moves : List Move}
      (hstep : (w.tunnel.step now (.sending ticket .lockGivenUp)).isSome = true)
      (h : giveUpAt ≤ now) : Lost ticket f (.locking giveUpAt) w
        (.event now (.sending ticket .lockGivenUp) :: moves) .timeout
  | roomWaitOver {giveUpAt now : Duration} {w : Watched} {moves : List Move}
      (hstep : (w.tunnel.step now (.sending ticket .roomGivenUp)).isSome = true)
      (h : giveUpAt ≤ now) : Lost ticket f (.queueing giveUpAt) w
        (.event now (.sending ticket .roomGivenUp) :: moves) .timeout
  /-- A try finds no room, and the frame is lost later. -/
  | afterTry {phase : SendPhase} {w : Watched} {now : Duration} {s : SendStep} {moves : List Move}
      {e : TunnelError} (htries : w.Tries ticket (.event now (.sending ticket s)))
      (hsession : w.tunnel.HasSession f) (hfull : ∀ generation, ¬ w.tunnel.Admits f generation)
      (h : Lost ticket f (phase.afterTry now) (w.next (.event now (.sending ticket s))) moves e) :
      Lost ticket f phase w (.event now (.sending ticket s) :: moves) e
  /-- The move is no try, and the frame is lost later. -/
  | later {phase : SendPhase} {w : Watched} {m : Move} {moves : List Move} {e : TunnelError}
      (hm : ¬ w.Tries ticket m) (h : Lost ticket f phase (w.next m) moves e) :
      Lost ticket f phase w (m :: moves) e

/-- What becomes of the frame of a send in a run, by where the send waits at first: one copy is put
into the queue of the transport that takes it, and none where no transport does. -/
inductive TextOutcome (w : Watched) (ticket : Nat) (f : Frame) (phase : SendPhase)
    (moves : List Move) : Prop where
  | taken (generation : Nat) (htaken : ∀ g, w.Taken ticket f g moves ↔ g = generation)
      (hresults : w.results ticket moves = [(some generation, .ok ())])
      (hputs : w.putsBy ticket moves = fun g => if g = generation then [.data f] else [])
  | lost (installed : Option Nat) (e : TunnelError) (hnever : ∀ g, ¬ w.Taken ticket f g moves)
      (hlost : Lost ticket f phase w moves e)
      (hresults : w.results ticket moves = [(installed, .error e)])
      (hputs : w.putsBy ticket moves = fun _ => [])
  | waits (hnever : ∀ g, ¬ w.Taken ticket f g moves) (hresults : w.results ticket moves = [])
      (hputs : w.putsBy ticket moves = fun _ => [])

/-- A move that leaves the send waiting. -/
theorem TextOutcome.cons {phase phase' : SendPhase}
    (h : (w.next m).TextOutcome ticket f phase' moves) (hreturns : w.returns ticket m = [])
    (hputs : isSendOf ticket m = true → w.puts m = fun _ => [])
    (hnever : ∀ g, ¬ (w.Tries ticket m ∧ w.tunnel.Admits f g))
    (hlost : ∀ {e}, Lost ticket f phase' (w.next m) moves e →
      Lost ticket f phase w (m :: moves) e) :
    w.TextOutcome ticket f phase (m :: moves) := by
  have hiff : ∀ g, w.Taken ticket f g (m :: moves) ↔ (w.next m).Taken ticket f g moves :=
    fun g => or_iff_right (hnever g)
  have hresults := results_cons_of_nil hreturns moves
  have hall := putsBy_cons_of_nil hputs moves
  cases h with
  | taken generation htaken hr hp =>
    exact .taken generation (fun g => (hiff g).trans (htaken g)) (hresults.trans hr) (hall.trans hp)
  | lost installed e hn hl hr hp =>
    exact .lost installed e (fun g => mt (hiff g).mp (hn g)) (hlost hl) (hresults.trans hr)
      (hall.trans hp)
  | waits hn hr hp =>
    exact .waits (fun g => mt (hiff g).mp (hn g)) (hresults.trans hr) (hall.trans hp)

/-! ## A send that has ended -/

theorem not_tries_of_idle (hw : Idle w.tunnel ticket) (m : Move) : ¬ w.Tries ticket m := by
  intro htries
  obtain ⟨now, s, rfl, -, hstep⟩ := htries.exists_sending
  obtain ⟨⟨t, seen⟩, hsome⟩ := Option.isSome_iff_exists.mp hstep
  obtain ⟨p, hmem, hticket, -⟩ := Tunnel.step_sending_cases hsome
  exact hw p hmem hticket

/-- Nothing takes the frame of a send that has ended. -/
theorem Sound.not_taken_of_idle (h : w.Sound) (hw : Idle w.tunnel ticket)
    (hmoves : ∀ now f, .event now (.send ticket f) ∉ moves) :
    ¬ w.Taken ticket f generation moves := by
  induction moves generalizing w with
  | nil => exact id
  | cons m moves ih =>
    have hm : ∀ now f, m ≠ .event now (.send ticket f) :=
      fun now f heq => hmoves now f (heq ▸ List.mem_cons_self)
    rintro (⟨htries, -⟩ | hlater)
    · exact not_tries_of_idle hw m htries
    · exact ih (h.next m) (h.next_idle hw hm)
        (fun now f hmem => hmoves now f (List.mem_cons_of_mem _ hmem)) hlater

/-- The step that ends a send is its last. -/
theorem Sound.ends (h : w.Sound) (hidle : Idle (w.next m).tunnel ticket)
    (hmoves : ∀ now f, .event now (.send ticket f) ∉ moves) {r : Except TunnelError Unit}
    (hreturns : w.returns ticket m = [r]) (hown : isSendOf ticket m = true) :
    w.results ticket (m :: moves) = [(w.tunnel.transport.map Transport.generation, r)] ∧
      w.putsBy ticket (m :: moves) = w.puts m ∧
      ∀ g, w.Taken ticket f g (m :: moves) ↔ w.Tries ticket m ∧ w.tunnel.Admits f g := by
  obtain ⟨hdone, hnone⟩ := (h.next m).results_of_idle hidle hmoves
  refine ⟨by rw [results, hreturns, hdone]; rfl, ?_,
    fun g => or_iff_left ((h.next m).not_taken_of_idle hidle hmoves)⟩
  funext g
  rw [putsBy, if_pos hown, hnone, List.append_nil]

/-! ## A text that waits -/

/-- What waits under the ticket of a send is this. -/
def Awaits (t : Tunnel) (p : PendingSend) : Prop :=
  ∀ s ∈ t.sends, s.ticket = p.ticket → s = p

theorem Sound.next_awaits (h : w.Sound) {p : PendingSend} (hw : Awaits w.tunnel p)
    (hm : isSendOf p.ticket m = false) : Awaits (w.next m).tunnel p := by
  intro s' hs' hticket
  obtain ⟨s, hs, hsame, -, hkept⟩ | ⟨now, rfl⟩ := h.exists_of_mem_sends m s' hs'
  · rw [hticket] at hkept
    rw [hkept hm]
    exact hw s hs (hsame.trans hticket)
  · simp [isSendOf, hticket] at hm

theorem not_tries_of_not_isSendOf (hm : isSendOf ticket m = false) : ¬ w.Tries ticket m := by
  intro htries
  obtain ⟨now, s, rfl, -⟩ := htries.exists_sending
  simp [isSendOf] at hm

/-- What becomes of a text by one of its steps. -/
theorem Sound.text_of_step (h : w.Sound) {text : String} {phase : SendPhase}
    (hw : Awaits w.tunnel ⟨ticket, .text text, phase⟩) {now : Duration} {s : SendStep}
    (hstep : (w.tunnel.step now (.sending ticket s)).isSome = true)
    (hmoves : ∀ now f, .event now (.send ticket f) ∉ moves)
    (ih : ∀ phase', Awaits (w.next (.event now (.sending ticket s))).tunnel
        ⟨ticket, .text text, phase'⟩ →
      (w.next (.event now (.sending ticket s))).TextOutcome ticket (.text text) phase' moves) :
    w.TextOutcome ticket (.text text) phase (.event now (.sending ticket s) :: moves) := by
  have hown : isSendOf ticket (.event now (.sending ticket s)) = true := decide_eq_true rfl
  have htries : s.isTry = true → w.Tries ticket (.event now (.sending ticket s)) :=
    fun hs => ⟨rfl, hs, hstep⟩
  obtain ⟨⟨t, seen⟩, hsome⟩ := Option.isSome_iff_exists.mp hstep
  have hnext := next_of_step (fun _ _ _ => by simp) hsome
  obtain ⟨⟨result, t'⟩, hsend, heq⟩ := Option.bind_eq_some_iff.mp hsome
  cases heq
  obtain ⟨p, hmem, hticket, hmoved⟩ := Tunnel.sendStep_cases hsend
  obtain rfl := hw p hmem hticket
  have htext := Tunnel.sendStep_text rfl hw hsend
  have hreturns : w.returns ticket (.event now (.sending ticket s)) = result.toList :=
    returns_of_step result.toList hsome
  have hputs : w.puts (.event now (.sending ticket s)) = w.tunnel.putBy (.text text) result :=
    puts_eq fun generation => by rw [hnext]; exact hmoved.queue generation
  have hidle : ∀ r, result = some r → Idle (w.next (.event now (.sending ticket s))).tunnel
      ticket := by
    rintro r rfl
    rw [hnext]
    exact hmoved.gone
  cases htext with
  | takes hs generation hadmits =>
    obtain ⟨hresults, hall, htaken⟩ := h.ends (hidle _ rfl) hmoves hreturns hown
    rw [hadmits.installed] at hresults
    rw [hputs] at hall
    refine .taken generation (fun g => (htaken g).trans ⟨fun hg => hadmits.unique hg.2, ?_⟩)
      hresults (hall.trans ?_)
    · rintro rfl
      exact ⟨htries hs, hadmits⟩
    · funext g
      simp [Tunnel.putBy, hadmits.installed, eq_comm]
  | waits hs hsession hfull =>
    have hwaits : Awaits (w.next (.event now (.sending ticket s))).tunnel
        ⟨ticket, .text text, phase.afterTry now⟩ := by
      rw [hnext]
      intro u hu hticket
      obtain ⟨v, hv, rfl⟩ := List.mem_map.mp hu
      by_cases hkey : v.ticket = ticket
      · rw [hw v hv hkey, if_pos rfl]
      · rw [if_neg hkey] at hticket
        exact absurd hticket hkey
    exact (ih _ hwaits).cons hreturns (fun _ => hputs) (fun g hg => hfull g hg.2)
      (.afterTry (htries hs) hsession hfull)
  | noSession hs hno e =>
    obtain ⟨hresults, hall, htaken⟩ := h.ends (hidle _ rfl) hmoves hreturns hown
    refine .lost _ e (fun g hg => ?_) (.noSession (htries hs) hno) hresults (hall.trans hputs)
    obtain ⟨tr, q, htr, -, hserves, -⟩ := ((htaken g).mp hg).2
    exact hno ⟨tr, q, htr, hserves⟩
  | lockWaitOver hphase hle =>
    obtain ⟨hresults, hall, htaken⟩ := h.ends (hidle _ rfl) hmoves hreturns hown
    obtain rfl : phase = _ := hphase
    exact .lost _ .timeout (fun g hg => by cases ((htaken g).mp hg).1.2.1)
      (.lockWaitOver hstep hle) hresults (hall.trans hputs)
  | roomWaitOver hphase hle =>
    obtain ⟨hresults, hall, htaken⟩ := h.ends (hidle _ rfl) hmoves hreturns hown
    obtain rfl : phase = _ := hphase
    exact .lost _ .timeout (fun g hg => by cases ((htaken g).mp hg).1.2.1)
      (.roomWaitOver hstep hle) hresults (hall.trans hputs)

/-- **What becomes of a text that waits.** -/
theorem Sound.text_of_awaits (h : w.Sound) {text : String} {phase : SendPhase}
    (hw : Awaits w.tunnel ⟨ticket, .text text, phase⟩)
    (hmoves : ∀ now f, .event now (.send ticket f) ∉ moves) :
    w.TextOutcome ticket (.text text) phase moves := by
  induction moves generalizing w phase with
  | nil => exact .waits (fun _ => id) rfl rfl
  | cons m moves ih =>
    have hm : ∀ now f, m ≠ .event now (.send ticket f) :=
      fun now f heq => hmoves now f (heq ▸ List.mem_cons_self)
    have hrest : ∀ now f, .event now (.send ticket f) ∉ moves :=
      fun now f hmem => hmoves now f (List.mem_cons_of_mem _ hmem)
    by_cases hown : isSendOf ticket m = true
    · obtain ⟨now, f, rfl⟩ | ⟨now, s, rfl⟩ := isSendOf_cases hown
      · exact absurd rfl (hm now f)
      · cases hstep : w.tunnel.step now (.sending ticket s) with
        | none =>
          have hnext := next_of_step_eq_none (fun _ _ _ => by simp) hstep
          have hno : ¬ w.Tries ticket (.event now (.sending ticket s)) :=
            fun htries => by simp [Tries, hstep] at htries
          have hwaits : Awaits (w.next (.event now (.sending ticket s))).tunnel
              ⟨ticket, .text text, phase⟩ := by
            rw [hnext]
            exact hw
          exact (ih (h.next _) hwaits hrest).cons (by simp [returns, hstep])
            (fun _ => puts_eq_nil fun _ => by rw [hnext]) (fun g hg => hno hg.1) (.later hno)
        | some after =>
          exact h.text_of_step hw (by rw [hstep]; rfl) hrest
            fun phase' hwaits => ih (h.next _) hwaits hrest
    · rw [Bool.not_eq_true] at hown
      have hno := not_tries_of_not_isSendOf (w := w) hown
      exact (ih (h.next m) (h.next_awaits hw hown) hrest).cons (returns_of_not_isSendOf hown)
        (fun htrue => by rw [hown] at htrue; cases htrue) (fun g hg => hno hg.1) (.later hno)

/-- **What becomes of a text**, from the start of its send on. -/
theorem Sound.text_outcome (h : w.Sound) (hw : Idle w.tunnel ticket) (now : Duration)
    (text : String) (hmoves : ∀ now f, .event now (.send ticket f) ∉ moves) :
    w.TextOutcome ticket (.text text) (.locking (now.add (lockWait (.text text))))
      (.event now (.send ticket (.text text)) :: moves) := by
  have hown : isSendOf ticket (.event now (.send ticket (.text text))) = true := decide_eq_true rfl
  have hno : ¬ w.Tries ticket (.event now (.send ticket (.text text))) := id
  have hany : (w.tunnel.sends.any fun s => s.ticket = ticket) = false := by
    simpa [List.any_eq_false, Idle] using hw
  cases hcheck : w.tunnel.checkSendable (Frame.text text).length with
  | error e =>
    have hstep : w.tunnel.step now (.send ticket (.text text)) =
        some (w.tunnel, [.sent ticket (.error e)]) := by
      simp [Tunnel.step, hany, startSend, hcheck]
    have hidle : Idle (w.next (.event now (.send ticket (.text text)))).tunnel ticket := by
      rw [next_of_step (fun _ _ _ => by simp) hstep]
      exact hw
    obtain ⟨hresults, hall, htaken⟩ := h.ends hidle hmoves (returns_of_step [.error e] hstep) hown
    exact .lost _ e (fun g hg => hno ((htaken g).mp hg).1) (.refused hcheck) hresults
      (hall.trans (w.puts_send now ticket _))
  | ok _ =>
    have hstep : w.tunnel.step now (.send ticket (.text text)) = some ({ w.tunnel with
        sends := w.tunnel.sends ++
          [⟨ticket, .text text, .locking (now.add (lockWait (.text text)))⟩] }, []) := by
      simp [Tunnel.step, hany, startSend, hcheck]
    have hwaits : Awaits (w.next (.event now (.send ticket (.text text)))).tunnel
        ⟨ticket, .text text, .locking (now.add (lockWait (.text text)))⟩ := by
      rw [next_of_step (fun _ _ _ => by simp) hstep]
      intro s hs hticket
      obtain hs | hs := List.mem_append.mp hs
      · exact absurd hticket (hw s hs)
      · exact List.mem_singleton.mp hs
    exact ((h.next _).text_of_awaits hwaits hmoves).cons (returns_of_step [] hstep)
      (fun _ => w.puts_send now ticket _) (fun g hg => hno hg.1) (.later hno)

end Watched

end DeviceRelay
