import DeviceRelay.Proofs.Outbound.Outbox
import DeviceRelay.Proofs.Tunnel.Steps

/-!
# What a send does

A send ends with the step that finds room for its payload, or with one that fails; until then it
waits. The payload gets to the end of the queue of the installed transport, and only by the step
that ends the send well.

* `Tunnel.offer_cases`: one offer of a payload.
* `Tunnel.step_send_cases`: a send is refused, or waits.
* `Tunnel.SendMoved`, `Tunnel.step_sending_cases`: all that a later step of a send can do.
* `Tunnel.sendNow_run`: a send during whose waits nothing else happens is a run of the tunnel.
-/

namespace DeviceRelay

/-- The transport with one more message at the end of its queue. -/
def Transport.enqueue (tr : Transport) (m : Message) : Transport :=
  { tr with client := tr.client.enqueue m }

namespace Tunnel

/-- A frame is put at the end of the queue of the installed transport, or the tunnel stays as it
is. -/
theorem offer_cases (t : Tunnel) (f : Frame) :
    (∃ tr, t.transport = some tr ∧ tr.client.outbox.isSome = true ∧
      t.offer f = (.ok .queued, { t with transport := some (tr.enqueue (.data f)) })) ∨
    ∃ r, r ≠ .ok .queued ∧ (∀ p, r = .ok p → t.transport.isSome = true) ∧ t.offer f = (r, t) := by
  unfold offer
  cases htr : t.transport with
  | none => exact .inr ⟨.error .invalidState, nofun, nofun, rfl⟩
  | some tr =>
    dsimp only
    obtain ⟨hq, heq⟩ | ⟨hne, hsame⟩ := tr.client.submit_cases f.length (.data f)
    · rw [heq]
      exact .inl ⟨tr, rfl, hq, rfl⟩
    · generalize tr.client.submit f.length (.data f) = submitted at hne hsame ⊢
      obtain ⟨r, client⟩ := submitted
      obtain rfl : client = tr.client := hsame
      refine .inr ⟨_, ?_, fun _ _ => rfl, by rw [← htr]⟩
      cases r with
      | ok p => simpa using hne
      | error e => nofun

/-- **All that the start of a send can do.** The send is refused at once, for what the tunnel is and
how long the payload is, or it waits. -/
theorem step_send_cases {t t' : Tunnel} {ticket : Nat} {f : Frame} {now : Duration}
    {seen : List TunnelEffect} (h : t.step now (.send ticket f) = some (t', seen)) :
    (∃ e, t' = t ∧ seen = [.sent ticket (.error e)]) ∨
    ∃ phase, t' = { t with sends := t.sends ++ [⟨ticket, f, phase⟩] } ∧ seen = [] := by
  obtain ⟨-, h⟩ := Option.ite_none_left_eq_some.mp h
  unfold startSend at h
  cases hs : t.checkSendable f.length with
  | error e =>
    simp only [hs] at h
    cases h
    exact .inl ⟨e, rfl, rfl⟩
  | ok _ =>
    simp only [hs] at h
    cases h
    exact .inr ⟨_, rfl, rfl⟩

/-- What a later step of a send can do. -/
inductive SendMoved (t : Tunnel) (p : PendingSend) : SendResult → Tunnel → Prop where
  /-- There is room: the payload is the newest in the queue, and the send is over. -/
  | queues (tr : Transport) (htr : t.transport = some tr) (hq : tr.client.outbox.isSome = true) :
      SendMoved t p (some (.ok ()))
        ({ t with transport := some (tr.enqueue (.data p.frame)) }.dropSend p.ticket)
  | fails (e : TunnelError) : SendMoved t p (some (.error e)) (t.dropSend p.ticket)
  /-- A text waits for room. -/
  | waits (giveUpAt : Duration) (htr : t.transport.isSome = true) :
      SendMoved t p none { t with sends := t.sends.map fun u =>
        if u.ticket = p.ticket then { u with phase := .queueing giveUpAt } else u }

theorem offerPending_cases {t t' : Tunnel} {p : PendingSend} {giveUpAt : Duration}
    {result : SendResult} (h : t.offerPending p giveUpAt = (result, t')) :
    SendMoved t p result t' := by
  unfold offerPending at h
  obtain ⟨tr, htr, hq, heq⟩ | ⟨r, hr, hsome, heq⟩ := t.offer_cases p.frame
  · rw [heq] at h
    cases h
    exact .queues tr htr hq
  · rw [heq] at h
    split at h
    · rename_i hfull _
      cases hfull
      cases h
      exact .waits giveUpAt (hsome .full rfl)
    · rename_i hoffered _
      cases hoffered
      cases h
      rcases r with e | (_ | _ | _)
      · exact .fails e
      · exact absurd rfl hr
      · exact .fails .timeout
      · exact .fails .closed

theorem sendStep_cases {t t' : Tunnel} {ticket : Nat} {now : Duration} {s : SendStep}
    {result : SendResult} (h : t.sendStep ticket now s = some (result, t')) :
    ∃ p ∈ t.sends, p.ticket = ticket ∧ SendMoved t p result t' := by
  obtain ⟨p, hfind, h⟩ := Option.bind_eq_some_iff.mp h
  have hmem : p ∈ t.sends := List.mem_of_find?_eq_some hfind
  obtain rfl : p.ticket = ticket := by simpa using List.find?_some hfind
  refine ⟨p, hmem, rfl, ?_⟩
  split at h
  case h_1 =>
    simp only [Option.ite_none_left_eq_some, Option.some.injEq] at h
    exact offerPending_cases h.2
  case h_2 =>
    simp only [Option.ite_none_right_eq_some, Option.some.injEq, Prod.mk.injEq] at h
    obtain ⟨-, rfl, rfl⟩ := h
    exact .fails .timeout
  case h_3 =>
    split at h
    · cases h
      exact .fails .closed
    · exact offerPending_cases (Option.some.inj h)
  case h_4 =>
    simp only [Option.ite_none_right_eq_some, Option.some.injEq, Prod.mk.injEq] at h
    obtain ⟨-, rfl, rfl⟩ := h
    exact .fails .timeout
  case h_5 => cases h

/-- **All that a send can do after its start.** -/
theorem step_sending_cases {t t' : Tunnel} {ticket : Nat} {now : Duration} {s : SendStep}
    {seen : List TunnelEffect} (h : t.step now (.sending ticket s) = some (t', seen)) :
    ∃ p ∈ t.sends, p.ticket = ticket ∧ ∃ result, SendMoved t p result t' ∧
      seen = result.toList.map (.sent ticket) := by
  obtain ⟨⟨result, t''⟩, hsend, heq⟩ := Option.bind_eq_some_iff.mp h
  cases heq
  obtain ⟨p, hmem, hticket, hmoved⟩ := sendStep_cases hsend
  exact ⟨p, hmem, hticket, result, hmoved, rfl⟩

/-! ## A send during whose waits nothing else happens -/

section Alone

variable {t t' : Tunnel} {ticket : Nat} {f : Frame} {now : Duration}

/-- The tunnel with one more send that waits. -/
def withSend (t : Tunnel) (p : PendingSend) : Tunnel := { t with sends := t.sends ++ [p] }

theorem find?_withSend (hfresh : ∀ s ∈ t.sends, s.ticket ≠ ticket) (f : Frame)
    (phase : SendPhase) :
    (t.withSend ⟨ticket, f, phase⟩).sends.find? (fun s => s.ticket = ticket) =
      some ⟨ticket, f, phase⟩ := by
  have hnone : t.sends.find? (fun s => s.ticket = ticket) = none :=
    List.find?_eq_none.mpr fun s hs => by simpa using hfresh s hs
  simp [withSend, List.find?_append, hnone]

theorem dropSend_withSend (hfresh : ∀ s ∈ t.sends, s.ticket ≠ ticket) (f : Frame)
    (phase : SendPhase) : (t.withSend ⟨ticket, f, phase⟩).dropSend ticket = t := by
  have hkept : t.sends.filter (fun s => s.ticket ≠ ticket) = t.sends :=
    List.filter_eq_self.mpr fun s hs => by simpa using hfresh s hs
  unfold dropSend withSend
  dsimp only
  rw [List.filter_append, hkept]
  simp

theorem offer_withSend (t : Tunnel) (p : PendingSend) (f : Frame) :
    (t.withSend p).offer f = ((t.offer f).1, (t.offer f).2.withSend p) := by
  unfold offer withSend
  cases h : t.transport with
  | none => simp [h]
  | some tr => rfl

theorem isLocked_withSend (t : Tunnel) (ticket : Nat) (f : Frame) (giveUpAt : Duration) :
    (t.withSend ⟨ticket, f, .locking giveUpAt⟩).isLocked = t.isLocked := by
  simp [isLocked, withSend, SendPhase.holdsLock]

/-- A send waits in another place. -/
theorem map_withSend (hfresh : ∀ s ∈ t.sends, s.ticket ≠ ticket) (f : Frame)
    (phase phase' : SendPhase) :
    { t.withSend ⟨ticket, f, phase⟩ with
        sends := (t.withSend ⟨ticket, f, phase⟩).sends.map fun u =>
          if u.ticket = ticket then { u with phase := phase' } else u } =
      t.withSend ⟨ticket, f, phase'⟩ := by
  have hkept : (t.sends.map fun u => if u.ticket = ticket then { u with phase := phase' } else u) =
      t.sends :=
    (List.map_congr_left fun s hs => if_neg (hfresh s hs)).trans (List.map_id _)
  unfold withSend
  dsimp only
  rw [List.map_append, hkept]
  simp

theorem sends_offer (t : Tunnel) (f : Frame) : (t.offer f).2.sends = t.sends := by
  unfold offer
  cases t.transport <;> rfl

theorem run_of_step {e : TunnelEvent} {seen : List TunnelEffect}
    (h : t.step now e = some (t', seen)) (events : List (Duration × TunnelEvent)) :
    t.run ((now, e) :: events) = (t'.run events).map fun x => (x.1, seen ++ x.2) := by
  simp only [run, h, Option.bind_eq_bind, Option.bind_some]
  cases t'.run events <;> rfl

theorem step_of_sendStep {s : SendStep} {result : SendResult}
    (h : t.sendStep ticket now s = some (result, t')) :
    t.step now (.sending ticket s) = some (t', result.toList.map (.sent ticket)) := by
  simp [step, h]

/-- The instants stay variables here: the deadlines of a send are sums with large numbers. -/
theorem sendStep_lockGivenUp {giveUpAt : Duration}
    (h : t.sends.find? (fun s => s.ticket = ticket) = some ⟨ticket, f, .locking giveUpAt⟩) :
    t.sendStep ticket giveUpAt .lockGivenUp = some (some (.error .timeout), t.dropSend ticket) := by
  have hle : giveUpAt ≤ giveUpAt := Nat.le_refl _
  rw [sendStep, h]
  simp [hle]

theorem sendStep_roomGivenUp {giveUpAt : Duration}
    (h : t.sends.find? (fun s => s.ticket = ticket) = some ⟨ticket, f, .queueing giveUpAt⟩) :
    t.sendStep ticket giveUpAt .roomGivenUp = some (some (.error .timeout), t.dropSend ticket) := by
  have hle : giveUpAt ≤ giveUpAt := Nat.le_refl _
  rw [sendStep, h]
  simp [hle]

/-- A send alone, with the lock: it ends, or it waits for room and would end in a timeout. -/
theorem offerPending_withSend (hfresh : ∀ s ∈ t.sends, s.ticket ≠ ticket) (f : Frame)
    (phase : SendPhase) (giveUpAt : Duration) :
    (t.withSend ⟨ticket, f, phase⟩).offerPending ⟨ticket, f, phase⟩ giveUpAt =
        (some (offerResult (t.offer f).1), (t.offer f).2) ∨
      offerResult (t.offer f).1 = .error .timeout ∧
        (t.withSend ⟨ticket, f, phase⟩).offerPending ⟨ticket, f, phase⟩ giveUpAt =
          (none, (t.offer f).2.withSend ⟨ticket, f, .queueing giveUpAt⟩) := by
  have hoffer := t.offer_withSend ⟨ticket, f, phase⟩ f
  have hfresh' : ∀ s ∈ (t.offer f).2.sends, s.ticket ≠ ticket := by
    rw [sends_offer]
    exact hfresh
  generalize t.offer f = offered at hoffer hfresh' ⊢
  obtain ⟨r, t'⟩ := offered
  dsimp only at hoffer hfresh' ⊢
  by_cases hwaits : r = .ok .full ∧ ∃ text, f = .text text
  · obtain ⟨rfl, text, rfl⟩ := hwaits
    right
    unfold offerPending
    rw [hoffer]
    exact ⟨rfl, congrArg (Prod.mk none) (map_withSend hfresh' _ _ _)⟩
  · left
    unfold offerPending
    rw [hoffer]
    split
    · rename_i heq hframe
      cases heq
      exact absurd ⟨rfl, _, hframe⟩ hwaits
    · rename_i heq _
      cases heq
      rw [dropSend_withSend hfresh']

/-- **A send during whose waits nothing else happens** is a run of the tunnel: the send is begun,
and gets the lock or gives up its wait for it; a text that finds no room gives up its wait for
that. -/
theorem sendNow_run (hfresh : ∀ s ∈ t.sends, s.ticket ≠ ticket) (f : Frame) (now : Duration) :
    ∃ steps : List (Duration × SendStep),
      t.run ((now, .send ticket f) :: steps.map fun x => (x.1, .sending ticket x.2)) =
        some ((t.sendNow f).2, [.sent ticket (t.sendNow f).1]) := by
  have hany : (t.sends.any fun s => s.ticket = ticket) = false := by
    simpa [List.any_eq_false] using hfresh
  unfold sendNow
  cases hcheck : t.checkSendable f.length with
  | error e => exact ⟨[], by simp [run, step, hany, startSend, hcheck]⟩
  | ok _ =>
    have hstart : t.step now (.send ticket f) =
        some (t.withSend ⟨ticket, f, .locking (now.add (lockWait f))⟩, []) := by
      simp [step, hany, startSend, hcheck, withSend]
    have hfind := find?_withSend hfresh f (.locking (now.add (lockWait f)))
    dsimp only
    by_cases hlocked : t.isLocked = true
    · have hgivesUp := sendStep_lockGivenUp hfind
      rw [dropSend_withSend hfresh] at hgivesUp
      refine ⟨[(now.add (lockWait f), .lockGivenUp)], ?_⟩
      rw [if_pos hlocked, run_of_step hstart, List.map_singleton,
        run_of_step (step_of_sendStep hgivesUp)]
      simp [run]
    · have hlock : (t.withSend ⟨ticket, f, .locking (now.add (lockWait f))⟩).sendStep ticket now
          .locked = some ((t.withSend ⟨ticket, f, .locking (now.add (lockWait f))⟩).offerPending
            ⟨ticket, f, .locking (now.add (lockWait f))⟩ (now.add roomWait)) := by
        rw [sendStep, hfind]
        simp [isLocked_withSend, hlocked]
      rw [if_neg hlocked]
      obtain hends | ⟨htimeout, hwaits⟩ := offerPending_withSend hfresh f
        (.locking (now.add (lockWait f))) (now.add roomWait)
      · refine ⟨[(now, .locked)], ?_⟩
        rw [run_of_step hstart, List.map_singleton,
          run_of_step (step_of_sendStep (hlock.trans (congrArg some hends)))]
        simp [run]
      · have hfresh' : ∀ s ∈ (t.offer f).2.sends, s.ticket ≠ ticket := by
          rw [sends_offer]
          exact hfresh
        have hgivesUp := sendStep_roomGivenUp
          (find?_withSend hfresh' f (.queueing (now.add roomWait)))
        rw [dropSend_withSend hfresh'] at hgivesUp
        refine ⟨[(now, .locked), (now.add roomWait, .roomGivenUp)], ?_⟩
        rw [run_of_step hstart, List.map_cons, List.map_singleton,
          run_of_step (step_of_sendStep (hlock.trans (congrArg some hwaits))),
          run_of_step (step_of_sendStep hgivesUp)]
        simp [run, htimeout]

end Alone

end Tunnel

end DeviceRelay
