import DeviceRelay.Outbound.Client
import Mathlib.Data.List.DropRight

/-!
# What dials come to

Every dial of a client fails or begins a session, and the owner hears one block of events for it.
How many redials in a row came to no stable session decides whether there is another one.

* `DialOutcome`, `Script`: what dials came to, and what is told of it.
* `redials`: how many redials in a row came to no stable session.
* `Affordable`: dials that were all made while redials were left.
-/

namespace DeviceRelay

/-- What a dial came to. -/
inductive DialOutcome where
  | failed (e : ClientError)
  /-- A session with the messages that came in, the error that ended it, if any, and the time it was
  held. -/
  | session (messages : List (List UInt8 × Bool)) (error : Option ClientError) (held : Duration)
  deriving DecidableEq, Repr

/-- What is told of a session up to now. -/
def toldOfSession (messages : List (List UInt8 × Bool)) : List ClientEvent :=
  .connected :: messages.map fun m => .message m.1 m.2

namespace DialOutcome

/-- The block of events that is told of a dial. -/
def told : DialOutcome → List ClientEvent
  | .failed e => [.failed e]
  | .session messages error _ =>
    toldOfSession messages ++ (error.map ClientEvent.failed).toList ++ [.disconnected]

def held : DialOutcome → Duration
  | .failed _ => .zero
  | .session _ _ held => held

/-- Whether there was a session that counts as stable. -/
def isStable (o : DialOutcome) : Bool := Duration.ofSeconds 30 ≤ o.held

end DialOutcome

/-- How many redials in a row, up to the last one, came to no stable session. The first dial of all
is no redial. -/
def redials (outcomes : List DialOutcome) : Nat :=
  (outcomes.tail.rtakeWhile fun o => !o.isStable).length

theorem redials_concat_stable {o : DialOutcome} (h : o.isStable = true)
    (outcomes : List DialOutcome) : redials (outcomes ++ [o]) = 0 := by
  unfold redials
  cases outcomes with
  | nil => rfl
  | cons first outcomes =>
    rw [List.cons_append, List.tail_cons, List.rtakeWhile_concat_neg _ _ _ (by simp [h])]
    rfl

theorem redials_concat_short {o : DialOutcome} (h : o.isStable = false)
    {outcomes : List DialOutcome} (hne : outcomes ≠ []) :
    redials (outcomes ++ [o]) = redials outcomes + 1 := by
  unfold redials
  cases outcomes with
  | nil => exact absurd rfl hne
  | cons first outcomes =>
    rw [List.cons_append, List.tail_cons, List.tail_cons,
      List.rtakeWhile_concat_pos _ _ _ (by simp [h]), List.length_append]
    rfl

/-- What dials came to, and the session that is under way. -/
structure Script where
  outcomes : List DialOutcome
  /-- Since when the session is held, and the messages that came in. -/
  underway : Option (Duration × List (List UInt8 × Bool))
  deriving DecidableEq, Repr

namespace Script

/-- Nothing was dialed yet. -/
def blank : Script := ⟨[], none⟩

/-- What is told, block by block. -/
def told (s : Script) : List ClientEvent :=
  s.outcomes.flatMap DialOutcome.told ++ (s.underway.map fun u => toldOfSession u.2).getD []

/-- The session that is under way ends. -/
def close (s : Script) (now : Duration) (error : Option ClientError) : Script :=
  match s.underway with
  | none => s
  | some (since, messages) => ⟨s.outcomes ++ [.session messages error (now.sub since)], none⟩

/-- The script after a step of the task. -/
def after (s : Script) (now : Duration) : OutboundClient.NetworkStep → Script
  | .dialed => { s with underway := some (now, []) }
  | .dialFailed e => { s with outcomes := s.outcomes ++ [.failed e] }
  | .received payload isBinary =>
    { s with underway := s.underway.map fun u => (u.1, u.2 ++ [(payload, isBinary)]) }
  | .peerClosed | .saidGoodbye => s.close now none
  | .broken e => s.close now (some e)
  | .start | .transmitted | .stopped | .woken => s

end Script

/-! ## Dials that are allowed -/

/-- Every dial that came to something was made while redials were left. -/
def Affordable (m : Nat) (outcomes : List DialOutcome) : Prop :=
  ∀ before, before <+: outcomes → before ≠ outcomes → redials before < m

theorem affordable_nil (m : Nat) : Affordable m [] :=
  fun _ hinit hne => absurd (List.prefix_nil.mp hinit) hne

theorem affordable_concat_iff {m : Nat} {outcomes : List DialOutcome} {o : DialOutcome} :
    Affordable m (outcomes ++ [o]) ↔ Affordable m outcomes ∧ redials outcomes < m := by
  constructor
  · intro h
    refine ⟨fun before hinit _ => ?_, h outcomes (List.prefix_append _ _) (by simp)⟩
    refine h before (hinit.trans (List.prefix_append _ _)) ?_
    rintro rfl
    have hlen := hinit.length_le
    rw [List.length_append, List.length_singleton] at hlen
    omega
  · rintro ⟨h, hleft⟩ before hinit hne
    obtain rfl | hinit := List.prefix_concat_iff.mp hinit
    · exact absurd rfl hne
    · by_cases heq : before = outcomes
      · exact heq ▸ hleft
      · exact h before hinit heq

theorem Script.outcomes_close (s : Script) (now : Duration) (error : Option ClientError) :
    (s.close now error).outcomes = s.outcomes ∨
      ∃ o, (s.close now error).outcomes = s.outcomes ++ [o] := by
  unfold close
  split
  · exact .inl rfl
  · exact .inr ⟨_, rfl⟩

theorem Script.outcomes_after (s : Script) (now : Duration) (step : OutboundClient.NetworkStep) :
    (s.after now step).outcomes = s.outcomes ∨
      ∃ o, (s.after now step).outcomes = s.outcomes ++ [o] := by
  cases step with
  | dialFailed e => exact .inr ⟨_, rfl⟩
  | peerClosed | saidGoodbye => exact s.outcomes_close now none
  | broken e => exact s.outcomes_close now (some e)
  | start | dialed | received | transmitted | stopped | woken => exact .inl rfl

end DeviceRelay
