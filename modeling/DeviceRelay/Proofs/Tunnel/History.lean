import DeviceRelay.Proofs.Text.Utf8
import DeviceRelay.Tunnel.Basic

/-!
# What a tunnel has seen

Messages of the broker arrive while the state of the tunnel changes around them. After any order
of both, the frames that were handed on, the state, the registration and the flag of the remote
page are told by the events alone.

* `Tunnel.Carries`, `Tunnel.Tells`: what an event brings, a frame or a control message.
* `Tunnel.Latest`: the value that the last event to set it has set.
* `Tunnel.Handed`: the frames that events hand on.
* `Tunnel.history_observeAll`: the tunnel follows the events.
-/

namespace DeviceRelay

theorem Text.bytes_injective {s s' : String} (h : Text.bytes s = Text.bytes s') : s = s' := by
  have h1 := Text.decode?_eq_some_iff.mpr h
  rw [Text.decode?_eq_some_iff.mpr rfl] at h1
  cases h1
  rfl

namespace Tunnel

/-! ## Events -/

/-- What can happen to a tunnel that is connected. -/
inductive Event where
  | moves (next : ConnectionState)
  | arrives (now : Duration) (payload : List UInt8) (isBinary : Bool)
  deriving DecidableEq, Repr

/-- The tunnel after an event, and the frame that is handed on. -/
def observe (t : Tunnel) : Event → Option Frame × Tunnel
  | .moves next => (none, t.setState next)
  | .arrives now payload isBinary => t.handleInbound now payload isBinary

/-- The tunnel after events, and the frames that are handed on. -/
def observeAll : Tunnel → List Event → List Frame × Tunnel
  | t, [] => ([], t)
  | t, e :: events =>
    let (frame, t) := t.observe e
    let (frames, t) := t.observeAll events
    (frame.toList ++ frames, t)

/-- The event brings a control message. -/
inductive Tells : Event → Duration → BrokerControl → Prop where
  | text {now : Duration} {text : String} {c : BrokerControl}
      (h : Inbound.classify text = .control c) :
      Tells (.arrives now (Text.bytes text) false) now c

/-- The event brings a frame for the handlers, byte for byte. -/
inductive Carries : Event → Frame → Prop where
  | binary {now : Duration} {payload : List UInt8} :
      Carries (.arrives now payload true) (.binary payload)
  | text {now : Duration} {text : String} (h : Inbound.classify text = .payload) :
      Carries (.arrives now (Text.bytes text) false) (.text text)

theorem Tells.unique {e : Event} {now now' : Duration} {c c' : BrokerControl}
    (h : Tells e now c) (h' : Tells e now' c') : now = now' ∧ c = c' := by
  obtain ⟨h⟩ := h
  generalize hb : Text.bytes _ = payload at h'
  obtain ⟨h'⟩ := h'
  rw [Text.bytes_injective hb, h'] at h
  cases h
  exact ⟨rfl, rfl⟩

/-- A control message is no frame. -/
theorem Tells.not_carries {e : Event} {now : Duration} {c : BrokerControl} {f : Frame}
    (h : Tells e now c) : ¬ Carries e f := by
  intro h'
  obtain ⟨h⟩ := h
  generalize hb : Text.bytes _ = payload at h'
  obtain _ | h' := h'
  rw [Text.bytes_injective hb, h'] at h
  cases h

/-! ## What an event does -/

theorem handleInbound_malformed {t : Tunnel} {now : Duration} {payload : List UInt8}
    (h : Text.decode? payload = none) : t.handleInbound now payload false = (none, t) := by
  unfold handleInbound
  rw [if_neg (by decide), h]

theorem handleInbound_text {t : Tunnel} {now : Duration} {text : String} :
    t.handleInbound now (Text.bytes text) false =
      match Inbound.classify text with
      | .control c => (none, t.applyControl now c)
      | .payload => (if t.state = .registered then some (.text text) else none, t) := by
  have h : Text.decode? (Text.bytes text) = some text := Text.decode?_eq_some_iff.mpr rfl
  unfold handleInbound
  generalize Text.decode? (Text.bytes text) = r at h ⊢
  subst h
  rfl

/-- **All that an event can do.** -/
theorem observe_cases (t : Tunnel) (e : Event) :
    (∃ next, e = .moves next ∧ t.observe e = (none, t.setState next)) ∨
    (∃ f, Carries e f ∧ t.observe e = (if t.state = .registered then some f else none, t)) ∨
    (∃ now c, Tells e now c ∧ t.observe e = (none, t.applyControl now c)) ∨
    ((∀ next, e ≠ .moves next) ∧ (∀ f, ¬ Carries e f) ∧ (∀ now c, ¬ Tells e now c) ∧
      t.observe e = (none, t)) := by
  cases e with
  | moves next => exact .inl ⟨next, rfl, rfl⟩
  | arrives now payload isBinary =>
    right
    cases isBinary with
    | true => exact .inl ⟨.binary payload, .binary, rfl⟩
    | false =>
      rw [show t.observe (.arrives now payload false) = t.handleInbound now payload false from rfl]
      cases hd : Text.decode? payload with
      | none =>
        refine .inr (.inr ⟨nofun, ?_, ?_, handleInbound_malformed hd⟩)
        · rintro f ⟨⟩
          rw [Text.decode?_eq_some_iff.mpr rfl] at hd
          cases hd
        · rintro now' c ⟨⟩
          rw [Text.decode?_eq_some_iff.mpr rfl] at hd
          cases hd
      | some text =>
        obtain rfl := Text.decode?_eq_some_iff.mp hd
        rw [handleInbound_text]
        cases hc : Inbound.classify text with
        | control c => exact .inr (.inl ⟨now, c, .text hc, rfl⟩)
        | payload => exact .inl ⟨.text text, .text hc, rfl⟩

/-! ## The latest of the events -/

/-- The last event to set a value has set this one; before any has, it is `start`. -/
def Latest {α : Type} (sets : Event → α → Prop) (start : α) (events : List Event) (a : α) : Prop :=
  (a = start ∧ ∀ e ∈ events, ∀ b, ¬ sets e b) ∨
    ∃ before e after, events = before ++ e :: after ∧ sets e a ∧ ∀ e' ∈ after, ∀ b, ¬ sets e' b

section Latest

variable {α : Type} {sets : Event → α → Prop} {start a : α} {events : List Event} {e : Event}

theorem Latest.nil : Latest sets start [] start := .inl ⟨rfl, nofun⟩

theorem Latest.set (h : sets e a) : Latest sets start (events ++ [e]) a :=
  .inr ⟨events, e, [], rfl, h, nofun⟩

theorem Latest.keep (h : Latest sets start events a) (hn : ∀ b, ¬ sets e b) :
    Latest sets start (events ++ [e]) a := by
  have hlast : ∀ {es : List Event}, (∀ e' ∈ es, ∀ b, ¬ sets e' b) →
      ∀ e' ∈ es ++ [e], ∀ b, ¬ sets e' b := by
    intro es hes e' he'
    rcases List.mem_append.mp he' with he' | he'
    · exact hes e' he'
    · rw [List.mem_singleton.mp he']
      exact hn
  rcases h with ⟨rfl, hnone⟩ | ⟨before, e', after, rfl, hs, hnone⟩
  · exact .inl ⟨rfl, hlast hnone⟩
  · exact .inr ⟨before, e', after ++ [e], by simp, hs, hlast hnone⟩

/-- The latest value is one, where an event sets one value at most. -/
theorem Latest.unique (hsets : ∀ {e a b}, sets e a → sets e b → a = b) {b : α}
    (h : Latest sets start events a) (h' : Latest sets start events b) : a = b := by
  rcases h with ⟨rfl, hnone⟩ | ⟨b₁, e₁, a₁, rfl, hs₁, hn₁⟩
  · rcases h' with ⟨rfl, -⟩ | ⟨b₂, e₂, a₂, rfl, hs₂, -⟩
    · rfl
    · exact absurd hs₂ (hnone e₂ (by simp) b)
  · rcases h' with ⟨rfl, hnone⟩ | ⟨b₂, e₂, a₂, heq, hs₂, hn₂⟩
    · exact absurd hs₁ (hnone e₁ (by simp) a)
    · rcases List.append_eq_append_iff.mp heq with ⟨m, -, hm⟩ | ⟨m, -, hm⟩
      · cases m with
        | nil =>
          obtain ⟨rfl, -⟩ := List.cons.inj hm
          exact hsets hs₁ hs₂
        | cons x m =>
          obtain ⟨-, rfl⟩ := List.cons.inj hm
          exact absurd hs₂ (hn₁ e₂ (by simp) b)
      · cases m with
        | nil =>
          obtain ⟨rfl, -⟩ := List.cons.inj hm
          exact hsets hs₁ hs₂
        | cons x m =>
          obtain ⟨-, rfl⟩ := List.cons.inj hm
          exact absurd hs₁ (hn₂ e₁ (by simp) a)

end Latest

/-! ## What events leave behind -/

/-- The event sets the state: by a move, or by registering the device. -/
inductive SetsState : Event → ConnectionState → Prop where
  | moves (next : ConnectionState) : SetsState (.moves next) next
  | registers {e : Event} {now : Duration} {r : Registration} (h : Tells e now (.registered r)) :
      SetsState e .registered

/-- The event registers the device. -/
inductive SetsRecord : Event → RegistrationRecord → Prop where
  | registers {e : Event} {now : Duration} {r : Registration} (h : Tells e now (.registered r)) :
      SetsRecord e ⟨r, some now.millis⟩

/-- The event tells of the remote page. -/
inductive SetsFlag : Event → Bool → Prop where
  | connected {e : Event} {now : Duration} (h : Tells e now .uiConnected) : SetsFlag e true
  | disconnected {e : Event} {now : Duration} (h : Tells e now .uiDisconnected) : SetsFlag e false

/-- The state that events lead to, from a tunnel that is down. -/
def StateAt (events : List Event) (s : ConnectionState) : Prop :=
  Latest SetsState .disconnected events s

/-- The events since the tunnel last went down. -/
def sinceDown (events : List Event) : List Event :=
  (events.reverse.takeWhile fun e => e ≠ .moves .disconnected).reverse

/-- The frames that events hand on: each frame that an event carries while the device is
registered, in order, and no other. -/
inductive Handed : List Event → List Frame → Prop where
  | nil : Handed [] []
  | frame {events : List Event} {frames : List Frame} {e : Event} {f : Frame}
      (h : Handed events frames) (hs : StateAt events .registered) (hc : Carries e f) :
      Handed (events ++ [e]) (frames ++ [f])
  | other {events : List Event} {frames : List Frame} {e : Event} (h : Handed events frames)
      (hn : ∀ f, StateAt events .registered → ¬ Carries e f) : Handed (events ++ [e]) frames

/-- The tunnel is as the events left it, and these are the frames that were handed on. -/
structure History (events : List Event) (frames : List Frame) (t : Tunnel) : Prop where
  handed : Handed events frames
  state : StateAt events t.state
  record : Latest SetsRecord ⟨default, none⟩ events t.record
  flag : Latest SetsFlag false (sinceDown events) t.uiConnected

theorem SetsState.unique {e : Event} {a b : ConnectionState} (h : SetsState e a)
    (h' : SetsState e b) : a = b := by
  cases h with
  | moves next =>
    cases h' with
    | moves => rfl
    | registers h => cases h
  | registers h =>
    cases h' with
    | moves => cases h
    | registers => rfl

theorem not_setsState {e : Event} (hm : ∀ next, e ≠ .moves next)
    (hr : ∀ now r, ¬ Tells e now (.registered r)) (s : ConnectionState) : ¬ SetsState e s := by
  intro h
  cases h with
  | moves => exact hm s rfl
  | registers h => exact hr _ _ h

theorem not_setsRecord {e : Event} (hr : ∀ now r, ¬ Tells e now (.registered r))
    (r : RegistrationRecord) : ¬ SetsRecord e r := by
  rintro ⟨h⟩
  exact hr _ _ h

theorem not_setsFlag {e : Event} (hc : ∀ now, ¬ Tells e now .uiConnected)
    (hd : ∀ now, ¬ Tells e now .uiDisconnected) (b : Bool) : ¬ SetsFlag e b := by
  intro h
  cases h with
  | connected h => exact hc _ h
  | disconnected h => exact hd _ h

theorem sinceDown_down (events : List Event) :
    sinceDown (events ++ [.moves .disconnected]) = [] := by
  simp [sinceDown]

theorem sinceDown_snoc (events : List Event) {e : Event} (h : e ≠ .moves .disconnected) :
    sinceDown (events ++ [e]) = sinceDown events ++ [e] := by
  simp [sinceDown, h]

/-! ## One event -/

section Step

variable {events : List Event} {frames : List Frame} {t : Tunnel}

theorem History.move (h : History events frames t) (next : ConnectionState) :
    History (events ++ [.moves next]) frames (t.setState next) where
  handed := .other h.handed fun f _ hc => nomatch hc
  state := .set (.moves next)
  record := h.record.keep (not_setsRecord fun _ _ ht => nomatch ht)
  flag := by
    unfold setState
    by_cases hd : next = .disconnected
    · subst hd
      rw [sinceDown_down]
      exact .nil
    · rw [sinceDown_snoc events (by simpa using hd), if_neg hd]
      exact h.flag.keep (not_setsFlag (fun _ ht => nomatch ht) fun _ ht => nomatch ht)

/-- An event that brings no control message leaves the tunnel as it is. -/
theorem History.keep (h : History events frames t) {e : Event} {frames' : List Frame}
    (hm : ∀ next, e ≠ .moves next) (ht : ∀ now c, ¬ Tells e now c)
    (hf : Handed (events ++ [e]) frames') : History (events ++ [e]) frames' t where
  handed := hf
  state := Latest.keep h.state (not_setsState hm fun now _ => ht now _)
  record := h.record.keep (not_setsRecord fun now _ => ht now _)
  flag := by
    rw [sinceDown_snoc events (hm _)]
    exact h.flag.keep (not_setsFlag (fun now => ht now _) fun now => ht now _)

theorem History.carry (h : History events frames t) {e : Event} {f : Frame} (hc : Carries e f) :
    History (events ++ [e]) (frames ++ (if t.state = .registered then some f else none).toList)
      t := by
  refine h.keep (fun next he => ?_) (fun now c ht => ht.not_carries hc) ?_
  · rw [he] at hc
    cases hc
  · by_cases hs : t.state = .registered
    · rw [if_pos hs]
      exact .frame h.handed (hs ▸ h.state) hc
    · rw [if_neg hs, Option.toList_none, List.append_nil]
      exact .other h.handed fun _ hs' _ => hs (Latest.unique @SetsState.unique h.state hs')

theorem History.tell (h : History events frames t) {e : Event} {now : Duration}
    {c : BrokerControl} (ht : Tells e now c) :
    History (events ++ [e]) frames (t.applyControl now c) := by
  have hm : ∀ next, e ≠ .moves next := by
    rintro next rfl
    cases ht
  have hf : Handed (events ++ [e]) frames := .other h.handed fun _ _ => ht.not_carries
  -- Each kind sets what it is about and leaves the rest.
  have hother : ∀ now' c', c' ≠ c → ¬ Tells e now' c' :=
    fun _ _ hne ht' => hne (ht'.unique ht).2
  cases c with
  | registered r =>
    refine ⟨hf, .set (.registers ht), .set (.registers ht), ?_⟩
    rw [sinceDown_snoc events (hm _)]
    exact h.flag.keep
      (not_setsFlag (fun now' => hother now' _ nofun) fun now' => hother now' _ nofun)
  | uiConnected =>
    refine ⟨hf, Latest.keep h.state (not_setsState hm fun now' r => hother now' _ nofun),
      h.record.keep (not_setsRecord fun now' r => hother now' _ nofun), ?_⟩
    rw [sinceDown_snoc events (hm _)]
    exact .set (.connected ht)
  | uiDisconnected =>
    refine ⟨hf, Latest.keep h.state (not_setsState hm fun now' r => hother now' _ nofun),
      h.record.keep (not_setsRecord fun now' r => hother now' _ nofun), ?_⟩
    rw [sinceDown_snoc events (hm _)]
    exact .set (.disconnected ht)

/-- **A tunnel that follows the events follows one more.** -/
theorem History.observe (h : History events frames t) (e : Event) :
    History (events ++ [e]) (frames ++ (t.observe e).1.toList) (t.observe e).2 := by
  rcases observe_cases t e with ⟨next, rfl, ho⟩ | ⟨f, hc, ho⟩ | ⟨now, c, ht, ho⟩ | ⟨hm, hc, ht, ho⟩
  · rw [ho, Option.toList_none, List.append_nil]
    exact h.move next
  · rw [ho]
    exact h.carry hc
  · rw [ho, Option.toList_none, List.append_nil]
    exact h.tell ht
  · rw [ho, Option.toList_none, List.append_nil]
    exact h.keep hm ht (.other h.handed fun f _ => hc f)

/-! ## All events -/

theorem History.observeAll (h : History events frames t) (later : List Event) :
    History (events ++ later) (frames ++ (t.observeAll later).1) (t.observeAll later).2 := by
  induction later generalizing events frames t with
  | nil =>
    rw [List.append_nil, show (t.observeAll []).1 = [] from rfl, List.append_nil]
    exact h
  | cons e later ih =>
    have hlater := ih (h.observe e)
    rw [List.append_assoc, List.append_assoc] at hlater
    exact hlater

end Step

theorem history_new (label : String) (options : TunnelOptions) :
    History [] [] (new label options) :=
  ⟨.nil, .nil, .nil, .nil⟩

/-- A frame that was handed on came with an event, while the device was registered. -/
theorem Handed.mem {events : List Event} {frames : List Frame} (h : Handed events frames)
    {f : Frame} (hf : f ∈ frames) : ∃ before e after, events = before ++ e :: after ∧
      StateAt before .registered ∧ Carries e f := by
  induction h with
  | nil => cases hf
  | @frame events frames e f' _ hs hc ih =>
    rcases List.mem_append.mp hf with hf | hf
    · obtain ⟨before, e', after, rfl, hs', hc'⟩ := ih hf
      exact ⟨before, e', after ++ [e], by simp, hs', hc'⟩
    · rw [List.mem_singleton.mp hf]
      exact ⟨events, e, [], rfl, hs, hc⟩
  | @other events frames e _ _ ih =>
    obtain ⟨before, e', after, rfl, hs', hc'⟩ := ih hf
    exact ⟨before, e', after ++ [e], by simp, hs', hc'⟩

/-- **A tunnel follows its events.** The frames that are handed on are those that came while the
device was registered, in order and byte for byte; no text among them is a control message; the
state, the registration and the flag are what the latest event to set them has set. -/
theorem history_observeAll (label : String) (options : TunnelOptions) (events : List Event) :
    History events ((new label options).observeAll events).1
        ((new label options).observeAll events).2 ∧
      ∀ text, Frame.text text ∈ ((new label options).observeAll events).1 →
        Inbound.classify text = .payload := by
  have h := (history_new label options).observeAll events
  rw [List.nil_append, List.nil_append] at h
  refine ⟨h, fun text hf => ?_⟩
  obtain ⟨before, e, after, -, -, hc⟩ := h.handed.mem hf
  cases hc with
  | text hp => exact hp

end Tunnel

end DeviceRelay
