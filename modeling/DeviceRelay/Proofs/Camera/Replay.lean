import DeviceRelay.Proofs.Camera.Audience
import DeviceRelay.Proofs.Endpoint.Query
import DeviceRelay.Service
import DeviceRelay.Startup.Launch

/-!
# Camera frames without an end

A reel gives its frames in turn, one round after the other, so a replay that has started goes on for
ever: who is there at a tick, whether the file can be read and who refuses the frame make no
difference to what comes next. It starts if its directory has a frame and its clock has a period,
which is counted in whole milliseconds.

* `FileName.isFrame_iff`: which names are those of frames.
* `Reel.Taken`: a reel that has given so many frames.
* `Replay.InTurn`: a replay that waits for the tick with a given number.
* `Replay.looks`, `Replay.run`: what a replay does at some ticks, and how it goes on.
* `Replay.endless_iff`: when a replay goes on for ever.
-/

namespace DeviceRelay

/-! ## Names of frames -/

namespace FileName

variable {name : FileName} {e : List UInt8}

/-- A name that has something in front of a dot, and `jpg` or `jpeg` behind it, in letters of either
form. -/
def EndsAsFrame (name : FileName) : Prop :=
  ∃ stem e, stem ≠ [] ∧ name = stem ++ dot :: e ∧
    (e.map lowerByte = Text.bytes "jpg" ∨ e.map lowerByte = Text.bytes "jpeg")

theorem extension?_of_append {stem : List UInt8} (hstem : stem ≠ []) (he : dot ∉ e) :
    extension? (stem ++ dot :: e) = some e := by
  have hreverse : (stem ++ dot :: e).reverse = e.reverse ++ dot :: stem.reverse := by simp
  have htail : (stem ++ dot :: e).reverse.takeWhile (· ≠ dot) = e.reverse := by
    rw [hreverse, List.takeWhile_append_of_pos (forall_ne_of_not_mem (by simpa using he)),
      List.takeWhile_cons_of_neg (by simp), List.append_nil]
  have hlength : ¬(stem ++ dot :: e).length ≤ e.reverse.length + 1 := by
    have hpos := List.length_pos_of_ne_nil hstem
    simp only [List.length_append, List.length_cons, List.length_reverse]
    omega
  unfold extension?
  simp only [htail, if_neg hlength, List.reverse_reverse]

theorem eq_append_of_extension? (h : extension? name = some e) :
    ∃ stem, stem ≠ [] ∧ name = stem ++ dot :: e := by
  unfold extension? at h
  dsimp only at h
  split at h
  case isTrue => cases h
  case isFalse hlength =>
    obtain rfl : _ = e := Option.some.inj h
    have hparts := List.takeWhile_append_dropWhile (p := (· ≠ dot)) (l := name.reverse)
    have hhead := List.head?_dropWhile_not (· ≠ dot) name.reverse
    have hsum := congrArg List.length hparts
    rw [List.length_append, List.length_reverse] at hsum
    -- In front of the extension there are the dot and at least one byte more.
    match hrest : name.reverse.dropWhile (· ≠ dot) with
    | [] => simp only [hrest, List.length_nil] at hsum; omega
    | [_] => simp only [hrest, List.length_singleton] at hsum; omega
    | b :: c :: stem =>
      rw [hrest] at hparts hhead
      obtain rfl : b = dot := by simpa using hhead
      refine ⟨(c :: stem).reverse, by simp, ?_⟩
      calc name
        _ = name.reverse.reverse := (List.reverse_reverse name).symm
        _ = (name.reverse.takeWhile (· ≠ dot) ++ dot :: c :: stem).reverse := by rw [hparts]
        _ = _ := by rw [List.reverse_append, List.reverse_cons, List.append_assoc]; rfl

theorem isFrameExtension_iff :
    isFrameExtension e = true ↔
      e.map lowerByte = Text.bytes "jpg" ∨ e.map lowerByte = Text.bytes "jpeg" := by
  simp [isFrameExtension]

theorem isFrame_iff : isFrame name = true ↔ EndsAsFrame name := by
  unfold isFrame
  rw [Option.any_eq_true]
  constructor
  · rintro ⟨e, he, hframe⟩
    obtain ⟨stem, hstem, rfl⟩ := eq_append_of_extension? he
    exact ⟨stem, e, hstem, rfl, isFrameExtension_iff.mp hframe⟩
  · rintro ⟨stem, e, hstem, rfl, hframe⟩
    have hdot : dot ∉ e := by
      intro hmem
      have hlower : dot ∈ e.map lowerByte := List.mem_map_of_mem (f := lowerByte) hmem
      rcases hframe with hframe | hframe
      · rw [hframe] at hlower
        exact absurd hlower (by decide)
      · rw [hframe] at hlower
        exact absurd hlower (by decide)
    exact ⟨e, extension?_of_append hstem hdot, isFrameExtension_iff.mpr hframe⟩

end FileName

section Directory

variable (names : List FileName)

theorem perm_frameNames : (frameNames names).Perm (names.filter FileName.isFrame) :=
  List.mergeSort_perm _ _

theorem pairwise_frameNames : (frameNames names).Pairwise (· ≤ ·) := by
  refine (List.pairwise_mergeSort (fun a b c hab hbc => ?_) (fun a b => ?_) _).imp of_decide_eq_true
  · exact decide_eq_true (List.le_trans (of_decide_eq_true hab) (of_decide_eq_true hbc))
  · simpa using List.le_total a b

/-- The frames have one order only that is sorted. -/
theorem frameNames_eq {frames : List FileName}
    (hperm : frames.Perm (names.filter FileName.isFrame)) (hsorted : frames.Pairwise (· ≤ ·)) :
    frameNames names = frames :=
  List.Perm.eq_of_pairwise (fun _ _ _ _ => List.le_antisymm) (pairwise_frameNames names) hsorted
    ((perm_frameNames names).trans hperm.symm)

theorem frameNames_ne_nil_iff :
    frameNames names ≠ [] ↔ ∃ name ∈ names, FileName.EndsAsFrame name := by
  rw [ne_eq, ← List.isEmpty_iff, (perm_frameNames names).isEmpty_eq, List.isEmpty_iff,
    List.filter_eq_nil_iff]
  simp only [FileName.isFrame_iff, not_forall, exists_prop, not_not]

end Directory

/-! ## Rounds -/

namespace Reel

variable {frames : List FileName} {k : Nat} {r : Reel}

/-- A reel that has given so many frames: what is left of its round lies behind the last of them. -/
def Taken (frames : List FileName) (k : Nat) (r : Reel) : Prop :=
  ∃ place ≤ frames.length, r = ⟨frames, frames.drop place⟩ ∧
    k % frames.length = place % frames.length

theorem taken_new (frames : List FileName) : Taken frames 0 (new frames) :=
  ⟨0, Nat.zero_le _, rfl, rfl⟩

/-- **The next frame is the one in turn**, at the end of a round as well. -/
theorem Taken.next (h : Taken frames k r) (hsome : frames ≠ []) :
    ∃ frame r', r.next? = some (frame, r') ∧ frames[k % frames.length]? = some frame ∧
      Taken frames (k + 1) r' := by
  obtain ⟨place, hplace, rfl, hk⟩ := h
  unfold next?
  rw [hk]
  by_cases hlt : place < frames.length
  · refine ⟨frames[place], ⟨frames, frames.drop (place + 1)⟩, ?_, ?_, place + 1, hlt, rfl, ?_⟩
    · rw [List.drop_eq_getElem_cons hlt]
    · rw [Nat.mod_eq_of_lt hlt]
      exact List.getElem?_eq_getElem hlt
    · rw [Nat.add_mod, hk, ← Nat.add_mod]
  · -- The round is over: its last place is taken, and the next round starts with the first frame.
    obtain rfl : place = frames.length := Nat.le_antisymm hplace (Nat.le_of_not_lt hlt)
    rw [List.drop_length, Nat.mod_self]
    obtain ⟨frame, rest, rfl⟩ := List.exists_cons_of_ne_nil hsome
    refine ⟨frame, ⟨frame :: rest, rest⟩, rfl, rfl, 1, by simp, rfl, ?_⟩
    rw [Nat.add_mod, hk, Nat.mod_self, Nat.zero_add, Nat.mod_mod]

end Reel

/-! ## Ticks -/

namespace Replay

section Ticks

variable {frames : List FileName} {k : Nat} {r : Replay}

/-- What the tick with a given number is to show: the frame in turn is published exactly if there is
an audience and its file can be read, and then every endpoint is offered it. -/
structure Shows (frames : List FileName) (k : Nat) (t : Tick) (l : Look) : Prop where
  inTurn : frames[k % frames.length]? = some l.frame
  published_iff : l.published.isSome = true ↔
    Camera.hasAudience t.before = true ∧ (t.files l.frame).isSome = true
  offered : ∀ bytes report, l.published = some (bytes, report) →
    t.files l.frame = some bytes ∧ Camera.Offered bytes t.after report l.endpoints
  unchanged : l.published = none → l.endpoints = t.before ∨ l.endpoints = t.after

theorem shows_look {frame : FileName} (h : frames[k % frames.length]? = some frame) (t : Tick) :
    Shows frames k t (look frame t) := by
  unfold look
  cases haudience : Camera.hasAudience t.before with
  | false =>
    refine ⟨h, by simp [haudience], fun bytes report hsome => ?_, fun _ => .inl rfl⟩
    cases hsome
  | true =>
    cases hfile : t.files frame with
    | none =>
      refine ⟨h, by simp [haudience, hfile], fun bytes report hsome => ?_, fun _ => .inr rfl⟩
      cases hsome
    | some bytes =>
      refine ⟨h, by simp [haudience, hfile], fun bytes' report hsome => ?_, fun hnone => ?_⟩
      · cases hsome
        exact ⟨hfile, Camera.offered_publish bytes t.after⟩
      · cases hnone

/-- A replay that waits for the tick with a given number, which is about the frame in turn. -/
inductive InTurn (frames : List FileName) (k : Nat) : Replay → Prop where
  | waiting {frame : FileName} {reel : Reel} (hframe : frames[k % frames.length]? = some frame)
    (hreel : reel.Taken frames (k + 1)) : InTurn frames k (.waiting frame reel)

theorem inTurn_ofReel {reel : Reel} (h : reel.Taken frames k) (hsome : frames ≠ []) :
    InTurn frames k (ofReel reel) := by
  obtain ⟨frame, reel', hnext, hframe, htaken⟩ := h.next hsome
  rw [ofReel, hnext]
  exact .waiting hframe htaken

/-- **A tick** shows the frame in turn, and the replay waits for the next one. -/
theorem InTurn.step (h : InTurn frames k r) (t : Tick) :
    ∃ l, (r.step t).1 = some l ∧ Shows frames k t l ∧ InTurn frames (k + 1) (r.step t).2 := by
  cases h with
  | @waiting frame reel hframe hreel =>
    have hsome : frames ≠ [] := by
      rintro rfl
      cases hframe
    exact ⟨look frame t, rfl, shows_look hframe t, inTurn_ofReel hreel hsome⟩

/-! ## Any number of ticks -/

/-- What a replay does at some ticks. -/
def looks (r : Replay) : List Tick → List Look
  | [] => []
  | t :: ticks => (r.step t).1.toList ++ (r.step t).2.looks ticks

/-- How it goes on after them. -/
def run (r : Replay) (ticks : List Tick) : Replay := ticks.foldl (fun r t => (r.step t).2) r

theorem InTurn.run (h : InTurn frames k r) (ticks : List Tick) :
    InTurn frames (k + ticks.length) (r.run ticks) := by
  induction ticks generalizing k r with
  | nil => exact h
  | cons t ticks ih =>
    obtain ⟨-, -, -, hnext⟩ := h.step t
    rw [List.length_cons, Nat.add_comm ticks.length, ← Nat.add_assoc]
    exact ih hnext

theorem InTurn.looks (h : InTurn frames k r) (ticks : List Tick) :
    (r.looks ticks).length = ticks.length ∧
      ∀ j t l, ticks[j]? = some t → (r.looks ticks)[j]? = some l → Shows frames (k + j) t l := by
  induction ticks generalizing k r with
  | nil => exact ⟨rfl, fun j t l ht => by cases ht⟩
  | cons t ticks ih =>
    obtain ⟨l, hlook, hshows, hnext⟩ := h.step t
    obtain ⟨hlength, hrest⟩ := ih hnext
    rw [Replay.looks, hlook]
    refine ⟨congrArg Nat.succ hlength, fun j t' l' ht hl => ?_⟩
    cases j with
    | zero =>
      cases ht
      cases hl
      exact hshows
    | succ j =>
      rw [Nat.add_comm j, ← Nat.add_assoc]
      exact hrest j t' l' ht hl

/-- A replay that has neither returned nor died: at each tick it has looked at the frame in turn,
and it waits for the next tick with the next frame. -/
structure GoesOn (frames : List FileName) (r : Replay) (ticks : List Tick) : Prop where
  waits : ∃ frame reel, r.run ticks = .waiting frame reel ∧
    frames[ticks.length % frames.length]? = some frame
  looked : (r.looks ticks).length = ticks.length
  shown : ∀ k t l, ticks[k]? = some t → (r.looks ticks)[k]? = some l → Shows frames k t l

theorem InTurn.goesOn (h : InTurn frames 0 r) (ticks : List Tick) : GoesOn frames r ticks := by
  obtain ⟨hlength, hshown⟩ := h.looks ticks
  refine ⟨?_, hlength, fun k t l ht hl => Nat.zero_add k ▸ hshown k t l ht hl⟩
  have hrun := h.run ticks
  rw [Nat.zero_add] at hrun
  generalize r.run ticks = s at hrun
  cases hrun with
  | waiting hframe => exact ⟨_, _, rfl, hframe⟩

theorem run_failed (ticks : List Tick) :
    Replay.failed.run ticks = .failed ∧ Replay.failed.looks ticks = [] := by
  induction ticks with
  | nil => exact ⟨rfl, rfl⟩
  | cons t ticks ih => exact ih

theorem not_goesOn_failed (ticks : List Tick) : ¬GoesOn frames .failed ticks := by
  intro h
  obtain ⟨frame, reel, hwaits, -⟩ := h.waits
  rw [(run_failed ticks).1] at hwaits
  cases hwaits

end Ticks

/-! ## The start -/

section Start

variable {names : List FileName} {framesPerSecond : UInt32}

/-- Whole milliseconds do not divide a second into more than a thousand parts. -/
theorem period?_eq_none_iff : period? framesPerSecond = none ↔ 1000 < framesPerSecond.toNat := by
  have hzero : periodMillis framesPerSecond = 0 ↔ 1000 < framesPerSecond.toNat := by
    rw [periodMillis, Nat.div_eq_zero_iff]
    omega
  rw [← hzero]
  simp [period?]

theorem spawn_of_frames (h : frameNames names ≠ []) :
    spawn (some names) framesPerSecond =
      if 1000 < framesPerSecond.toNat then .failed else ofReel (.new (frameNames names)) := by
  unfold spawn
  simp only [Option.getD_some, List.isEmpty_iff, if_neg h, Option.isNone_iff_eq_none,
    period?_eq_none_iff]

/-- **When a replay goes on for ever.** Where a directory has a frame, its frames are replayed
without an end exactly if there are to be at most a thousand in a second, none counting as one:
after any ticks, whoever is there at each and whatever the files hold, the replay waits for another
one, and at each tick it was the turn of the frame whose place in the order of the names is the
number of the tick, less the rounds that are over. With more frames in a second the replay dies
before the first tick. -/
theorem endless_iff (names : List FileName) (framesPerSecond : UInt32)
    (h : ∃ name ∈ names, FileName.EndsAsFrame name) :
    let frames := frameNames names
    let r := spawn (some names) framesPerSecond
    ((∀ ticks, r.GoesOn frames ticks) ↔ framesPerSecond.toNat ≤ 1000) ∧
    (1000 < framesPerSecond.toNat → ∀ ticks, r.run ticks = .failed ∧ r.looks ticks = []) ∧
    frames.Perm (names.filter FileName.isFrame) ∧ frames.Pairwise (· ≤ ·) ∧
    ∀ name, FileName.isFrame name = true ↔ FileName.EndsAsFrame name := by
  intro frames r
  have hsome : frames ≠ [] := (frameNames_ne_nil_iff names).mpr h
  have hfailed (hfast : 1000 < framesPerSecond.toNat) : r = .failed :=
    (spawn_of_frames hsome).trans (if_pos hfast)
  refine ⟨⟨fun hgoes => ?_, fun hslow ticks => ?_⟩, fun hfast ticks => ?_, perm_frameNames names,
    pairwise_frameNames names, fun name => FileName.isFrame_iff⟩
  · by_contra hfast
    have hdead := hgoes []
    rw [hfailed (Nat.lt_of_not_le hfast)] at hdead
    exact not_goesOn_failed [] hdead
  · have hstart : r = ofReel (.new frames) :=
      (spawn_of_frames hsome).trans (if_neg (Nat.not_lt.mpr hslow))
    rw [hstart]
    exact (inTurn_ofReel (Reel.taken_new frames) hsome).goesOn ticks
  · rw [hfailed hfast]
    exact run_failed ticks

end Start

/-- A directory with two frames. -/
def mixedNames : List FileName :=
  [Text.bytes "b.jpg", Text.bytes "notes.txt", Text.bytes "a.JPEG"]

/-- Nobody is there at the first tick, and at the second one the file cannot be read. -/
def tickGaps : List Tick :=
  let files (readable : Bool) (_ : FileName) : Option (List UInt8) :=
    if readable then some [0xab] else none
  [⟨[Camera.absentAudience], files true, [Endpoint.mixedSubscribers]⟩,
    ⟨[Endpoint.mixedSubscribers], files false, [Endpoint.mixedSubscribers]⟩,
    ⟨[Endpoint.mixedSubscribers], files true, [Endpoint.mixedSubscribers]⟩]

/-- The third tick is about the first frame again, which is then published for the first time. -/
theorem endless_iff_with_gaps :
    let frames := [Text.bytes "a.JPEG", Text.bytes "b.jpg"]
    let r := spawn (some mixedNames) 30
    (∃ name ∈ mixedNames, FileName.EndsAsFrame name) ∧ frameNames mixedNames = frames ∧
      r.GoesOn frames tickGaps ∧
      (r.looks tickGaps).map (fun l => (l.frame, l.published.isSome)) =
        [(Text.bytes "a.JPEG", false), (Text.bytes "b.jpg", false),
          (Text.bytes "a.JPEG", true)] := by
  intro frames r
  have hframe : ∃ name ∈ mixedNames, FileName.EndsAsFrame name :=
    ⟨Text.bytes "b.jpg", List.mem_cons_self, FileName.isFrame_iff.mp (by decide)⟩
  have hnames : frameNames mixedNames = frames :=
    frameNames_eq mixedNames (by decide) (by decide)
  have hstart : r = ofReel (.new frames) := by
    rw [← hnames]
    exact (spawn_of_frames (hnames ▸ List.cons_ne_nil _ _)).trans (if_neg (by decide))
  have hgoes : r.GoesOn (frameNames mixedNames) tickGaps :=
    (endless_iff mixedNames 30 hframe).1.mpr (by decide) tickGaps
  refine ⟨hframe, hnames, hnames ▸ hgoes, ?_⟩
  rw [hstart]
  decide

/-- More frames than a second has milliseconds are accepted by the command line, but there is no
clock for them: the replay of a directory with a frame has died before its first tick. -/
theorem replay_lost_to_fast_frames :
    let names := [Text.bytes "a.jpg"]
    let start := Startup.launch ["--camera-frames=frames", "--camera-fps=1001"] (fun _ => none)
      (fun _ => .error .notFound) fun _ => .ok ()
    (∃ u, start = .ok u ∧ Service.replay? u (fun _ => some names) = some .failed) ∧
      (∃ name ∈ names, FileName.EndsAsFrame name) ∧ ¬GoesOn (frameNames names) .failed [] := by
  intro names start
  have hframe : ∃ name ∈ names, FileName.EndsAsFrame name :=
    ⟨Text.bytes "a.jpg", List.mem_cons_self, FileName.isFrame_iff.mp (by decide)⟩
  have hstart : start.toOption.map (fun u => (u.cameraFrames, u.cameraFps)) =
      some (some "frames", 1001) := by
    decide +kernel
  refine ⟨?_, hframe, not_goesOn_failed []⟩
  cases hu : start with
  | error e =>
    rw [hu] at hstart
    cases hstart
  | ok u =>
    rw [hu] at hstart
    obtain ⟨hdirectory, hfps⟩ := Prod.mk.inj (Option.some.inj hstart)
    refine ⟨u, rfl, ?_⟩
    rw [Service.replay?, hdirectory, hfps]
    exact congrArg some
      ((spawn_of_frames ((frameNames_ne_nil_iff names).mpr hframe)).trans (if_pos (by decide)))

end Replay

end DeviceRelay
