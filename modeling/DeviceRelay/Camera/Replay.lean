import DeviceRelay.Camera.Hub
import DeviceRelay.Duration
import DeviceRelay.Text.Utf8

/-!
# Replayed camera frames

The frames of a directory are replayed in the order of their names, over and over, one at each tick
of a clock. A tick without an audience shows nothing, and so does one whose file cannot be read;
either way the next tick goes on with the next file.

* `frameNames`: the frames of a directory.
* `Replay.period?`: the time between two ticks.
* `Reel.next?`: the next frame of a round.
* `Replay.spawn`, `Replay.step`: a replay at its start, and what it does at a tick.
-/

namespace DeviceRelay

/-! ## The frames of a directory -/

/-- The name of a file in its directory: bytes, which need not be a text. -/
abbrev FileName := List UInt8

namespace FileName

/-- The byte of a dot. -/
def dot : UInt8 := 46

/-- A capital letter in its small form, any other byte as it is. -/
def lowerByte (b : UInt8) : UInt8 := if 65 ≤ b ∧ b ≤ 90 then b + 32 else b

/-- What follows the last dot of a name, none where that dot is missing or starts the name. -/
def extension? (name : FileName) : Option (List UInt8) :=
  let tail := name.reverse.takeWhile (· ≠ dot)
  if name.length ≤ tail.length + 1 then none else some tail.reverse

/-- Whether an extension is that of a frame, in letters of either form. -/
def isFrameExtension (e : List UInt8) : Bool :=
  let e := e.map lowerByte
  e = Text.bytes "jpg" || e = Text.bytes "jpeg"

/-- Whether a name is that of a frame. -/
def isFrame (name : FileName) : Bool := (extension? name).any isFrameExtension

end FileName

/-- The frames among the names of a directory, in their order. -/
def frameNames (names : List FileName) : List FileName :=
  (names.filter FileName.isFrame).mergeSort fun a b => a ≤ b

/-! ## Rounds -/

/-- Frames that come up one after the other, in one round after the other. -/
structure Reel where
  frames : List FileName
  /-- What is left of this round. -/
  rest : List FileName
  deriving DecidableEq, Repr

namespace Reel

/-- A reel before its first round. -/
def new (frames : List FileName) : Reel := ⟨frames, frames⟩

/-- The next frame, and the reel behind it. Where a round is over the next one starts. -/
def next? (r : Reel) : Option (FileName × Reel) :=
  match r.rest with
  | frame :: rest => some (frame, { r with rest := rest })
  | [] =>
    match r.frames with
    | frame :: rest => some (frame, { r with rest := rest })
    | [] => none

end Reel

/-! ## Replays -/

/-- A task that replays frames. -/
inductive Replay where
  /-- It has returned: there is nothing to replay. -/
  | ended
  /-- It has died: there is no clock for it. -/
  | failed
  /-- It waits for the clock; the next tick is about this frame. -/
  | waiting (frame : FileName) (reel : Reel)
  deriving DecidableEq, Repr

namespace Replay

/-- What a replay finds at a tick. The endpoints may change while it reads a file. -/
structure Tick where
  /-- The endpoints when the clock ticks. -/
  before : List Endpoint
  /-- What the files hold, none for a file that cannot be read. -/
  files : FileName → Option (List UInt8)
  /-- The endpoints when the file was read. -/
  after : List Endpoint

/-- What a replay does at a tick. -/
structure Look where
  frame : FileName
  /-- The bytes that were published and the report on them, if any were. -/
  published : Option (List UInt8 × Report)
  /-- The endpoints afterwards. -/
  endpoints : List Endpoint
  deriving DecidableEq, Repr

/-- Whole milliseconds between two ticks, for a number of frames in a second. More frames than
milliseconds leave no time between them. -/
def periodMillis (framesPerSecond : UInt32) : Nat := 1000 / max framesPerSecond.toNat 1

/-- The period of a clock for so many frames in a second; there is no clock without a pause. -/
def period? (framesPerSecond : UInt32) : Option Duration :=
  let ms := periodMillis framesPerSecond
  if ms = 0 then none else some (.ofMillis ms)

/-- The replay that goes on with a reel. -/
def ofReel (r : Reel) : Replay :=
  match r.next? with
  | some (frame, r) => .waiting frame r
  | none => .ended

/-- A replay at its start. `names` is what the directory holds, none where it cannot be read. -/
def spawn (names : Option (List FileName)) (framesPerSecond : UInt32) : Replay :=
  let frames := frameNames (names.getD [])
  if frames.isEmpty then .ended
  else if (period? framesPerSecond).isNone then .failed
  else ofReel (.new frames)

/-- What is done about the frame in turn: if anybody is there at the tick, its file is read and
published. -/
def look (frame : FileName) (t : Tick) : Look :=
  if !Camera.hasAudience t.before then ⟨frame, none, t.before⟩
  else
    match t.files frame with
    | none => ⟨frame, none, t.after⟩
    | some bytes =>
      let (report, endpoints) := Camera.publish bytes t.after
      ⟨frame, some (bytes, report), endpoints⟩

/-- A tick: what the replay does, if it is still there, and how it goes on. -/
def step (r : Replay) (t : Tick) : Option Look × Replay :=
  match r with
  | .ended => (none, .ended)
  | .failed => (none, .failed)
  | .waiting frame reel => (some (look frame t), ofReel reel)

end Replay

end DeviceRelay
