/-!
# Byte ranges of a log

A read starts at an offset from the beginning or at a distance from the end, and takes a bounded
number of bytes from there. `LogChunk` says which bytes were read and how large the log was, so
that a reader can go on at `next`. Offsets and sizes are 64-bit words.

* `LogStart.resolve`: where a read starts in a log of a given size.
* `LogRange.ofMemory`: the range read from a log in memory, whose end is found by a sum. A sum
  beyond 64 bits is a panic.
* `LogRange.ofFile`: the range read from a log file, whose length is found by a difference.
-/

namespace DeviceRelay

/-- Why a task stops where it is, without a result. -/
inductive Panic where
  /-- A sum is beyond 64 bits. -/
  | addOverflow
  deriving DecidableEq, Repr

def Panic.message : Panic → String
  | .addOverflow => "attempt to add with overflow"

/-- Where a read begins. -/
inductive LogStart where
  /-- At this offset, or at the end of a shorter log. -/
  | at (offset : UInt64)
  /-- This many bytes before the end, or at the beginning of a shorter log. -/
  | tail (bytes : UInt64)
  deriving DecidableEq, Repr

/-- The offset at which a read of a log of `size` bytes begins. -/
def LogStart.resolve (start : LogStart) (size : UInt64) : UInt64 :=
  match start with
  | .at offset => min offset size
  | .tail bytes => if bytes ≤ size then size - bytes else 0

/-- The bytes of one read, from `offset` up to `next`, of a log of `size` bytes. -/
structure LogChunk where
  data : List UInt8
  offset : UInt64
  next : UInt64
  size : UInt64
  eof : Bool
  deriving DecidableEq, Repr

/-- The read that found `data` at `offset`. -/
def LogChunk.new (data : List UInt8) (offset size : UInt64) : LogChunk :=
  let next := offset + UInt64.ofNat data.length
  ⟨data, offset, next, size, size ≤ next⟩

/-- The size of some bytes as a word. -/
def logSize (bytes : List UInt8) : UInt64 := UInt64.ofNat bytes.length

/-- Reads bytes held in memory, up to the end of the range or of the log. -/
def LogRange.ofMemory (bytes : List UInt8) (start : LogStart) (maxBytes : UInt64) :
    Except Panic LogChunk :=
  let size := logSize bytes
  let offset := start.resolve size
  if UInt64.size ≤ offset.toNat + maxBytes.toNat then .error .addOverflow
  else
    let stop := min (offset + maxBytes) size
    .ok (.new ((bytes.take stop.toNat).drop offset.toNat) offset size)

/-- Reads a file: what is left of it from the offset on, but at most `maxBytes`. -/
def LogRange.ofFile (bytes : List UInt8) (start : LogStart) (maxBytes : UInt64) : LogChunk :=
  let size := logSize bytes
  let offset := start.resolve size
  let want := min (size - offset) maxBytes
  .new ((bytes.drop offset.toNat).take want.toNat) offset size

end DeviceRelay
