import DeviceRelay.Text.Utf8

/-!
# Data frames

A complete WebSocket data frame as handlers see it. Its length counts bytes.
-/

namespace DeviceRelay

inductive Frame where
  | text (s : String)
  | binary (bytes : List UInt8)
  deriving DecidableEq, Repr

namespace Frame

/-- The length in bytes. -/
def length : Frame → Nat
  | .text s => s.utf8ByteSize
  | .binary bytes => bytes.length

def isEmpty (f : Frame) : Bool := f.length = 0

def isBinary : Frame → Bool
  | .text _ => false
  | .binary _ => true

def text? : Frame → Option String
  | .text s => some s
  | .binary _ => none

end Frame

/-- How a peer says that it closes: a code and a reason, or neither. -/
structure CloseReason where
  code : UInt16
  reason : String
  deriving DecidableEq, Repr

/-- A WebSocket message: a data frame or a control frame. -/
inductive Message where
  | data (f : Frame)
  | ping (payload : List UInt8)
  | pong (payload : List UInt8)
  | close (reason : Option CloseReason)
  deriving DecidableEq, Repr

end DeviceRelay
