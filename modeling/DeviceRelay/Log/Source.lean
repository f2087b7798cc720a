import DeviceRelay.Log.Range

/-!
# Where a log is kept

A log is kept in memory or in a file. A file may be missing, may turn out to be a directory, and
the storage as a whole may be unavailable; each has its error. A read of a log in memory may panic.

* `LogSource.read`: one read of a log.
* `LogSource.append`: more bytes at the end of a log.
-/

namespace DeviceRelay

inductive LogError where
  | notFound
  | unavailable
  /-- The system refused the read. -/
  | io (reason : String)
  deriving DecidableEq, Repr

def LogError.message : LogError → String
  | .notFound => "log file not found"
  | .unavailable => "log storage unavailable"
  | .io reason => "log read failed: " ++ reason

/-- What comes of a read. -/
inductive LogOutcome where
  | ok (chunk : LogChunk)
  | error (e : LogError)
  /-- The task that reads panics. -/
  | panicked (p : Panic)
  deriving DecidableEq, Repr

/-- How the bytes of a log are kept. -/
inductive LogContent where
  | memory (bytes : List UInt8)
  | file (bytes : List UInt8)
  | missing
  /-- A directory, with the size that the system gives for it. -/
  | directory (size : UInt64)
  | unavailable
  deriving DecidableEq, Repr

/-- A log and the path that is shown for it. -/
structure LogSource where
  path : String
  content : LogContent
  deriving DecidableEq, Repr

namespace LogSource

/-- The kind of storage. -/
def storage (l : LogSource) : String :=
  match l.content with
  | .memory _ => "ram"
  | .unavailable => "none"
  | _ => "file"

/-- One read. A directory can be opened, but no byte can be read from it. -/
def read (l : LogSource) (start : LogStart) (maxBytes : UInt64) : LogOutcome :=
  match l.content with
  | .memory bytes =>
    match LogRange.ofMemory bytes start maxBytes with
    | .ok chunk => .ok chunk
    | .error p => .panicked p
  | .file bytes => .ok (LogRange.ofFile bytes start maxBytes)
  | .missing => .error .notFound
  | .directory size =>
    let offset := start.resolve size
    if min (size - offset) maxBytes = 0 then .ok (.new [] offset size)
    else .error (.io "Is a directory (os error 21)")
  | .unavailable => .error .unavailable

/-- More bytes at the end. A file that is missing is created. -/
def append (l : LogSource) (more : List UInt8) : LogSource :=
  match l.content with
  | .memory bytes => { l with content := .memory (bytes ++ more) }
  | .file bytes => { l with content := .file (bytes ++ more) }
  | .missing => { l with content := .file more }
  | .directory _ | .unavailable => l

end LogSource

end DeviceRelay
