import DeviceRelay.Service
import DeviceRelay.Startup.Launch

/-!
# The program

The program reads its command line, and serves one control client on its standard streams: each
line of its input is a text of that client, and each message for the client is a line of its
output. It ends with its input.
-/

namespace DeviceRelay.Program

/-- The variables of the environment that matter. -/
def readVariables : IO (List (String × String)) := do
  let names := Startup.hostVariable :: Setting.all.map Setting.environmentName
  let values ← names.mapM fun name => do return (name, ← IO.getEnv name)
  return values.filterMap fun (name, value) => value.map fun text => (name, text)

/-- Why the system refused a file. -/
def fileError : IO.Error → FileError
  | .noFileOrDirectory .. => .notFound
  | .inappropriateType .. => .isDirectory
  | e => .other (toString e)

/-- The bytes of a file. -/
def readFile (path : String) : IO (Except FileError (List UInt8)) := do
  try return .ok (← IO.FS.readBinFile path).toList
  catch e => return .error (fileError e)

/-- Opens a log file for more lines. -/
def openLog (path : String) : IO (Except FileError Unit) := do
  try
    let _ ← IO.FS.Handle.mk path .append
    return .ok ()
  catch e => return .error (fileError e)

/-- What was found at each path. -/
abbrev Found (α : Type) := List (String × Except FileError α)

def Found.at {α : Type} (found : Found α) (path : String) : Except FileError α :=
  (List.lookup path found).getD (.error .notFound)

/-- The size of a directory on the usual file systems. -/
def directorySize : UInt64 := 4096

/-- The log as it is now. -/
def readLog : Option String → IO (Option LogSource)
  | none => return none
  | some path => do
    match ← readFile path with
    | .ok bytes => return some ⟨path, .file bytes⟩
    | .error .isDirectory => return some ⟨path, .directory directorySize⟩
    | .error _ => return some ⟨path, .missing⟩

/-- A message as a line. -/
def line : Message → Option String
  | .data f => f.text?
  | .ping _ | .pong _ | .close _ => none

def writeAll (messages : List Message) : IO Unit := do
  for m in messages do
    match line m with
    | some text => IO.println text
    | none => pure ()

/-- Serves a client until its input ends. -/
partial def serve (input : IO.FS.Stream) (logFile : Option String) (id : ClientId)
    (s : Service) : IO Unit := do
  let text ← input.getLine
  if text.isEmpty then return
  let now := Duration.ofMillis (← IO.monoMsNow)
  let seed ← IO.rand 0 UInt32.size
  let (messages, s) := s.exchange id text.trimAscii.toString (← readLog logFile) now seed
  writeAll messages
  serve input logFile id s

/-- Runs a device that has started. -/
def run (u : Startup) : IO UInt32 := do
  let now := Duration.ofMillis (← IO.monoMsNow)
  match Service.start u "127.0.0.1" .unreachable now with
  | .error e =>
    IO.eprintln ("Error: failed to start relays\n\nCaused by:\n    " ++ e.message)
    return 1
  | .ok s =>
    let (id, s) := s.accept
    let (messages, s) := s.settle id (← readLog u.logFile) now 0
    writeAll messages
    serve (← IO.getStdin) u.logFile id s
    return 0

/-- Tells why a device does not start. -/
def fail (e : LaunchFailure) : IO UInt32 := do
  match e with
  | .usage .help =>
    IO.println "Usage: beach-pier [OPTIONS]"
    for s in Setting.all do
      IO.println ("  --" ++ s.name)
  | .usage .version => IO.println ("beach-pier " ++ HostDevice.version)
  | .usage e => IO.eprintln ("error: " ++ e.message)
  | .startup e => e.report.forM fun text => IO.eprintln text
  return UInt32.ofNat e.exitCode

/-- The settings of the command line, if it has no fault. -/
def optionsOf (arguments : List String) (environment : String → Option String) : List Options :=
  (Options.parse arguments environment).toOption.toList

/-- Acts on a command line. The files that it names are read before. -/
def start (arguments : List String) : IO UInt32 := do
  let defined ← readVariables
  let environment (name : String) : Option String := List.lookup name defined
  let options := optionsOf arguments environment
  let paths := options.flatMap fun o => o.configFile.toList ++ o.caCertificate.toList
  let logs := options.flatMap fun o => o.logFile.toList
  let files : Found (List UInt8) ← paths.mapM fun path => do return (path, ← readFile path)
  let probe := Startup.launch arguments environment files.at fun _ => .ok ()
  let opened : Found Unit ←
    if probe.toOption.isSome then logs.mapM fun path => do return (path, ← openLog path)
    else pure []
  match Startup.launch arguments environment files.at opened.at with
  | .error e => fail e
  | .ok u => run u

end DeviceRelay.Program

def main (arguments : List String) : IO UInt32 := DeviceRelay.Program.start arguments
