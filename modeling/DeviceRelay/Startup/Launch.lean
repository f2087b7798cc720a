import DeviceRelay.Startup.Basic

/-!
# Launching

From the command line to what a device starts with. The command line is read first, then the files
it names, and last the log file is opened.

* `Startup.launch`: what a device starts with, or why it does not start.
* `LaunchFailure.exitCode`, `LaunchFailure.report`: how the program ends then.
-/

namespace DeviceRelay

/-- Why a device does not start. -/
inductive LaunchFailure where
  | usage (e : UsageError)
  | startup (e : StartupError)
  deriving DecidableEq, Repr

namespace LaunchFailure

def exitCode : LaunchFailure → Nat
  | usage e => e.exitCode
  | startup _ => startupFailureCode

/-- The lines of an error report. What is wrong with a command line is told in another way. -/
def report : LaunchFailure → List String
  | usage _ => []
  | startup e => e.report

end LaunchFailure

namespace Startup

/-- The variable of the environment that names the host. -/
def hostVariable : String := "HOSTNAME"

/-- What a device starts with. `openLog` opens a log file for more lines. -/
def launch (arguments : List String) (environment : String → Option String) (read : FileReader)
    (openLog : String → Except FileError Unit) : Except LaunchFailure Startup := do
  let options ← (Options.parse arguments environment).mapError .usage
  let startup ← (ofOptions options (environment hostVariable) read).mapError .startup
  let opened : Except StartupError Unit := match startup.logFile with
    | none => .ok ()
    | some path => (openLog path).mapError (.logFile path)
  opened.mapError .startup
  return startup

end Startup

end DeviceRelay
