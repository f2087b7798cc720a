/-!
# What the command line sets

Every setting has a name on the command line and a variable of the environment, and a form that its
text must have.

* `Setting.check`: whether a text is acceptable for a setting.
* `UsageError`: why a command line is not acted on.
-/

namespace DeviceRelay

/-- What a text of a setting looks like. -/
inductive ValueForm where
  /-- On or off; on the command line the name alone is on. -/
  | flag
  | text
  /-- A path, which is not empty. -/
  | path
  /-- A number below 2 to the 32. -/
  | word32
  /-- A number below 2 to the 64. -/
  | word64
  deriving DecidableEq, Repr

inductive Setting where
  | listenAddress | hostname | deviceId | authToken | logFile | configFile | cloudUrl | cloudToken
  | cloudEnabled | tunnelAll | caCertificate | cameraFrames | cameraFps | wirelessStats
  | shutdownGrace
  deriving DecidableEq, Repr

/-- Why a command line is not acted on. Help and version are asked for. -/
inductive UsageError where
  | help
  | version
  | unknownArgument (text : String)
  | missingValue (setting : Setting)
  /-- A text that is none of those that a setting may have. -/
  | unacceptable (setting : Setting) (text : String)
  | badNumber (setting : Setting) (text : String)
  | repeated (setting : Setting)
  /-- A value behind a name that takes none. -/
  | unexpectedValue (name text : String)
  deriving DecidableEq, Repr

namespace ValueForm

/-- The value of decimal digits, of which there is at least one. -/
def digits? (s : List Char) : Option Nat :=
  if !s.isEmpty && s.all Char.isDigit then
    some (s.foldl (fun n c => n * 10 + (c.toNat - '0'.toNat)) 0)
  else none

/-- A number with a plus in front or none. -/
def natural? : List Char → Option Nat
  | '+' :: s => digits? s
  | s => digits? s

/-- A number below 2 to the 32. A zero may have a minus. -/
def word32? (text : String) : Option UInt32 :=
  let n := match text.toList with
    | '-' :: s => (digits? s).filter (· = 0)
    | s => natural? s
  (n.filter (· < UInt32.size)).map UInt32.ofNat

/-- A number below 2 to the 64. -/
def word64? (text : String) : Option UInt64 :=
  ((natural? text.toList).filter (· < UInt64.size)).map UInt64.ofNat

def flag? : String → Option Bool
  | "true" => some true
  | "false" => some false
  | _ => none

end ValueForm

namespace Setting

/-- All settings, in the order in which the environment is read. -/
def all : List Setting :=
  [listenAddress, hostname, deviceId, authToken, logFile, configFile, cloudUrl, cloudToken,
    cloudEnabled, tunnelAll, caCertificate, cameraFrames, cameraFps, wirelessStats, shutdownGrace]

/-- The name on the command line, behind two dashes. -/
def name : Setting → String
  | listenAddress => "listen-addr"
  | hostname => "hostname"
  | deviceId => "device-id"
  | authToken => "auth-token"
  | logFile => "log-file"
  | configFile => "config"
  | cloudUrl => "cloud-url"
  | cloudToken => "cloud-token"
  | cloudEnabled => "cloud-enabled"
  | tunnelAll => "tunnel-all"
  | caCertificate => "ca-cert"
  | cameraFrames => "camera-frames"
  | cameraFps => "camera-fps"
  | wirelessStats => "wireless-stats"
  | shutdownGrace => "shutdown-grace-secs"

def ofName? (name : String) : Option Setting := all.find? fun s => s.name = name

/-- The variable of the environment that stands in for a setting. -/
def environmentName (s : Setting) : String :=
  "BEACH_PIER_" ++ s.name.map fun c => if c = '-' then '_' else c.toUpper

def form : Setting → ValueForm
  | cloudEnabled | tunnelAll => .flag
  | logFile | configFile | caCertificate | cameraFrames | wirelessStats => .path
  | cameraFps => .word32
  | shutdownGrace => .word64
  | _ => .text

/-- Whether a text is acceptable, and why not. -/
def check (s : Setting) (text : String) : Except UsageError Unit :=
  match s.form with
  | .text => .ok ()
  | .path => if text.isEmpty then .error (.unacceptable s text) else .ok ()
  | .flag =>
    if (ValueForm.flag? text).isSome then .ok () else .error (.unacceptable s text)
  | .word32 => if (ValueForm.word32? text).isSome then .ok () else .error (.badNumber s text)
  | .word64 => if (ValueForm.word64? text).isSome then .ok () else .error (.badNumber s text)

end Setting

namespace UsageError

/-- Asking for help or for the version is no failure. -/
def exitCode : UsageError → Nat
  | help | version => 0
  | _ => 2

/-- One line about what is wrong. -/
def message : UsageError → String
  | help | version => ""
  | unknownArgument text => "unexpected argument: " ++ text
  | missingValue s => "a value is required for --" ++ s.name
  | unacceptable s text => "invalid value for --" ++ s.name ++ ": " ++ text
  | badNumber s text => "invalid number for --" ++ s.name ++ ": " ++ text
  | repeated s => "--" ++ s.name ++ " cannot be used multiple times"
  | unexpectedValue name text => "unexpected value for --" ++ name ++ ": " ++ text

end UsageError

end DeviceRelay
