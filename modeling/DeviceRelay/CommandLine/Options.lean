import DeviceRelay.CommandLine.Setting

/-!
# Reading the command line

A setting is given as its name with its value behind an equals sign, or with its value as the next
argument, unless that starts with a dash. Behind two dashes alone no names follow. A setting that
the command line leaves out may be given by the environment, and has its usual value otherwise.

A value that stands as an argument of its own is looked at only when the argument behind it is
known, so that an unknown argument wins over a bad value before it.

* `Options.parse`: the settings of a command line.
-/

namespace DeviceRelay

namespace CommandLine

/-- What an argument looks like. -/
inductive Argument where
  | endOfNames
  | long (name : String) (attached : Option String)
  | short (letter : Char)
  | plain
  deriving DecidableEq, Repr

def Argument.ofText (text : String) : Argument :=
  match text.toList with
  | ['-', '-'] => .endOfNames
  | '-' :: '-' :: s =>
    .long (String.ofList (s.takeWhile (· ≠ '=')))
      ((s.dropWhile (· ≠ '=')).tail?.map String.ofList)
  | '-' :: c :: _ => .short c
  | _ => .plain

/-- What a name stands for. -/
inductive Word where
  | setting (s : Setting)
  | help
  | version
  deriving DecidableEq, Repr

def Word.ofName? (name : String) : Option Word :=
  match name with
  | "help" => some .help
  | "version" => some .version
  | _ => (Setting.ofName? name).map .setting

def Word.ofLetter? : Char → Option Word
  | 'h' => some .help
  | 'V' => some .version
  | _ => none

/-- The settings given so far, with their texts, the last one first. -/
abbrev Given := List (Setting × String)

/-- A setting whose name was read and whose value is not settled yet. -/
inductive Pending where
  | none
  | awaiting (s : Setting)
  | holding (s : Setting) (text : String)
  deriving DecidableEq, Repr

def accept (given : Given) (s : Setting) (text : String) : Except UsageError Given :=
  if (given.lookup s).isSome then .error (.repeated s)
  else (s.check text).map fun _ => (s, text) :: given

/-- Settles what is pending. -/
def Pending.resolve (p : Pending) (given : Given) : Except UsageError Given :=
  match p with
  | .none => .ok given
  | .awaiting s => .error (.missingValue s)
  | .holding s text => accept given s text

/-- A name that takes no value, or whose value follows. -/
def startWord (given : Given) : Word → Except UsageError (Pending × Given)
  | .help => .error .help
  | .version => .error .version
  | .setting s =>
    if s.form = .flag then (accept given s "true").map fun given => (.none, given)
    else .ok (.awaiting s, given)

/-- A name with its value behind an equals sign. -/
def attach (p : Pending) (given : Given) (name text : String) (w : Word) :
    Except UsageError Given :=
  match w with
  | .help | .version => .error (.unexpectedValue name text)
  | .setting s =>
    if s.form = .flag then .error (.unexpectedValue name text)
    else do accept (← p.resolve given) s text

/-- Reads arguments from left to right. -/
def readArguments (p : Pending) (given : Given) : List String → Except UsageError Given
  | [] => p.resolve given
  | text :: rest =>
    match Argument.ofText text with
    | .endOfNames =>
      match rest with
      | [] => p.resolve given
      | text :: _ => .error (.unknownArgument text)
    | .plain =>
      match p with
      | .awaiting s => readArguments (.holding s text) given rest
      | _ => .error (.unknownArgument text)
    | .short c =>
      match Word.ofLetter? c with
      | none => .error (.unknownArgument text)
      | some w => do
        let (p, given) ← startWord (← p.resolve given) w
        readArguments p given rest
    | .long name attached =>
      match Word.ofName? name, attached with
      | none, _ => .error (.unknownArgument text)
      | some w, some value => do readArguments .none (← attach p given name value w) rest
      | some w, none => do
        let (p, given) ← startWord (← p.resolve given) w
        readArguments p given rest

/-- Adds what the environment says about settings that are not given. -/
def readEnvironment (environment : String → Option String) (given : Given) :
    List Setting → Except UsageError Given
  | [] => .ok given
  | s :: rest =>
    match given.lookup s, environment s.environmentName with
    | none, some text => do readEnvironment environment (← accept given s text) rest
    | _, _ => readEnvironment environment given rest

end CommandLine

/-- The settings of a command line; `none` is a setting that nothing gives. -/
structure Options where
  listenAddress : String
  hostname : Option String
  deviceId : Option String
  authToken : Option String
  logFile : Option String
  configFile : Option String
  cloudUrl : Option String
  cloudToken : Option String
  cloudEnabled : Bool
  tunnelAll : Bool
  caCertificate : Option String
  cameraFrames : Option String
  cameraFps : UInt32
  wirelessStats : String
  /-- In seconds. -/
  shutdownGrace : UInt64
  deriving DecidableEq, Repr

namespace Options

open CommandLine

/-- Settings that were given, and the usual values of the others. -/
def ofGiven (given : Given) : Options :=
  let text? (s : Setting) : Option String := given.lookup s
  let flag (s : Setting) : Bool := ((text? s).bind ValueForm.flag?).getD false
  { listenAddress := (text? .listenAddress).getD "0.0.0.0:8080"
    hostname := text? .hostname
    deviceId := text? .deviceId
    authToken := text? .authToken
    logFile := text? .logFile
    configFile := text? .configFile
    cloudUrl := text? .cloudUrl
    cloudToken := text? .cloudToken
    cloudEnabled := flag .cloudEnabled
    tunnelAll := flag .tunnelAll
    caCertificate := text? .caCertificate
    cameraFrames := text? .cameraFrames
    cameraFps := ((text? .cameraFps).bind ValueForm.word32?).getD 5
    wirelessStats := (text? .wirelessStats).getD "/proc/net/wireless"
    shutdownGrace := ((text? .shutdownGrace).bind ValueForm.word64?).getD 2 }

/-- The settings of a command line, with the environment for those that it leaves out. -/
def parse (arguments : List String) (environment : String → Option String) :
    Except UsageError Options := do
  let given ← readArguments .none [] arguments
  return ofGiven (← readEnvironment environment given Setting.all)

end Options

end DeviceRelay
