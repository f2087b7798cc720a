import DeviceRelay.Json.Failure

/-!
# Failures at startup

A failure is told from the outside in: first what could not be done, then the cause behind it.

* `StartupError.chain`: the messages, the outermost first.
* `StartupError.report`: the text that the program ends with.
-/

namespace DeviceRelay

/-- Why a file could not be read or opened. -/
inductive FileError where
  | notFound
  | isDirectory
  /-- A part of the path is a file. -/
  | notDirectory
  /-- The bytes are no UTF-8. -/
  | notText
  /-- Any other reason, in the words of the system. -/
  | other (reason : String)
  deriving DecidableEq, Repr

def FileError.message : FileError → String
  | notFound => "No such file or directory (os error 2)"
  | isDirectory => "Is a directory (os error 21)"
  | notDirectory => "Not a directory (os error 20)"
  | notText => "stream did not contain valid UTF-8"
  | other reason => reason

inductive StartupError where
  | listenAddress (text : String)
  | unreadableConfig (path : String) (cause : FileError)
  | malformedConfig (path : String) (cause : Json.ReadError)
  | configNotObject
  | unreadableCertificate (path : String) (cause : FileError)
  | logFile (path : String) (cause : FileError)
  deriving DecidableEq, Repr

namespace StartupError

/-- What could not be done. -/
def message : StartupError → String
  | listenAddress text => "invalid listen address: " ++ text
  | unreadableConfig path _ => "failed to read config " ++ path
  | malformedConfig path _ => "config " ++ path ++ " is not valid JSON"
  | configNotObject => "device config must be a JSON object"
  | unreadableCertificate path _ => "failed to read CA bundle " ++ path
  | logFile path _ => "failed to open log file " ++ path

/-- The cause behind it, where there is one. -/
def cause? : StartupError → Option String
  | listenAddress _ => some "invalid socket address syntax"
  | unreadableConfig _ cause | unreadableCertificate _ cause | logFile _ cause => some cause.message
  | malformedConfig _ cause => some cause.message
  | configNotObject => none

def chain (e : StartupError) : List String := e.message :: e.cause?.toList

/-- The lines that the program ends with. -/
def report (e : StartupError) : List String :=
  ("Error: " ++ e.message) ::
    match e.cause? with
    | none => []
    | some cause => ["", "Caused by:", "    " ++ cause]

end StartupError

/-- The exit code of a program that did not start. -/
def startupFailureCode : Nat := 1

end DeviceRelay
