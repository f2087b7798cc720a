import DeviceRelay.Text.Quoted

/-!
# Why a JSON text cannot be read

`Json.Fault` lists the causes, `Json.Failure` adds how many bytes of the text were still unread,
and `Json.ReadError` gives that place as a line and a column. Columns count bytes from the start
of the line, so the place is one past the offending byte.
-/

namespace DeviceRelay.Json

/-- A value of another kind than the reader wants, as the message names it. -/
inductive Found where
  | unit
  | bool (b : Bool)
  | integer (i : Int)
  | float (text : String)
  | string (s : String)
  | sequence
  | map
  deriving DecidableEq, Repr

inductive Fault where
  | endInValue
  | endInString
  | endInList
  | endInObject
  | expectedValue
  | expectedIdent
  | expectedColon
  | expectedCommaInList
  | expectedCommaInObject
  | keyNotString
  | trailingComma
  | trailingCharacters
  | invalidNumber
  | numberOutOfRange
  | controlCharacter
  | invalidEscape
  | loneSurrogate
  | endInHexEscape
  | tooDeep
  /-- A value of the wrong kind. -/
  | invalidType (found : Found) (wanted : String)
  /-- A value of the right kind that the wanted type cannot hold. -/
  | invalidValue (found : Found) (wanted : String)
  | unknownVariant (name : String) (known : List String)
  deriving DecidableEq, Repr

def Found.text : Found → String
  | .unit => "null"
  | .bool b => s!"boolean `{b}`"
  | .integer i => s!"integer `{i}`"
  | .float text => s!"floating point `{text}`"
  | .string s => "string " ++ Text.quoted s
  | .sequence => "sequence"
  | .map => "map"

def Fault.text : Fault → String
  | .endInValue => "EOF while parsing a value"
  | .endInString => "EOF while parsing a string"
  | .endInList => "EOF while parsing a list"
  | .endInObject => "EOF while parsing an object"
  | .expectedValue => "expected value"
  | .expectedIdent => "expected ident"
  | .expectedColon => "expected `:`"
  | .expectedCommaInList => "expected `,` or `]`"
  | .expectedCommaInObject => "expected `,` or `\x7d`"
  | .keyNotString => "key must be a string"
  | .trailingComma => "trailing comma"
  | .trailingCharacters => "trailing characters"
  | .invalidNumber => "invalid number"
  | .numberOutOfRange => "number out of range"
  | .controlCharacter => "control character (\\u0000-\\u001F) found while parsing a string"
  | .invalidEscape => "invalid escape"
  | .loneSurrogate => "lone leading surrogate in hex escape"
  | .endInHexEscape => "unexpected end of hex escape"
  | .tooDeep => "recursion limit exceeded"
  | .invalidType found wanted => s!"invalid type: {found.text}, expected {wanted}"
  | .invalidValue found wanted => s!"invalid value: {found.text}, expected {wanted}"
  | .unknownVariant name known =>
    s!"unknown variant `{name}`, expected one of " ++
      String.intercalate ", " (known.map fun k => s!"`{k}`")

/-- A cause, and how many bytes of the text the reader had not taken when it gave up. -/
structure Failure where
  cause : Fault
  unread : Nat
  deriving DecidableEq, Repr

/-- A place in a text: the line counts from one, the column is the number of bytes of that line
before the place. -/
structure Position where
  line : Nat
  column : Nat
  deriving DecidableEq, Repr

/-- The place reached after `bytes` bytes of the text, starting from `place`. -/
def Position.advance (place : Position) : (bytes : Nat) → List Char → Position
  | _, [] => place
  | bytes, c :: text =>
    if bytes < c.utf8Size then ⟨place.line, place.column + bytes⟩
    else if c = '\n' then Position.advance ⟨place.line + 1, 0⟩ (bytes - c.utf8Size) text
    else Position.advance ⟨place.line, place.column + c.utf8Size⟩ (bytes - c.utf8Size) text

/-- A failure with its place in the text. -/
structure ReadError where
  cause : Fault
  place : Position
  deriving DecidableEq, Repr

/-- The bytes that a text takes as UTF-8. -/
def textSize (text : List Char) : Nat := text.foldl (fun n c => n + c.utf8Size) 0

def Failure.locate (text : List Char) (failure : Failure) : ReadError :=
  ⟨failure.cause, Position.advance ⟨1, 0⟩ (textSize text - failure.unread) text⟩

def ReadError.message (e : ReadError) : String :=
  s!"{e.cause.text} at line {e.place.line} column {e.place.column}"

end DeviceRelay.Json
