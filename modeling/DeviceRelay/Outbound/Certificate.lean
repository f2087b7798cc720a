/-!
# Certificates

A certificate to pin comes as armoured text: a line that begins it, lines of base-64 digits, and a
line that ends it. The bytes it holds are a sequence of three parts, of which the first two are
sequences and the last is a string of bits; each part states its length.

* `Certificate.bytes?`: the bytes of the first certificate of a text.
* `Certificate.isPinnable`: whether a text holds a certificate.
-/

namespace DeviceRelay.Certificate

/-- The lines of a text, without the blanks at their ends. -/
def lines (text : List UInt8) : List (List UInt8) :=
  (text.splitOn 10).map fun line => (line.reverse.dropWhile fun b => b ≤ 32).reverse

def asciiBytes (s : String) : List UInt8 := s.toList.map fun c => UInt8.ofNat c.toNat

/-- The names under which certificates are armoured. -/
def names : List String := ["CERTIFICATE", "X509 CERTIFICATE", "TRUSTED CERTIFICATE"]

def beginLine (name : String) : List UInt8 := asciiBytes s!"-----BEGIN {name}-----"

def endLine (name : String) : List UInt8 := asciiBytes s!"-----END {name}-----"

/-- The value of a base-64 digit. -/
def digit? (b : UInt8) : Option Nat :=
  if 0x41 ≤ b ∧ b ≤ 0x5a then some (b.toNat - 0x41)
  else if 0x61 ≤ b ∧ b ≤ 0x7a then some (b.toNat - 0x61 + 26)
  else if 0x30 ≤ b ∧ b ≤ 0x39 then some (b.toNat - 0x30 + 52)
  else if b = 0x2b then some 62
  else if b = 0x2f then some 63
  else none

/-- The bytes of base-64 digits in groups of four, of which only the last may be padded. -/
def decode64? : List UInt8 → Option (List UInt8)
  | [] => some []
  | a :: b :: c :: d :: rest =>
    match digit? a, digit? b with
    | some x, some y =>
      let first := UInt8.ofNat (x * 4 + y / 16)
      match digit? c, digit? d with
      | some z, some w =>
        (decode64? rest).map fun tail =>
          first :: UInt8.ofNat (y % 16 * 16 + z / 4) :: UInt8.ofNat (z % 4 * 64 + w) :: tail
      | some z, none =>
        if d = 0x3d ∧ rest = [] then some [first, UInt8.ofNat (y % 16 * 16 + z / 4)] else none
      | none, _ => if c = 0x3d ∧ d = 0x3d ∧ rest = [] then some [first] else none
    | _, _ => none
  | _ => none

/-- The bytes of the first certificate among some lines. -/
def armoured? : (lines : List (List UInt8)) → Option (List UInt8)
  | [] => none
  | line :: rest =>
    match names.find? fun name => beginLine name = line with
    | some name =>
      let (body, tail) := rest.span fun l => l ≠ endLine name
      if tail.isEmpty then none else decode64? body.flatten
    | none => armoured? rest

def bytes? (text : List UInt8) : Option (List UInt8) := armoured? (lines text)

/-- The content of the part at the front of some bytes, which must carry the tag, and what follows
it. A length of 128 or more is given by the number of its bytes and then the bytes. -/
def part? (tag : UInt8) : List UInt8 → Option (List UInt8 × List UInt8)
  | t :: n :: rest =>
    if t ≠ tag then none
    else
      let (size, rest) :=
        if n < 128 then (n.toNat, rest)
        else
          let count := n.toNat - 128
          ((rest.take count).foldl (fun acc b => acc * 256 + b.toNat) 0, rest.drop count)
      if size ≤ rest.length then some (rest.take size, rest.drop size) else none
  | _ => none

/-- The tag of a sequence. -/
def sequenceTag : UInt8 := 0x30

/-- The tag of a string of bits. -/
def bitsTag : UInt8 := 0x03

/-- Whether some bytes are laid out as a certificate. -/
def isLaidOut (bytes : List UInt8) : Bool :=
  (do
    let (body, _) ← part? sequenceTag bytes
    let (_, rest) ← part? sequenceTag body
    let (_, rest) ← part? sequenceTag rest
    let (_, rest) ← part? bitsTag rest
    pure rest.isEmpty).getD false

/-- Whether a text holds a certificate that can be pinned. -/
def isPinnable (text : List UInt8) : Bool := (bytes? text).any isLaidOut

end DeviceRelay.Certificate
