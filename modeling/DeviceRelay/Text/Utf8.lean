/-!
# UTF-8

`Text.bytes` encodes a text, `Text.decodeLossy` decodes any bytes, and `Text.decode?` decodes
bytes that are well formed. Decoding cuts the bytes into pieces, each a character or a malformed
piece; a malformed piece is a longest start of some character, or one byte that starts none. The
lossy reading puts the replacement character in the place of each malformed piece.
-/

namespace DeviceRelay.Text

/-- The bytes of a text. -/
def bytesOf (s : List Char) : List UInt8 := s.flatMap String.utf8EncodeChar

def bytes (s : String) : List UInt8 := bytesOf s.toList

/-- A character of which some bytes have come: the bits so far, how many bytes are still to come,
and the range in which the next one must lie. -/
structure Pending where
  bits : Nat
  missing : Nat
  low : UInt8
  high : UInt8
  deriving DecidableEq, Repr

/-- What a byte starts, where no character is pending. -/
inductive Start where
  | whole (c : Char)
  | pending (p : Pending)
  | malformed
  deriving DecidableEq, Repr

/-- The first byte of a character fixes its length, and for some first bytes the range of the
second one, so that no character has two encodings and no surrogate has any. -/
def Start.ofByte (b : UInt8) : Start :=
  let n := b.toNat
  if n < 0x80 then .whole (Char.ofNat n)
  else if 0xc2 ≤ n ∧ n ≤ 0xdf then .pending ⟨n % 0x20, 1, 0x80, 0xbf⟩
  else if n = 0xe0 then .pending ⟨n % 0x10, 2, 0xa0, 0xbf⟩
  else if n = 0xed then .pending ⟨n % 0x10, 2, 0x80, 0x9f⟩
  else if 0xe1 ≤ n ∧ n ≤ 0xef then .pending ⟨n % 0x10, 2, 0x80, 0xbf⟩
  else if n = 0xf0 then .pending ⟨n % 0x08, 3, 0x90, 0xbf⟩
  else if 0xf1 ≤ n ∧ n ≤ 0xf3 then .pending ⟨n % 0x08, 3, 0x80, 0xbf⟩
  else if n = 0xf4 then .pending ⟨n % 0x08, 3, 0x80, 0x8f⟩
  else .malformed

/-- A pending character that takes the byte: another pending one, or the whole character. -/
def Pending.take (p : Pending) (b : UInt8) : Start :=
  let bits := p.bits * 0x40 + b.toNat % 0x40
  if p.missing ≤ 1 then .whole (Char.ofNat bits)
  else .pending ⟨bits, p.missing - 1, 0x80, 0xbf⟩

/-- The pieces of some bytes, in reverse in front of `done`: a character, or none for a malformed
piece. -/
def pieces (done : List (Option Char)) : (pending : Option Pending) → List UInt8 →
    List (Option Char)
  | none, [] => done.reverse
  | some _, [] => (none :: done).reverse
  | pending, b :: bytes =>
    let continues := pending.any fun p => p.low ≤ b && b ≤ p.high
    let done := if pending.isSome && !continues then none :: done else done
    let next :=
      match pending with
      | some p => if continues then p.take b else .ofByte b
      | none => .ofByte b
    match next with
    | .whole c => pieces (some c :: done) none bytes
    | .pending p => pieces done (some p) bytes
    | .malformed => pieces (none :: done) none bytes

/-- The character that stands for what cannot be decoded. -/
def replacement : Char := '\ufffd'

/-- The text of any bytes. -/
def decodeLossy (bytes : List UInt8) : String :=
  String.ofList ((pieces [] none bytes).map fun p => p.getD replacement)

/-- The text of well-formed bytes. -/
def decode? (bytes : List UInt8) : Option String :=
  let ps := pieces [] none bytes
  if ps.all Option.isSome then some (String.ofList (ps.filterMap id)) else none

end DeviceRelay.Text
