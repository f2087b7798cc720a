/-!
# Text in quotes

A text as a diagnostic shows it: between double quotes, with quotes and backslashes escaped, the
common control characters by their letters, and every other character that leaves no mark of its
own by its code point in hexadecimal.
-/

namespace DeviceRelay.Text

/-- The digits of `n` in lower-case hexadecimal. -/
def hexDigits (n : Nat) : String := String.ofList (Nat.toDigits 16 n)

/-- Inclusive ranges of code points without a visible mark of their own: controls, separators,
format characters, combining marks of the common blocks, surrogates, private use and the last two
code points of a plane. -/
def unmarked : List (Nat × Nat) :=
  [(0x00, 0x1f), (0x7f, 0xa0), (0xad, 0xad), (0x300, 0x36f), (0x378, 0x379), (0x483, 0x489),
   (0x591, 0x5bd), (0x600, 0x605), (0x610, 0x61a), (0x61c, 0x61c), (0x64b, 0x65f),
   (0x6dd, 0x6dd), (0x70f, 0x70f), (0x1680, 0x1680), (0x180b, 0x180f), (0x1ab0, 0x1aff),
   (0x1dc0, 0x1dff), (0x2000, 0x200f), (0x2028, 0x202f), (0x205f, 0x206f), (0x20d0, 0x20f0),
   (0x3000, 0x3000), (0x302a, 0x302f), (0x3099, 0x309a), (0xd800, 0xf8ff), (0xfe00, 0xfe0f),
   (0xfe20, 0xfe2f), (0xfeff, 0xfeff), (0xfff0, 0xfffb), (0xfffe, 0xffff), (0x1fffe, 0x1ffff),
   (0xe0000, 0x10ffff)]

def isUnmarked (c : Char) : Bool :=
  unmarked.any fun r => r.1 ≤ c.toNat && c.toNat ≤ r.2

/-- One character between quotes. -/
def quoteChar (c : Char) : String :=
  if c = '"' then "\\\""
  else if c = '\\' then "\\\\"
  else if c = '\n' then "\\n"
  else if c = '\r' then "\\r"
  else if c = '\t' then "\\t"
  else if c = '\x00' then "\\0"
  else if isUnmarked c then "\\u\x7b" ++ hexDigits c.toNat ++ "\x7d"
  else c.toString

def quoted (s : String) : String :=
  "\"" ++ String.join (s.toList.map quoteChar) ++ "\""

end DeviceRelay.Text
