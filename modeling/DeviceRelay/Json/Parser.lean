import DeviceRelay.Json.Numeral

/-!
# Reading JSON

A recursive-descent reader that says, for a text it refuses, what is wrong and at which byte.
Arrays and objects nest at most `maxDepth` deep. Every reader gives the rest of the text together
with a proof that the rest is shorter, which is why the loops end.

* `Json.parse`: the value a whole text denotes.
* `Json.readValue`, `Json.readString`: a value or a string at the front of a text.
* `Json.skipValue`: the end of a value that nobody looks at. Skipping checks the grammar alone:
  it has no depth limit, no number range, and lets unpaired surrogates pass.
-/

namespace DeviceRelay.Json

/-! ## Blanks and words -/

/-- The four blank characters between tokens. -/
def isBlank (c : Char) : Bool := c = ' ' || c = '\n' || c = '\t' || c = '\r'

def skipBlanks (s : List Char) : List Char := s.dropWhile isBlank

theorem length_skipBlanks_le (s : List Char) : (skipBlanks s).length ≤ s.length :=
  (List.dropWhile_sublist isBlank).length_le

/-- The letters of a word, all of which must come. -/
def readWord : (word s : List Char) → Except Failure (Remainder s)
  | [], s => .ok (.whole s)
  | _ :: _, [] => failAt .endInValue []
  | w :: word, c :: s =>
    if c = w then do
      let r ← readWord word s
      .ok ⟨r.1, Nat.le_succ_of_le r.2⟩
    else failPast .expectedIdent (c :: s)

/-! ## Strings -/

def hexValue? (c : Char) : Option Nat :=
  if c.isDigit then some (c.toNat - '0'.toNat)
  else if 'a' ≤ c ∧ c ≤ 'f' then some (c.toNat - 'a'.toNat + 10)
  else if 'A' ≤ c ∧ c ≤ 'F' then some (c.toNat - 'A'.toNat + 10)
  else none

/-- Four hexadecimal digits. Four bytes are taken whatever they are, so a fault lies four bytes
on, or at the end of a text that has fewer. -/
def readHex (s : List Char) : Reading Nat s :=
  match s with
  | a :: b :: c :: d :: r =>
    match hexValue? a, hexValue? b, hexValue? c, hexValue? d with
    | some w, some x, some y, some z =>
      .ok (((w * 16 + x) * 16 + y) * 16 + z, ⟨r, by simp only [List.length_cons]; omega⟩)
    | _, _, _, _ => .error ⟨.invalidEscape, textSize s - 4⟩
  | _ =>
    if textSize s < 4 then .error ⟨.endInString, 0⟩
    else .error ⟨.invalidEscape, textSize s - 4⟩

/-- The character that a letter after a backslash stands for. -/
def shortEscape? (c : Char) : Option Char :=
  match c with
  | '"' => some '"'
  | '\\' => some '\\'
  | '/' => some '/'
  | 'b' => some '\x08'
  | 'f' => some '\x0c'
  | 'n' => some '\n'
  | 'r' => some '\r'
  | 't' => some '\t'
  | _ => none

/-- The character that an escape denotes, from after its backslash. A code unit that leads a pair
must be followed at once by the unit that ends the pair. -/
def readEscape (s : List Char) : Reading Char s :=
  match s with
  | [] => failAt .endInString []
  | c :: r =>
    if c = 'u' then do
      let (lead, t) ← readHex r
      have ht : t.1.length < (c :: r).length := (t.past c).2
      if 0xdc00 ≤ lead ∧ lead ≤ 0xdfff then failAt .loneSurrogate t.1
      else if lead < 0xd800 ∨ 0xdbff < lead then .ok (Char.ofNat lead, t.past c)
      else
        match h : t.1 with
        | [] => failAt .endInString []
        | '\\' :: 'u' :: u => do
          let (trail, v) ← readHex u
          if trail < 0xdc00 ∨ 0xdfff < trail then failAt .loneSurrogate v.1
          else
            .ok (Char.ofNat (0x10000 + (lead - 0xd800) * 0x400 + (trail - 0xdc00)), ⟨v.1, by
              have hv := v.2
              simp only [h, List.length_cons] at ht ⊢
              omega⟩)
        | ['\\'] => failAt .endInString []
        | '\\' :: u => failPast .endInHexEscape u
        | u => failPast .endInHexEscape u
    else
      match shortEscape? c with
      | some e => .ok (e, .tail c r)
      | none => failAt .invalidEscape r

/-- The characters of a string from after its opening quote, the ones before them in `done`. -/
def readChars {o : List Char} (done : List Char) (s : List Char) (h : s.length ≤ o.length) :
    Reading String o :=
  match s with
  | [] => failAt .endInString []
  | c :: r =>
    have hr : r.length < o.length := h
    if c = '"' then .ok (String.ofList done.reverse, ⟨r, hr⟩)
    else if c = '\\' then
      match readEscape r with
      | .error e => .error e
      | .ok (e, t) => readChars (e :: done) t.1 (Nat.le_of_lt (Nat.lt_trans t.2 hr))
    else if c.toNat < 0x20 then failPast .controlCharacter (c :: r)
    else readChars (c :: done) r (Nat.le_of_lt hr)
termination_by s.length
decreasing_by
  · exact Nat.lt_succ_of_lt t.2
  · exact Nat.lt_succ_self _

/-- A string from after its opening quote. -/
def readString (s : List Char) : Reading String s := readChars [] s (length_le_self s)

/-! ## Values -/

/-- What a blank-free text starts with, and what follows, is no longer than the text. -/
theorem length_of_skipBlanks {s r : List Char} {c : Char} (h : skipBlanks s = c :: r) :
    r.length < s.length := by
  have h1 := length_skipBlanks_le s
  rw [h] at h1
  exact h1

/-- The items of an array from the first item on, the ones before it in `done`. -/
def readItems {o : List Char} (read : (s : List Char) → Reading Json s) (done : List Json)
    (s : List Char) (hs : s.length ≤ o.length) : Reading Json o :=
  match read s with
  | .error e => .error e
  | .ok (item, r) =>
    match h : skipBlanks r.1 with
    | [] => failAt .endInList []
    | c :: t =>
      have ht : t.length < s.length := Nat.lt_trans (length_of_skipBlanks h) r.2
      if c = ']' then
        .ok (.array (item :: done).reverse, ⟨t, Nat.lt_of_lt_of_le ht hs⟩)
      else if c = ',' then
        match h' : skipBlanks t with
        | [] => failAt .endInValue []
        | d :: u =>
          have hu : (d :: u).length < s.length :=
            Nat.lt_of_le_of_lt (length_of_skipBlanks h') ht
          if d = ']' then failPast .trailingComma (d :: u)
          else readItems read (item :: done) (d :: u) (Nat.le_of_lt (Nat.lt_of_lt_of_le hu hs))
      else failPast .expectedCommaInList (c :: t)
termination_by s.length

/-- An array from after its opening bracket. -/
def readArray (read : (s : List Char) → Reading Json s) (s : List Char) : Reading Json s :=
  match h : skipBlanks s with
  | [] => failAt .endInList []
  | c :: r =>
    if c = ']' then .ok (.array [], ⟨r, length_of_skipBlanks h⟩)
    else readItems read [] (c :: r) (length_of_skipBlanks h)

/-- The colon after a key. -/
def readColon (s : List Char) : Reading Unit s :=
  match h : skipBlanks s with
  | [] => failAt .endInObject []
  | c :: r =>
    if c = ':' then .ok ((), ⟨r, length_of_skipBlanks h⟩)
    else failPast .expectedColon (c :: r)

/-- A member of an object from after the opening quote of its key. -/
def readMember (read : (s : List Char) → Reading Json s) (s : List Char) :
    Reading (String × Json) s := do
  let (key, r) ← readString s
  let (_, t) ← readColon r.1
  let (value, u) ← read t.1
  .ok ((key, value), r.after (t.after u))

/-- The members of an object from after the opening quote of a key, the ones before it in
`done`. A later member takes the place of an earlier one with the same key. -/
def readMembers {o : List Char} (read : (s : List Char) → Reading Json s)
    (done : List (String × Json)) (s : List Char) (hs : s.length ≤ o.length) : Reading Json o :=
  match readMember read s with
  | .error e => .error e
  | .ok ((key, value), r) =>
    match h : skipBlanks r.1 with
    | [] => failAt .endInObject []
    | c :: t =>
      have ht : t.length < s.length := Nat.lt_trans (length_of_skipBlanks h) r.2
      if c = '}' then
        .ok (.object (insertMember key value done), ⟨t, Nat.lt_of_lt_of_le ht hs⟩)
      else if c = ',' then
        match h' : skipBlanks t with
        | [] => failAt .endInValue []
        | d :: u =>
          have hu : u.length < s.length := Nat.lt_trans (length_of_skipBlanks h') ht
          if d = '"' then
            readMembers read (insertMember key value done) u
              (Nat.le_of_lt (Nat.lt_of_lt_of_le hu hs))
          else if d = '}' then failPast .trailingComma (d :: u)
          else failPast .keyNotString (d :: u)
      else failPast .expectedCommaInObject (c :: t)
termination_by s.length

/-- An object from after its opening brace. -/
def readObject (read : (s : List Char) → Reading Json s) (s : List Char) : Reading Json s :=
  match h : skipBlanks s with
  | [] => failAt .endInObject []
  | c :: r =>
    have hr : r.length < s.length := length_of_skipBlanks h
    if c = '}' then .ok (.object [], ⟨r, hr⟩)
    else if c = '"' then readMembers read [] r (Nat.le_of_lt hr)
    else failPast .keyNotString (c :: r)

/-- A value that starts with the character `c`, read from what follows it. -/
def readFrom (nested : Option ((s : List Char) → Reading Json s)) (c : Char) (r : List Char) :
    Reading Json (c :: r) :=
  let word (letters : List Char) (v : Json) : Reading Json (c :: r) := do
    let t ← readWord letters r
    .ok (v, t.past c)
  if c = 'n' then word ['u', 'l', 'l'] .null
  else if c = 't' then word ['r', 'u', 'e'] (.bool true)
  else if c = 'f' then word ['a', 'l', 's', 'e'] (.bool false)
  else if c = '-' then do
    let (n, t) ← readNumber true r
    .ok (.number n, t.past c)
  else if c.isDigit then do
    let (n, t) ← readNumber false (c :: r)
    .ok (.number n, t)
  else if c = '"' then do
    let (str, t) ← readString r
    .ok (.string str, t.past c)
  else if c = '[' ∨ c = '{' then
    match nested with
    | none => failPast .tooDeep (c :: r)
    | some read => do
      let (j, t) ← if c = '[' then readArray read r else readObject read r
      .ok (j, t.past c)
  else failPast .expectedValue (c :: r)

/-- A value at the front of a text, with arrays and objects nested at most `depth` deep. -/
def readValue : (depth : Nat) → (s : List Char) → Reading Json s
  | depth, s =>
    match h : skipBlanks s with
    | [] => failAt .endInValue []
    | c :: r => do
      let nested : Option ((s : List Char) → Reading Json s) :=
        match depth with
        | 0 => none
        | depth + 1 => some (readValue depth)
      let (j, t) ← readFrom nested c r
      .ok (j, t.widen (h ▸ length_skipBlanks_le s))

/-- How deep arrays and objects nest. -/
def maxDepth : Nat := 127

/-- What remains after a value must be blank. -/
def finish (s : List Char) : Except Failure Unit :=
  match skipBlanks s with
  | [] => .ok ()
  | r => failPast .trailingCharacters r

/-- The value that a text denotes. -/
def parse (text : String) : Except ReadError Json :=
  let chars := text.toList
  let read : Except Failure Json := do
    let (j, r) ← readValue maxDepth chars
    finish r.1
    .ok j
  read.mapError (Failure.locate chars)

/-! ## Skipping -/

/-- The end of a string that is not kept, from after its opening quote. -/
def skipChars {o : List Char} (s : List Char) (h : s.length ≤ o.length) : Option (Rest o) :=
  match s with
  | [] => none
  | c :: r =>
    have hr : r.length < o.length := h
    if c = '"' then some ⟨r, hr⟩
    else if c = '\\' then
      match r with
      | [] => none
      | 'u' :: t =>
        match readHex t with
        | .ok (_, u) => skipChars u.1 (Nat.le_of_lt (Nat.lt_trans (u.past 'u').2 hr))
        | .error _ => none
      | e :: t =>
        if (shortEscape? e).isSome then
          skipChars t (Nat.le_of_lt (Nat.lt_trans (Rest.tail e t).2 hr))
        else none
    else if c.toNat < 0x20 then none
    else skipChars r (Nat.le_of_lt hr)
termination_by s.length
decreasing_by
  · exact ((u.past 'u').past c).2
  · exact ((Rest.tail e t).past c).2
  · exact (Rest.tail c r).2

/-- A word or a numeral that is not kept, from its first character `c` on. -/
def skipScalar (c : Char) (r : List Char) : Option (Rest (c :: r)) :=
  let word (letters : List Char) : Option (Rest (c :: r)) :=
    match readWord letters r with
    | .ok t => some (t.past c)
    | .error _ => none
  if c = 'n' then word ['u', 'l', 'l']
  else if c = 't' then word ['r', 'u', 'e']
  else if c = 'f' then word ['a', 'l', 's', 'e']
  else if c = '"' then skipChars r (length_le_cons c r)
  else if c = '-' then
    match Numeral.scan true r with
    | .ok (_, t) => some (t.past c)
    | .error _ => none
  else if c.isDigit then
    match Numeral.scan false (c :: r) with
    | .ok (_, t) => some t
    | .error _ => none
  else none

/-- A bracket that is open while a value is skipped. -/
inductive Enclosing where
  | list
  | object
  deriving DecidableEq, Repr

/-- A key that is not kept and its colon, from after the opening quote. -/
def skipKey (s : List Char) : Option (Rest s) :=
  match skipChars s (length_le_self s) with
  | none => none
  | some r =>
    match h : skipBlanks r.1 with
    | ':' :: t => some (r.after ⟨t, length_of_skipBlanks h⟩)
    | _ => none

mutual

/-- The end of a value and of everything that encloses it, the innermost bracket first. -/
def skipInside {o : List Char} (brackets : List Enclosing) (s : List Char)
    (hs : s.length ≤ o.length) : Option (Rest o) :=
  match h : skipBlanks s with
  | [] => none
  | c :: r =>
    have hr : r.length < s.length := length_of_skipBlanks h
    if c = '[' then
      match h' : skipBlanks r with
      | ']' :: t =>
        have ht : t.length < s.length := Nat.lt_trans (length_of_skipBlanks h') hr
        skipAfter brackets t (Nat.lt_of_lt_of_le ht hs)
      | _ => skipInside (.list :: brackets) r (Nat.le_of_lt (Nat.lt_of_lt_of_le hr hs))
    else if c = '{' then
      match h' : skipBlanks r with
      | '}' :: t =>
        have ht : t.length < s.length := Nat.lt_trans (length_of_skipBlanks h') hr
        skipAfter brackets t (Nat.lt_of_lt_of_le ht hs)
      | '"' :: t =>
        have ht : t.length < s.length := Nat.lt_trans (length_of_skipBlanks h') hr
        match skipKey t with
        | some u =>
          have hu : u.1.length < s.length := Nat.lt_trans u.2 ht
          skipInside (.object :: brackets) u.1 (Nat.le_of_lt (Nat.lt_of_lt_of_le hu hs))
        | none => none
      | _ => none
    else
      match skipScalar c r with
      | some t =>
        have ht : t.1.length < s.length := Nat.lt_of_lt_of_le t.2 hr
        skipAfter brackets t.1 (Nat.lt_of_lt_of_le ht hs)
      | none => none
termination_by s.length

/-- What follows a skipped value: a comma and the next value, or the end of the innermost
bracket. -/
def skipAfter {o : List Char} (brackets : List Enclosing) (s : List Char)
    (hs : s.length < o.length) : Option (Rest o) :=
  match brackets with
  | [] => some ⟨s, hs⟩
  | b :: outer =>
    match h : skipBlanks s with
    | [] => none
    | c :: r =>
      have hr : r.length < s.length := length_of_skipBlanks h
      if c = ',' then
        match b with
        | .list => skipInside (.list :: outer) r (Nat.le_of_lt (Nat.lt_trans hr hs))
        | .object =>
          match h' : skipBlanks r with
          | '"' :: t =>
            have ht : t.length < s.length := Nat.lt_trans (length_of_skipBlanks h') hr
            match skipKey t with
            | some u =>
              have hu : u.1.length < s.length := Nat.lt_trans u.2 ht
              skipInside (.object :: outer) u.1 (Nat.le_of_lt (Nat.lt_trans hu hs))
            | none => none
          | _ => none
      else if (c = ']' ∧ b = .list) ∨ (c = '}' ∧ b = .object) then
        skipAfter outer r (Nat.lt_trans hr hs)
      else none
termination_by s.length

end

/-- The end of a value at the front of a text. -/
def skipValue (s : List Char) : Option (Rest s) := skipInside [] s (length_le_self s)

end DeviceRelay.Json
