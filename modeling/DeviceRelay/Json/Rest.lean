/-!
# What is left of a text

A reader takes something from the front of a text and gives back what it has left. A rest is known
to be shorter than its text, which is why the loops of a reader end.

* `Json.Rest`: what is left where something has been taken.
* `Json.Remainder`: what is left where perhaps nothing has been taken.
* `Json.Rest.after`: a rest of a rest is a rest of the whole text.
-/

namespace DeviceRelay.Json

/-- What is left of a text once something has been taken from its front. -/
abbrev Rest (s : List Char) := {r : List Char // r.length < s.length}

/-- What is left of a text from whose front something may have been taken. -/
abbrev Remainder (s : List Char) := {r : List Char // r.length ≤ s.length}

theorem length_le_self (s : List Char) : s.length ≤ s.length := Nat.le_refl _

theorem length_le_cons (c : Char) (s : List Char) : s.length ≤ (c :: s).length := Nat.le_succ _

/-- Nothing has been taken. -/
def Remainder.whole (s : List Char) : Remainder s := ⟨s, length_le_self s⟩

/-- One character more has been taken. -/
def Remainder.past {s : List Char} (r : Remainder s) (c : Char) : Rest (c :: s) :=
  ⟨r.1, Nat.lt_succ_of_le r.2⟩

/-- The first character has been taken. -/
def Rest.tail (c : Char) (s : List Char) : Rest (c :: s) := (Remainder.whole s).past c

/-- A rest that is shorter than a text is shorter than anything the text was cut from. -/
def Rest.widen {s t : List Char} (r : Rest s) (h : s.length ≤ t.length) : Rest t :=
  ⟨r.1, Nat.lt_of_lt_of_le r.2 h⟩

/-- One character more has been taken. -/
def Rest.past {s : List Char} (r : Rest s) (c : Char) : Rest (c :: s) :=
  r.widen (length_le_cons c s)

/-- More has been taken from a rest. -/
def Rest.after {s : List Char} (r : Rest s) (t : Rest r.1) : Rest s :=
  ⟨t.1, Nat.lt_trans t.2 r.2⟩

end DeviceRelay.Json
