import DeviceRelay.Duration

/-!
# Pairing codes

A device shows a claim code that pairs it with an account. The code lives for a limited time; it
is drawn anew when it has expired, when none was drawn yet, and on request.

* `ClaimStore.current`: the code at an instant, drawn from `seed` where a new one is due.
* `ClaimStore.expiresIn`: how long the code last drawn still lives.
-/

namespace DeviceRelay

/-- The symbols of a code, without the easily confused I, L, O, 0 and 1. -/
def claimAlphabet : List Char := "ABCDEFGHJKMNPQRSTUVWXYZ23456789".toList

/-- How many symbols a code has. -/
def claimLength : Nat := 8

/-- How long a code lives: ten minutes. -/
def claimLifetime : Duration := .ofSeconds 600

/-- The symbols chosen by the digits of a seed. -/
def claimSymbols : (count seed : Nat) → List Char
  | 0, _ => []
  | count + 1, seed =>
    let n := claimAlphabet.length
    claimAlphabet.getD (seed % n) 'A' :: claimSymbols count (seed / n)

structure ClaimCode where
  code : String
  issuedAt : Duration
  deriving DecidableEq, Repr

namespace ClaimCode

/-- The code that a seed draws. -/
def draw (seed : Nat) (now : Duration) : ClaimCode :=
  ⟨String.ofList (claimSymbols claimLength seed), now⟩

/-- The time left of a lifetime. A clock that has gone back counts as no time passed. -/
def expiresIn (c : ClaimCode) (now lifetime : Duration) : Duration :=
  lifetime.sub (now.sub c.issuedAt)

end ClaimCode

/-- The code last drawn, and how long codes live. -/
structure ClaimStore where
  lifetime : Duration
  last : Option ClaimCode
  deriving DecidableEq, Repr

namespace ClaimStore

def new (lifetime : Duration) : ClaimStore := ⟨lifetime, none⟩

/-- Whether a new code is due: none was drawn yet, or no time is left of the last one. -/
def stale (s : ClaimStore) (now : Duration) : Bool :=
  s.last.all fun c => (c.expiresIn now s.lifetime).isZero

/-- The live code, drawn from `seed` if one is due or asked for. -/
def current (s : ClaimStore) (rotate : Bool) (now : Duration) (seed : Nat) :
    ClaimCode × ClaimStore :=
  match s.last with
  | some c =>
    if rotate || s.stale now then
      let c := ClaimCode.draw seed now
      (c, { s with last := some c })
    else (c, s)
  | none =>
    let c := ClaimCode.draw seed now
    (c, { s with last := some c })

/-- The time left of the code last drawn, the whole lifetime if there is none. -/
def expiresIn (s : ClaimStore) (now : Duration) : Duration :=
  match s.last with
  | some c => c.expiresIn now s.lifetime
  | none => s.lifetime

end ClaimStore

end DeviceRelay
