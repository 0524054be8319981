import ReplBridge.Text.Bytes

/-!
**Whole numbers in decimal.**

Main definitions:

* `Decimal.ofNat`, `Decimal.ofInt` — a number in decimal;
* `Decimal.nat?` — the number that digits spell;
* `Decimal.int64?` — the number that an optional sign and digits spell, if it fits into 64 bits.
-/

set_option autoImplicit false

namespace ReplBridge.Decimal

def twoTo (k : Nat) : Nat := Nat.pow 2 k

def tenTo (k : Nat) : Nat := Nat.pow 10 k

/-- A natural number in decimal. -/
def ofNat (n : Nat) : Bytes := utf8 (toString n)

/-- An integer in decimal. -/
def ofInt : Int → Bytes
  | .ofNat n => ofNat n
  | .negSucc n => 0x2D :: ofNat (n + 1)

/-- The number that one more digit makes. -/
def shift (n : Nat) (b : UInt8) : Nat := 10 * n + (b.toNat - 0x30)

/-- The value of digits, without a check that they are digits. -/
def value (digits : Bytes) : Nat := digits.foldl shift 0

/-- The number that one or more digits spell. -/
def nat? (s : Bytes) : Option Nat :=
  if s.isEmpty || s.any (!Bytes.isDigit ·) then none else some (value s)

/-- The number that an optional sign and one or more digits spell. -/
def int? : Bytes → Option Int
  | 0x2D :: digits => (nat? digits).map fun n => -(n : Int)
  | 0x2B :: digits => (nat? digits).map Int.ofNat
  | digits => (nat? digits).map Int.ofNat

/-- Whether an integer fits into `bits` bits with a sign. -/
def fits (bits : Nat) (n : Int) : Bool :=
  -(twoTo (bits - 1) : Int) ≤ n && n < (twoTo (bits - 1) : Int)

/-- A whole number cut down to 64 bits with a sign. -/
def wrap64 (n : Int) : Int := Int.bmod n (twoTo 64)

/-- The number that an optional sign and digits spell, if it fits into 64 bits. -/
def int64? (s : Bytes) : Option Int := (int? s).filter (fits 64)

end ReplBridge.Decimal
