import ReplBridge.Text.Double
import ReplBridge.Text.Duration

/-!
**Reading a length of time.**

A length of time is a sum of numbers with units, such as `1h30m` or `1.5s`, and may have a sign.
Every number needs a unit, except that zero may stand alone.  It has to fit in 64 bits.  Of a
fraction as many digits count as fit in 63 bits, and it is turned into nanoseconds with limited
precision, what is left over being dropped.
-/

set_option autoImplicit false

namespace ReplBridge.Duration

/-- What may be wrong with the text of a length of time: it is none, a number has no unit, or there
is no such unit. -/
inductive Malformed where
  | invalid
  | missingUnit
  | unknownUnit (unit : Bytes)
  deriving DecidableEq, Repr

/-- A byte inside quotes: in hexadecimal unless it is a character that can be printed. -/
def shownByte (b : UInt8) : Bytes :=
  if b < 0x20 || 0x80 ≤ b then
    [0x5C, 0x78, Bytes.hexDigit (b.toNat / 16), Bytes.hexDigit (b.toNat % 16)]
  else if b == 0x22 || b == 0x5C then [0x5C, b]
  else [b]

def quoted (s : Bytes) : Bytes := [0x22] ++ s.flatMap shownByte ++ [0x22]

/-- **The wording of what is wrong with a text.** -/
def Malformed.message (text : Bytes) : Malformed → Bytes
  | .invalid => utf8 "time: invalid duration " ++ quoted text
  | .missingUnit => utf8 "time: missing unit in duration " ++ quoted text
  | .unknownUnit unit =>
    utf8 "time: unknown unit " ++ quoted unit ++ utf8 " in duration " ++ quoted text

/-- The units, in nanoseconds; the small ones may be spelled with either sign for micro. -/
def units : List (String × Nat) :=
  [("ns", 1), ("us", 1000), ("µs", 1000), ("μs", 1000), ("ms", 1000000), ("s", 1000000000),
    ("m", 60000000000), ("h", 3600000000000)]

/-- The greatest magnitude that fits. -/
def bound : Nat := Decimal.twoTo 63

/-- Whether a byte belongs to a number. -/
def isNumeric (b : UInt8) : Bool := b == 0x2E || Bytes.isDigit b

/-- The number of limited precision nearest to a whole number. -/
def rounded? (n : Nat) : Option Double := Double.ofRatio? false n 1

/-- The number that the digits of a fraction make, and the power of ten that it counts parts of; as
many digits count as fit.  There is no power if it is too large. -/
def significant (n : Nat) (scale : Option Double) : Bytes → Nat × Option Double
  | [] => (n, scale)
  | d :: rest =>
    let next := Decimal.shift n d
    if (bound - 1) / 10 < n || bound < next then (n, scale)
    else significant next (do (← scale).mul? (← rounded? 10)) rest

/-- The nanoseconds of a fraction of a unit. -/
def portion (unit : Nat) (digits : Bytes) : Nat :=
  let (n, scale) := significant 0 (rounded? 1) digits
  let product : Option Double := do (← rounded? n).mul? (← (← rounded? unit).div? (← scale))
  (product.map Double.floor).getD 0

/-- A number with its unit: how long it is, and what follows it. -/
def component (s : Bytes) : Except Malformed (Nat × Bytes) :=
  let whole := s.takeWhile Bytes.isDigit
  let rest := s.dropWhile Bytes.isDigit
  let (part, rest) := match rest with
    | 0x2E :: more => (more.takeWhile Bytes.isDigit, more.dropWhile Bytes.isDigit)
    | _ => ([], rest)
  let name := rest.takeWhile (!isNumeric ·)
  if bound < Decimal.value whole then .error .invalid
  else if whole.isEmpty && part.isEmpty then .error .invalid
  else if name.isEmpty then .error .missingUnit
  else match units.find? fun u => utf8 u.1 == name with
    | none => .error (.unknownUnit name)
    | some (_, unit) =>
      let n := Decimal.value whole * unit + portion unit part
      if bound < n then .error .invalid else .ok (n, rest.drop name.length)

/-- The sum of numbers with units, beside `sum`. -/
def total : Nat → Nat → Bytes → Except Malformed Nat
  | 0, _, _ => .error .invalid
  | _ + 1, sum, [] => .ok sum
  | fuel + 1, sum, s =>
    match component s with
    | .error why => .error why
    | .ok (n, rest) => if bound < sum + n then .error .invalid else total fuel (sum + n) rest

/-- **The length of time that a text means.** -/
def parse (s : Bytes) : Except Malformed Duration :=
  let (negative, body) := match s with
    | 0x2D :: rest => (true, rest)
    | 0x2B :: rest => (false, rest)
    | _ => (false, s)
  if body == [0x30] then .ok 0
  else if body.isEmpty then .error .invalid
  else match total (body.length + 1) 0 body with
    | .error why => .error why
    | .ok n =>
      if negative then .ok (-(n : Int)) else if n < bound then .ok n else .error .invalid

end ReplBridge.Duration
