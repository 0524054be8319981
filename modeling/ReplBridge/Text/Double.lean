import ReplBridge.Text.Decimal

/-!
**Numbers of limited precision.**

These are the numbers `± m * 2 ^ e` with `m < 2 ^ 53` and `-1074 ≤ e ≤ 971`.  A decimal is read as
the nearest of them, a tie going to the even `m`.  A number is written with the fewest digits that
read back as it, and of those with the ones nearest to it: in positional notation from `1e-6` up to
`1e21`, in scientific notation otherwise.  All of this is exact arithmetic on natural numbers.

Main definitions:

* `Double` — such a number;
* `Double.ofRatio?`, `Double.mul?`, `Double.div?` — the nearest number, and arithmetic with it;
* `Double.ofLiteral?` — the number a literal means, unless it is too large;
* `Double.text` — its shortest text.
-/

set_option autoImplicit false

namespace ReplBridge

/-- The number `± mantissa * 2 ^ exponent`. -/
structure Double where
  /-- Whether it is below zero, or the zero below. -/
  negative : Bool := false
  /-- Below `2 ^ 53`. -/
  mantissa : Nat := 0
  /-- Between `-1074` and `971`; the least one that leaves the mantissa whole. -/
  exponent : Int := -1074
  deriving DecidableEq, Repr, Inhabited

namespace Double

def minExponent : Int := -1074

def maxExponent : Int := 971

/-- The quotient rounded to the nearest whole number, a tie going to the even one. -/
def roundDiv (num den : Nat) : Nat :=
  let q := num / den
  let r := num % den
  if 2 * r < den then q
  else if den < 2 * r then q + 1
  else if q % 2 = 0 then q else q + 1

/-- The quotient `num / (den * 2 ^ e)`, rounded. -/
def scaled (num den : Nat) (e : Int) : Nat :=
  if 0 ≤ e then roundDiv num (den * Decimal.twoTo e.toNat) else roundDiv (num * Decimal.twoTo (-e).toNat) den

/-- The number nearest to `num / den`, unless it is too large. -/
def ofRatio? (negative : Bool) (num den : Nat) : Option Double :=
  if num = 0 then some { negative }
  else
    -- the exponent for which the quotient has 53 bits, or one more
    let guess := (Nat.log2 num : Int) - (Nat.log2 den : Int) - 53
    let e := if scaled num den guess < Decimal.twoTo 53 then guess else guess + 1
    let e := if scaled num den e < Decimal.twoTo 53 then e else e + 1
    let e := max e minExponent
    let m := scaled num den e
    let (m, e) := if m < Decimal.twoTo 53 then (m, e) else (m / 2, e + 1)
    if maxExponent < e then none else some { negative, mantissa := m, exponent := e }

/-- The parts of a number literal: sign, digits, and the power of ten of the last digit. -/
def parts (literal : Bytes) : Bool × Bytes × Int :=
  let (negative, rest) := match literal with
    | 0x2D :: rest => (true, rest)
    | _ => (false, literal)
  let isMark := fun b : UInt8 => b == 0x65 || b == 0x45
  let (significand, tail) := rest.span fun b => !isMark b
  let exponent : Int := match tail with
    | [] => 0
    | _ :: digits => (Decimal.int? digits).getD 0
  let (whole, fraction) := significand.span (· != 0x2E)
  let fraction := fraction.drop 1
  (negative, whole ++ fraction, exponent - fraction.length)

/-- **The number a literal means**, unless it is too large. -/
def ofLiteral? (literal : Bytes) : Option Double :=
  match parts literal with
  | (negative, digits, exponent) =>
    let digits := digits.dropWhile (· == 0x30)
    let n := Decimal.value digits
    -- beyond these bounds the number is too large, or nearest to zero
    if n = 0 || (digits.length : Int) + exponent < -400 then some { negative }
    else if 400 < (digits.length : Int) + exponent then none
    else if 0 ≤ exponent then ofRatio? negative (n * Decimal.tenTo exponent.toNat) 1
    else ofRatio? negative n (Decimal.tenTo (-exponent).toNat)

/-! ### Shortest text -/

/-- Whether `num / den` reads back as the number `m * 2 ^ e`: it lies between the middles to the
two neighbours, and on one of these only if `m` is even. -/
def readsBack (m : Nat) (e : Int) (num den : Nat) : Bool :=
  -- everything is compared in units of 2 ^ (e - 2) / den
  let (num, den) :=
    if 0 ≤ e - 2 then (num, den * Decimal.twoTo (e - 2).toNat) else (num * Decimal.twoTo (2 - e).toNat, den)
  let below := if m = Decimal.twoTo 52 && minExponent < e then 4 * m - 1 else 4 * m - 2
  let above := 4 * m + 2
  if m % 2 = 0 then below * den ≤ num && num ≤ above * den
  else below * den < num && num < above * den

/-- A number as a fraction of whole numbers. -/
def ratio (m : Nat) (e : Int) : Nat × Nat :=
  if 0 ≤ e then (m * Decimal.twoTo e.toNat, 1) else (m, Decimal.twoTo (-e).toNat)

/-- The power of ten `10 ^ k` as a fraction of whole numbers. -/
def power (k : Int) : Nat × Nat :=
  if 0 ≤ k then (Decimal.tenTo k.toNat, 1) else (1, Decimal.tenTo (-k).toNat)

/-- The decimal `d * 10 ^ k` nearest to the number, among the two next to it, if one of them reads
back. -/
def nearest? (m : Nat) (e k : Int) : Option Nat :=
  let (num, den) := ratio m e
  let (pn, pd) := power k
  -- the number in units of 10 ^ k is n / d
  let n := num * pd
  let d := den * pn
  let low := n / d
  let ok := fun c => readsBack m e (c * pn) pd
  let first := roundDiv n d
  let second := if first = low then low + 1 else low
  if ok first then some first else if ok second then some second else none

/-- The number of decimal digits of a number, at least one. -/
def digitCount (n : Nat) : Nat := (toString n).length

/-- The power of ten of the leading digit. -/
def leading (m : Nat) (e : Int) : Int :=
  let (num, den) := ratio m e
  let guess : Int := (digitCount num : Int) - (digitCount den : Int)
  -- the quotient lies between 10 ^ (guess - 1) and 10 ^ (guess + 1)
  let (pn, pd) := power guess
  if den * pn ≤ num * pd then guess else guess - 1

/-- The fewest digits that read back, the last one standing for `10 ^ k` or for one of the `fuel`
powers of ten below: the digits and the power of ten of the last one. -/
def shortestFrom (m : Nat) (e : Int) : Nat → Int → Nat × Int
  | 0, k => ((nearest? m e k).getD 0, k)
  | fuel + 1, k =>
    match nearest? m e k with
    | some d => (d, k)
    | none => shortestFrom m e fuel (k - 1)

/-- The fewest digits that read back, without trailing zeros, and the power of ten of the last. -/
def shortest (m : Nat) (e : Int) : Bytes × Int :=
  let top := leading m e
  let (d, k) := shortestFrom m e 17 top
  let digits := Decimal.ofNat d
  let kept := Bytes.dropEndWhile (· == 0x30) digits
  (kept, k + (digits.length - kept.length : Nat))

def zeros (n : Nat) : Bytes := List.replicate n 0x30

/-- Digits in positional notation, the last one standing for `10 ^ k`. -/
def positional (digits : Bytes) (k : Int) : Bytes :=
  if 0 ≤ k then digits ++ zeros k.toNat
  else
    let places := (-k).toNat
    if places < digits.length then
      digits.take (digits.length - places) ++ 0x2E :: digits.drop (digits.length - places)
    else utf8 "0." ++ zeros (places - digits.length) ++ digits

/-- Digits in scientific notation, the last one standing for `10 ^ k`. -/
def scientific (digits : Bytes) (k : Int) : Bytes :=
  let exponent := k + ((digits.length - 1 : Nat) : Int)
  digits.take 1 ++ (if digits.length ≤ 1 then [] else 0x2E :: digits.drop 1)
    ++ (if exponent < 0 then utf8 "e-" else utf8 "e+") ++ Decimal.ofNat exponent.natAbs

/-- **The shortest text of a number.** -/
def text (x : Double) : Bytes :=
  (if x.negative then utf8 "-" else []) ++
    if x.mantissa = 0 then utf8 "0"
    else
      let (digits, k) := shortest x.mantissa x.exponent
      -- the power of ten of the leading digit decides the notation
      let top := k + ((digits.length - 1 : Nat) : Int)
      if -7 < top && top < 21 then positional digits k else scientific digits k

/-! ### Arithmetic -/

/-- The product of two numbers that are not negative, unless it is too large. -/
def mul? (x y : Double) : Option Double :=
  let (xn, xd) := ratio x.mantissa x.exponent
  let (yn, yd) := ratio y.mantissa y.exponent
  ofRatio? false (xn * yn) (xd * yd)

/-- The quotient of two numbers that are not negative, unless it is too large. -/
def div? (x y : Double) : Option Double :=
  let (xn, xd) := ratio x.mantissa x.exponent
  let (yn, yd) := ratio y.mantissa y.exponent
  if yn = 0 then none else ofRatio? false (xn * yd) (xd * yn)

/-- The whole part of the magnitude of a number. -/
def floor (x : Double) : Nat :=
  let (num, den) := ratio x.mantissa x.exponent
  num / den

/-- Whether the number is zero, of either sign. -/
def isZero (x : Double) : Bool := x.mantissa = 0

end Double

end ReplBridge
