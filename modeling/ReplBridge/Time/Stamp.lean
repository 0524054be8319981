import ReplBridge.Text.Duration
import ReplBridge.Text.Decimal

/-!
**Points in time, as they are written.**

A stamp is a date of the Gregorian calendar, a time of day with a fraction of a second, and the
distance from universal time of the clock that shows it.  It is written
`2024-02-29T23:59:59.5+01:00`, with `Z` for a distance of zero.

Reading is more generous than writing: an hour may have one digit, a comma may stand before the
fraction, and of the fraction nine digits count.  A layout says in what else a text may differ.
-/

set_option autoImplicit false

namespace ReplBridge.Time

/-! ### The calendar -/

def isLeap (year : Nat) : Bool := year % 4 == 0 && (year % 100 != 0 || year % 400 == 0)

/-- The number of days of a month, counted from one. -/
def daysIn (month year : Nat) : Nat :=
  if month = 2 then (if isLeap year then 29 else 28)
  else if month = 4 || month = 6 || month = 9 || month = 11 then 30
  else 31

/-- A point in time as a clock shows it. -/
structure Stamp where
  year : Nat := 1
  /-- The month, from one. -/
  month : Nat := 1
  /-- The day, from one. -/
  day : Nat := 1
  hour : Nat := 0
  minute : Nat := 0
  second : Nat := 0
  /-- The nanoseconds of the fraction. -/
  nanos : Nat := 0
  /-- How many minutes the clock is ahead of universal time. -/
  ahead : Int := 0
  deriving DecidableEq, Repr

namespace Stamp

/-! ### Writing -/

/-- The text of the distance from universal time. -/
def zoneText (ahead : Int) : Bytes :=
  if ahead = 0 then utf8 "Z"
  else
    let n := ahead.natAbs
    (if ahead < 0 then 0x2D else 0x2B) :: Duration.padded 2 (n / 60) ++ 0x3A ::
      Duration.padded 2 (n % 60)

/-- **How a stamp is written.** -/
def text (t : Stamp) : Bytes :=
  Duration.padded 4 t.year ++ 0x2D :: Duration.padded 2 t.month ++ 0x2D :: Duration.padded 2 t.day
    ++ 0x54 :: Duration.padded 2 t.hour ++ 0x3A :: Duration.padded 2 t.minute
    ++ 0x3A :: Duration.padded 2 t.second ++ Duration.fraction 9 t.nanos ++ zoneText t.ahead

end Stamp

/-! ### Reading -/

/-- What stands between date and time: a certain byte, or one space or more. -/
inductive Divider where
  | byte (b : UInt8)
  | spaces
  deriving DecidableEq, Repr

/-- How a stamp may be written. -/
structure Layout where
  /-- Whether month, day, minute and second may have one digit. -/
  short : Bool := false
  /-- What stands between date and time. -/
  divider : Divider := .byte 0x54
  /-- Whether the distance from universal time is given. -/
  zoned : Bool := true
  deriving DecidableEq, Repr

/-- A number of two digits, or of one where that is allowed, and what stands behind it. -/
def twoDigits? (short : Bool) : Bytes → Option (Nat × Bytes)
  | a :: b :: rest =>
    if !Bytes.isDigit a then none
    else if Bytes.isDigit b then some (Decimal.value [a, b], rest)
    else if short then some (Decimal.value [a], b :: rest)
    else none
  | [a] => if short && Bytes.isDigit a then some (Decimal.value [a], []) else none
  | [] => none

/-- A number of four digits, and what stands behind it. -/
def fourDigits? (s : Bytes) : Option (Nat × Bytes) :=
  let digits := s.take 4
  if digits.length = 4 && digits.all Bytes.isDigit then some (Decimal.value digits, s.drop 4)
  else none

/-- What stands behind a byte. -/
def pass? (b : UInt8) : Bytes → Option Bytes
  | c :: rest => if c == b then some rest else none
  | [] => none

/-- What stands behind the divider. -/
def Divider.pass? : Divider → Bytes → Option Bytes
  | .byte b, s => Time.pass? b s
  | .spaces, s => (Time.pass? 0x20 s).map (·.dropWhile (· == 0x20))

/-- The nanoseconds of a fraction, if there is one, and what stands behind it. -/
def fraction (s : Bytes) : Nat × Bytes :=
  match s with
  | mark :: rest =>
    let digits := rest.takeWhile Bytes.isDigit
    if (mark == 0x2E || mark == 0x2C) && !digits.isEmpty then
      let kept := digits.take 9
      (Decimal.value kept * Decimal.tenTo (9 - kept.length), rest.drop digits.length)
    else (0, s)
  | [] => (0, s)

/-- The distance from universal time in minutes, which is all that remains. -/
def zone? : Bytes → Option Int
  | [0x5A] => some 0
  | [sign, a, b, colon, c, d] =>
    if colon == 0x3A && (sign == 0x2B || sign == 0x2D) && [a, b, c, d].all Bytes.isDigit then
      let hours := Decimal.value [a, b]
      let minutes := Decimal.value [c, d]
      if 24 < hours || 60 < minutes then none
      else
        let n : Int := 60 * hours + minutes
        some (if sign == 0x2D then -n else n)
    else none
  | _ => none

/-- A date, and what stands behind it. -/
def date? (short : Bool) (s : Bytes) : Option (Stamp × Bytes) := do
  let (year, s) ← fourDigits? s
  let (month, s) ← twoDigits? short (← pass? 0x2D s)
  let (day, s) ← twoDigits? short (← pass? 0x2D s)
  if 1 ≤ month && month ≤ 12 && 1 ≤ day && day ≤ daysIn month year then
    return ({ year, month, day }, s)
  else none

/-- **Reads a stamp.** -/
def Stamp.read? (l : Layout) (s : Bytes) : Option Stamp := do
  let (date, s) ← date? l.short s
  let (hour, s) ← twoDigits? true (← l.divider.pass? s)
  let (minute, s) ← twoDigits? l.short (← pass? 0x3A s)
  let (second, s) ← twoDigits? l.short (← pass? 0x3A s)
  let (nanos, s) := fraction s
  let ahead ← if l.zoned then zone? s else if s.isEmpty then some 0 else none
  if hour < 24 && minute < 60 && second < 60 then
    return { date with hour, minute, second, nanos, ahead }
  else none

end ReplBridge.Time
