import ReplBridge.Text.Bytes

/-!
**Lengths of time and their text.**

A duration is a whole number of nanoseconds.  Below a second it is written in the largest of the
units nanosecond, microsecond and millisecond that is not larger than it; from a second on, in
hours, minutes and seconds, without the leading ones that are zero.  The last number may have a
fraction, written without trailing zeros.
-/

set_option autoImplicit false

namespace ReplBridge

/-- A length of time in nanoseconds. -/
abbrev Duration := Int

namespace Duration

/-- A number of milliseconds. -/
def ofMillis (ms : Int) : Duration := ms * 1000000

def ofSeconds (s : Int) : Duration := s * 1000000000

/-- Exactly `places` digits of a number below `10 ^ places`. -/
def padded : Nat → Nat → Bytes
  | 0, _ => []
  | places + 1, n => padded places (n / 10) ++ [UInt8.ofNat (0x30 + n % 10)]

/-- The fraction `n / 10 ^ places`, with its point and without trailing zeros. -/
def fraction (places n : Nat) : Bytes :=
  let digits := Bytes.dropEndWhile (· == 0x30) (padded places n)
  if digits.isEmpty then [] else 0x2E :: digits

/-- A natural number in decimal. -/
def decimal (n : Nat) : Bytes := utf8 (toString n)

/-- The text of a length of time that is not negative. -/
def magnitude (n : Nat) : Bytes :=
  if n == 0 then utf8 "0s"
  else if n < 1000 then decimal n ++ utf8 "ns"
  else if n < 1000000 then decimal (n / 1000) ++ fraction 3 (n % 1000) ++ utf8 "µs"
  else if n < 1000000000 then decimal (n / 1000000) ++ fraction 6 (n % 1000000) ++ utf8 "ms"
  else
    let seconds := n / 1000000000
    let minutes := seconds / 60
    let hours := minutes / 60
    (if hours == 0 then [] else decimal hours ++ utf8 "h")
      ++ (if minutes == 0 then [] else decimal (minutes % 60) ++ utf8 "m")
      ++ decimal (seconds % 60) ++ fraction 9 (n % 1000000000) ++ utf8 "s"

/-- **How a duration is written.** -/
def text (d : Duration) : Bytes :=
  if d < 0 then 0x2D :: magnitude d.natAbs else magnitude d.natAbs

end Duration

end ReplBridge
