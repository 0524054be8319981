import ReplBridge.Text.Blank
import ReplBridge.Text.Decimal
import ReplBridge.Text.Quoted

/-!
**Messages on a byte stream.**

A message is a header and a body.  The header is lines of the form `name: value` up to an empty
one; the line named `Content-Length` says how many bytes the body has, and all other lines are
passed over.
-/

set_option autoImplicit false

namespace ReplBridge.Wire

/-- The name of the header line that gives the length of the body. -/
def lengthName : Bytes := utf8 "Content-Length"

/-- **A body with its header.** -/
def frame (body : Bytes) : Bytes :=
  lengthName ++ utf8 ": " ++ Decimal.ofNat body.length ++ utf8 "\r\n\r\n" ++ body

/-- The body that a text begins with, its header being the one that `frame` writes, and what stands
behind it. -/
def unframe? (s : Bytes) : Option (Bytes × Bytes) := do
  let (digits, rest) ← Bytes.cut? (utf8 "\r\n\r\n") (← Bytes.after? (lengthName ++ utf8 ": ") s)
  let n ← Decimal.nat? digits
  return (rest.take n, rest.drop n)

/-! ### Faults -/

/-- What can be wrong with a header: a line without a colon, a length that is no number, has more
than 32 bits or is not positive, or no length at all. -/
inductive Fault where
  | noColon (line : Bytes)
  | noNumber (value : Bytes)
  | outOfRange (value : Bytes)
  | notPositive (n : Int)
  | noLength
  deriving DecidableEq, Repr

/-- The wording of a length that cannot be read. -/
def Fault.unreadable (value cause : Bytes) : Bytes :=
  utf8 "failed parsing Content-Length: " ++ value ++ utf8 ": strconv.ParseInt: parsing "
    ++ Quoted.quote value ++ utf8 ": " ++ cause

/-- **The wording of what is wrong with a header.** -/
def Fault.message : Fault → Bytes
  | .noColon line => utf8 "invalid header line " ++ Quoted.quote line
  | .noNumber value => unreadable value (utf8 "invalid syntax")
  | .outOfRange value => unreadable value (utf8 "value out of range")
  | .notPositive n => utf8 "invalid Content-Length: " ++ Decimal.ofInt n
  | .noLength => utf8 "missing Content-Length header"

/-! ### Lines -/

/-- What a line of a header means: the header is over, the body has a length, nothing that matters,
or that it is no header line. -/
inductive Line where
  | last
  | length (n : Nat)
  | other
  | bad (fault : Fault)
  deriving DecidableEq, Repr

/-- The length of a body as its header line spells it: a positive number of 32 bits. -/
def Line.ofLength (value : Bytes) : Line :=
  match Decimal.int? value with
  | none => .bad (.noNumber value)
  | some n =>
    if !Decimal.fits 32 n then .bad (.outOfRange value)
    else if n ≤ 0 then .bad (.notPositive n)
    else .length n.toNat

/-- **The meaning of a line of a header**, without its newline. -/
def Line.read (line : Bytes) : Line :=
  let line := Blank.trim line
  if line.isEmpty then .last
  else
    match Bytes.cut? (utf8 ":") line with
    | none => .bad (.noColon line)
    | some (name, value) =>
      if name == lengthName then ofLength (Blank.trim value) else .other

end ReplBridge.Wire
