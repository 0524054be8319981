import ReplBridge.Text.Decimal

/-!
**Hosts that are given by numbers.**

A host may be given by four decimal numbers with dots between them, or by eight groups of
hexadecimal digits with colons between them.  In the second form one run of zero groups may be left
out, the last two groups may be written as four decimal numbers, and the name of a zone may follow
after a percent sign.
-/

set_option autoImplicit false

namespace ReplBridge.Host

/-! ### Four numbers -/

/-- The byte `:`. -/
def colon : UInt8 := 0x3A

/-- One of the four numbers: at most 255, without a leading zero. -/
def byte? (digits : Bytes) : Option Nat :=
  if digits.length ≤ 3 && (digits.length = 1 || digits.head? != some 0x30) then
    (Decimal.nat? digits).filter (· < 256)
  else none

/-- **The numbers of a host that is given by four of them.** -/
def quad? (host : Bytes) : Option (List Nat) :=
  ((Bytes.split [0x2E] host).mapM byte?).filter (·.length = 4)

/-! ### Eight groups -/

/-- The value of a group: one to four hexadecimal digits. -/
def group? (digits : Bytes) : Option Nat :=
  if digits.isEmpty || 4 < digits.length then none
  else digits.foldlM (fun n b => (Bytes.hexValue? b).map (16 * n + ·)) 0

/-- The groups of a text in which none is left out; the last two may be written as four numbers if
`atEnd` says that the host ends here. -/
def run? (atEnd : Bool) : List Bytes → Option (List Nat)
  | [] => some []
  | [last] =>
    match group? last, atEnd, quad? last with
    | some n, _, _ => some [n]
    | none, true, some [a, b, c, d] => some [256 * a + b, 256 * c + d]
    | _, _, _ => none
  | part :: rest => do
    let n ← group? part
    let ns ← run? atEnd rest
    return n :: ns

/-- The groups on one side of those left out. -/
def side? (atEnd : Bool) (text : Bytes) : Option (List Nat) :=
  if text.isEmpty then some [] else run? atEnd (Bytes.split [colon] text)

/-- **The groups of a host that is given by eight of them**, those left out being zero; at least one
is left out where two colons stand together. -/
def groups? (host : Bytes) : Option (List Nat) :=
  match Bytes.cut? [colon, colon] host with
  | none => (side? true host).filter (·.length = 8)
  | some (left, right) => do
    let ls ← side? false left
    let rs ← side? true right
    if ls.length + rs.length < 8 then
      return ls ++ List.replicate (8 - ls.length - rs.length) 0 ++ rs
    else none

/-! ### Either form -/

/-- A host that is given by four numbers, or by eight groups in a zone that may be nameless. -/
inductive Numeric where
  | quad (numbers : List Nat)
  | groups (values : List Nat) (zone : Bytes)
  deriving DecidableEq, Repr

namespace Numeric

/-- **The host that a text gives by numbers**, if it does.  A zone that is given has a name. -/
def read? (host : Bytes) : Option Numeric :=
  match quad? host with
  | some numbers => some (.quad numbers)
  | none =>
    match Bytes.cut? [0x25] host with
    | none => (groups? host).map fun values => .groups values []
    | some (address, zone) =>
      if zone.isEmpty then none else (groups? address).map fun values => .groups values zone

/-- The same host by four numbers, if its groups stand for them. -/
def settle : Numeric → Numeric
  | .groups [0, 0, 0, 0, 0, 0xFFFF, a, b] _ => .quad [a / 256, a % 256, b / 256, b % 256]
  | n => n

/-- Four numbers with dots between them. -/
def quadText (numbers : List Nat) : Bytes := Bytes.join [0x2E] (numbers.map Decimal.ofNat)

/-- The digits of a group, without leading zeros. -/
def groupText (n : Nat) : Bytes := (Nat.toDigits 16 n).map Bytes.ascii

/-- How many zeros a list begins with. -/
def leadingZeros (values : List Nat) : Nat := (values.takeWhile (· = 0)).length

/-- Where the longest run of zeros begins, and how long it is; the first one of several. -/
def longestZeros : List Nat → Nat × Nat
  | [] => (0, 0)
  | v :: rest =>
    let here := leadingZeros (v :: rest)
    let (start, length) := longestZeros rest
    if here < length then (start + 1, length) else (0, here)

/-- Eight groups with colons between them; the longest run of at least two zeros is left out. -/
def groupsText (values : List Nat) : Bytes :=
  let write (vs : List Nat) : Bytes := Bytes.join [colon] (vs.map groupText)
  let (start, length) := longestZeros values
  if length < 2 then write values
  else write (values.take start) ++ [colon, colon] ++ write (values.drop (start + length))

/-- **The shortest text of a host.** -/
def text : Numeric → Bytes
  | .quad numbers => quadText numbers
  | .groups values zone =>
    groupsText values ++ (if zone.isEmpty then [] else 0x25 :: zone)

/-- Whether a host is this machine. -/
def isHere : Numeric → Bool
  | .quad (127 :: _) => true
  | .quad numbers => numbers == [0, 0, 0, 0]
  | .groups values _ => values == [0, 0, 0, 0, 0, 0, 0, 0] || values == [0, 0, 0, 0, 0, 0, 0, 1]

end Numeric

end ReplBridge.Host
