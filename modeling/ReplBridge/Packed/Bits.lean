import ReplBridge.Packed.Fault

/-!
**Bits of some bytes.**

Numbers of a few bits each are packed into bytes without space between them.  Some are read from
the first byte on, lowest bits first.  Others are read from the last byte back to the first, highest
bits first; the highest bit that is set in the last byte only says where they begin.

One may read more bits than there are; those beyond are zero, and they are counted.
-/

set_option autoImplicit false

namespace ReplBridge.Packed

/-- The number that bytes make, the lowest first. -/
def number : Bytes → Nat
  | [] => 0
  | b :: rest => b.toNat + 256 * number rest

/-! ### Forward -/

/-- Bits that are read forward. -/
structure Bits where
  /-- The bits at hand; the next one is the lowest. -/
  value : Nat := 0
  /-- How many bits are at hand. -/
  count : Nat := 0
  /-- The bytes behind them. -/
  rest : Bytes
  /-- How many bits were read. -/
  used : Nat := 0
  deriving Repr

namespace Bits

/-- Takes bytes until `n` bits are at hand or there are no more. -/
def gather (n : Nat) : Nat → Nat → Bytes → Nat × Nat × Bytes
  | value, count, [] => (value, count, [])
  | value, count, b :: rest =>
    if n ≤ count then (value, count, b :: rest)
    else gather n (value + (b.toNat <<< count)) (count + 8) rest

/-- The next `n` bits, and the bits with these at hand. -/
def peek (r : Bits) (n : Nat) : Nat × Bits :=
  let (value, count, rest) := gather n r.value r.count r.rest
  (value % (1 <<< n), { r with value, count, rest })

/-- Moves over `n` bits that were looked at. -/
def drop (r : Bits) (n : Nat) : Bits :=
  { r with value := r.value >>> n, count := r.count - n, used := r.used + n }

/-- **Reads `n` bits.** -/
def read (r : Bits) (n : Nat) : Nat × Bits :=
  let (v, r) := r.peek n
  (v, r.drop n)

end Bits

/-! ### Backward -/

/-- Bits that are read backward. -/
structure BitsBack where
  /-- The bits at hand; the next one is the highest. -/
  value : Nat
  /-- How many bits are at hand. -/
  count : Nat
  /-- The bytes before them, the last one first. -/
  rest : Bytes
  /-- How many such bytes there are. -/
  left : Nat
  /-- How many bits were read beyond the first byte. -/
  missing : Nat := 0
  deriving Repr

namespace BitsBack

def ofBytes (s : Bytes) : Except Fault BitsBack :=
  match s.reverse with
  | [] => .error (.because "corrupt stream: too short")
  | last :: rest =>
    if last == 0 then .error (.because "corrupt stream, did not find end of stream")
    else
      let count := Nat.log2 last.toNat
      .ok { value := last.toNat - (1 <<< count), count, rest, left := s.length - 1 }

def remaining (r : BitsBack) : Nat := r.count + 8 * r.left

/-- Takes bytes until `n` bits are at hand or there are no more. -/
def gather (n : Nat) : Nat → Nat → Nat → Bytes → Nat × Nat × Nat × Bytes
  | value, count, left, [] => (value, count, left, [])
  | value, count, left, b :: rest =>
    if n ≤ count then (value, count, left, b :: rest)
    else gather n (256 * value + b.toNat) (count + 8) (left - 1) rest

/-- The next `n` bits, and the bits with these at hand. -/
def peek (r : BitsBack) (n : Nat) : Nat × BitsBack :=
  let (value, count, left, rest) := gather n r.value r.count r.left r.rest
  (if n ≤ count then value >>> (count - n) else value <<< (n - count),
    { r with value, count, left, rest })

/-- Moves over `n` bits that were looked at. -/
def drop (r : BitsBack) (n : Nat) : BitsBack :=
  if n ≤ r.count then
    { r with value := r.value % (1 <<< (r.count - n)), count := r.count - n }
  else { r with value := 0, count := 0, missing := r.missing + (n - r.count) }

/-- **Reads `n` bits.** -/
def read (r : BitsBack) (n : Nat) : Nat × BitsBack :=
  let (v, r) := r.peek n
  (v, r.drop n)

end BitsBack

end ReplBridge.Packed
