import ReplBridge.Text.Bytes

/-!
**A checksum of 64 bits.**

Bytes are taken thirty-two at a time, as four numbers of 64 bits that go into four sums.  The sums are
joined, what is left over is mixed in by eight bytes, by four and one by one, and the result is mixed
once more.  All arithmetic is in 64 bits.
-/

set_option autoImplicit false

namespace ReplBridge.Packed.Checksum

def factor1 : UInt64 := 11400714785074694791

def factor2 : UInt64 := 14029467366897019727

def factor3 : UInt64 := 1609587929392839161

def factor4 : UInt64 := 9650029242287828579

def factor5 : UInt64 := 2870177450012600261

/-- Turns the bits of a number to the left. -/
def turn (n : UInt64) (k : UInt64) : UInt64 := (n <<< k) ||| (n >>> (64 - k))

/-- Adds a number to a sum. -/
def round (sum n : UInt64) : UInt64 := turn (sum + n * factor2) 31 * factor1

def join (hash sum : UInt64) : UInt64 := (hash ^^^ round 0 sum) * factor1 + factor4

/-- The number that bytes make, the lowest first. -/
def number : Bytes → UInt64
  | [] => 0
  | b :: rest => b.toUInt64 + 256 * number rest

/-- The four sums. -/
structure Sums where
  /-- The first sum. -/
  a : UInt64 := factor1 + factor2
  /-- The second sum. -/
  b : UInt64 := factor2
  /-- The third sum. -/
  c : UInt64 := 0
  /-- The fourth sum. -/
  d : UInt64 := 0 - factor1
  deriving Repr

/-- Adds thirty-two bytes to the sums. -/
def Sums.add (s : Sums) (bytes : Bytes) : Sums :=
  { a := round s.a (number (bytes.take 8))
    b := round s.b (number ((bytes.drop 8).take 8))
    c := round s.c (number ((bytes.drop 16).take 8))
    d := round s.d (number ((bytes.drop 24).take 8)) }

def Sums.hash (s : Sums) : UInt64 :=
  join (join (join (join (turn s.a 1 + turn s.b 7 + turn s.c 12 + turn s.d 18) s.a) s.b) s.c) s.d

/-- Mixes eight bytes into a hash. -/
def mix8 (h : UInt64) (bytes : Bytes) : UInt64 :=
  turn (h ^^^ round 0 (number bytes)) 27 * factor1 + factor4

/-- Mixes four bytes into a hash. -/
def mix4 (h : UInt64) (bytes : Bytes) : UInt64 :=
  turn (h ^^^ (number bytes * factor1)) 23 * factor2 + factor3

/-- Mixes one byte into a hash. -/
def mix1 (h : UInt64) (byte : UInt8) : UInt64 :=
  turn (h ^^^ (byte.toUInt64 * factor5)) 11 * factor1

/-- Mixes in what is left over. -/
def tail (h : UInt64) (rest : Bytes) : UInt64 :=
  let eights := rest.length / 8
  let h := (Bytes.pieces 8 (rest.take (8 * eights))).foldl mix8 h
  let rest := rest.drop (8 * eights)
  let (h, rest) := if 4 ≤ rest.length then (mix4 h (rest.take 4), rest.drop 4) else (h, rest)
  rest.foldl mix1 h

/-- Mixes a hash once more. -/
def finish (h : UInt64) : UInt64 :=
  let h := (h ^^^ (h >>> 33)) * factor2
  let h := (h ^^^ (h >>> 29)) * factor3
  h ^^^ (h >>> 32)

/-- **The checksum of some bytes.** -/
def hash (s : Bytes) : UInt64 :=
  let size := s.length
  let whole := size / 32 * 32
  let h :=
    if whole = 0 then factor5
    else ((Bytes.pieces 32 (s.take whole)).foldl Sums.add {}).hash
  finish (tail (h + UInt64.ofNat size) (s.drop whole))

/-- **The half of the checksum that is written down.** -/
def low (s : Bytes) : Nat := (hash s).toNat % 4294967296

end ReplBridge.Packed.Checksum
