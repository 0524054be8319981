/-!
**Texts as lists of bytes.**

What a compiler prints, what an editor sends and what a path spells need not be well-formed
UTF-8, so every text in this library is a list of bytes.  This module holds the searches and cuts
the other modules share.  Each is total, and each that may meet a long text runs in constant stack.
-/

set_option autoImplicit false

namespace ReplBridge

/-- A text: a list of bytes, not necessarily UTF-8. -/
abbrev Bytes := List UInt8

/-- The UTF-8 bytes of a string. -/
def utf8 (s : String) : Bytes := s.toUTF8.data.toList

namespace Bytes

/-- The byte of an ASCII character. -/
def ascii (c : Char) : UInt8 := UInt8.ofNat c.toNat

/-- The line feed. -/
def newline : UInt8 := 0x0A

def carriageReturn : UInt8 := 0x0D

/-- Whether `b` lies between `lo` and `hi`, ends included. -/
def within (lo hi b : UInt8) : Bool := lo ≤ b && b ≤ hi

def isDigit (b : UInt8) : Bool := within 0x30 0x39 b

/-- The value of a hexadecimal digit of either case. -/
def hexValue? (b : UInt8) : Option Nat :=
  if isDigit b then some (b.toNat - 0x30)
  else if within 0x61 0x66 b then some (b.toNat - 0x61 + 10)
  else if within 0x41 0x46 b then some (b.toNat - 0x41 + 10)
  else none

/-- Whether `b` is a Latin letter of ASCII. -/
def isLetter (b : UInt8) : Bool := within 0x41 0x5A b || within 0x61 0x7A b

/-- The small letter of an ASCII capital; other bytes stay. -/
def lower (b : UInt8) : UInt8 := if within 0x41 0x5A b then b + 0x20 else b

/-- The hexadecimal digit of a value below 16, in small letters. -/
def hexDigit (n : Nat) : UInt8 :=
  if n < 10 then UInt8.ofNat (0x30 + n) else UInt8.ofNat (0x61 + (n - 10))

/-- Two small hexadecimal digits a byte. -/
def hex (s : Bytes) : Bytes :=
  s.flatMap fun b => [hexDigit (b.toNat / 16), hexDigit (b.toNat % 16)]

/-- The bytes that pairs of hexadecimal digits spell. -/
def unhex? (s : Bytes) : Option Bytes :=
  go [] s
where
  /-- Reads pairs, the bytes so far last first. -/
  go (acc : Bytes) : Bytes → Option Bytes
    | [] => some acc.reverse
    | [_] => none
    | a :: b :: rest =>
      match hexValue? a, hexValue? b with
      | some x, some y => go (UInt8.ofNat (16 * x + y) :: acc) rest
      | _, _ => none

/-! ### Searching and cutting -/

/-- Cuts `s` at the leftmost occurrence of `pat`: the text before it and the text after it. -/
def cut? (pat s : Bytes) : Option (Bytes × Bytes) :=
  go [] s
where
  /-- Walks on, the bytes passed so far last first. -/
  go (passed : Bytes) : Bytes → Option (Bytes × Bytes)
    | [] => if pat.isEmpty then some (passed.reverse, []) else none
    | b :: rest =>
      if pat.isPrefixOf (b :: rest) then some (passed.reverse, (b :: rest).drop pat.length)
      else go (b :: passed) rest

/-- What stands after `lead`, if `s` begins with it. -/
def after? (lead s : Bytes) : Option Bytes :=
  if lead.isPrefixOf s then some (s.drop lead.length) else none

/-- Whether `pat` occurs in `s`. -/
def occurs (pat s : Bytes) : Bool := (cut? pat s).isSome

/-- The parts of `s` between the leftmost non-overlapping occurrences of `pat`, which is not
empty.  There is one part more than there are occurrences. -/
def split (pat s : Bytes) : List Bytes :=
  go [] [] 0 s
where
  /-- `done` and `part` are last first; `skip` bytes still belong to an occurrence. -/
  go (done : List Bytes) (part : Bytes) : Nat → Bytes → List Bytes
    | _, [] => (part.reverse :: done).reverse
    | skip + 1, _ :: rest => go done part skip rest
    | 0, b :: rest =>
      if pat.isPrefixOf (b :: rest) then go (part.reverse :: done) [] (pat.length - 1) rest
      else go done (b :: part) 0 rest

/-- Joins parts with `sep` between them. -/
def join (sep : Bytes) (parts : List Bytes) : Bytes := List.intercalate sep parts

/-- Every leftmost non-overlapping occurrence of `old` exchanged for `new`. -/
def replace (old new s : Bytes) : Bytes := join new (split old s)

/-- The text without the trailing bytes that satisfy `p`. -/
def dropEndWhile (p : UInt8 → Bool) (s : Bytes) : Bytes := (s.reverse.dropWhile p).reverse

/-- Cuts at the last byte that satisfies `p`: what stands before it and what stands after it. -/
def cutLast? (p : UInt8 → Bool) (s : Bytes) : Option (Bytes × Bytes) :=
  match s.reverse.span fun b => !p b with
  | (_, []) => none
  | (after, _ :: before) => some (before.reverse, after.reverse)

/-- The pieces of `size` bytes, the last one maybe shorter.  A size of zero counts as one. -/
def pieces (size : Nat) (s : Bytes) : List Bytes :=
  go [] [] 0 s
where
  /-- `done` and `part` are last first, and `part` holds `n` bytes. -/
  go (done : List Bytes) (part : Bytes) (n : Nat) : Bytes → List Bytes
    | [] => if part.isEmpty then done.reverse else (part.reverse :: done).reverse
    | b :: rest =>
      if n + 1 < size then go done (b :: part) (n + 1) rest
      else go ((b :: part).reverse :: done) [] 0 rest

/-- The order of texts by their bytes. -/
def le (a b : Bytes) : Bool := !(b < a : Bool)

/-- Sorted by bytes; equal texts stay as many as they were. -/
def sort (parts : List Bytes) : List Bytes := parts.mergeSort le

end Bytes

end ReplBridge
