import ReplBridge.Text.Bytes

/-!
**Reading bytes as UTF-8.**

A text is read from the left: at each place either the bytes begin with a well-formed encoding of
a Unicode scalar, which is taken whole, or the one byte there is *stray* and is taken alone.
Reading so never fails and loses nothing.
-/

set_option autoImplicit false

namespace ReplBridge.Utf8

/-- What a leading byte announces: the number of bytes that follow it, and the least and greatest
value of the first of these. -/
structure Lead where
  /-- How many bytes follow. -/
  more : Nat
  /-- The least second byte. -/
  lo : UInt8
  /-- The greatest second byte. -/
  hi : UInt8
  deriving DecidableEq, Repr

/-- The announcement of a byte that begins a longer encoding. -/
def lead? (b : UInt8) : Option Lead :=
  if Bytes.within 0xC2 0xDF b then some ⟨1, 0x80, 0xBF⟩
  else if b == 0xE0 then some ⟨2, 0xA0, 0xBF⟩
  else if b == 0xED then some ⟨2, 0x80, 0x9F⟩
  else if Bytes.within 0xE1 0xEF b then some ⟨2, 0x80, 0xBF⟩
  else if b == 0xF0 then some ⟨3, 0x90, 0xBF⟩
  else if Bytes.within 0xF1 0xF3 b then some ⟨3, 0x80, 0xBF⟩
  else if b == 0xF4 then some ⟨3, 0x80, 0x8F⟩
  else none

def isTail (b : UInt8) : Bool := Bytes.within 0x80 0xBF b

/-- What stands at one place of a text: a well-formed scalar, or a byte that begins no well-formed
encoding. -/
inductive Piece where
  | scalar (c : Char)
  | stray (b : UInt8)
  deriving DecidableEq, Repr

/-- The code point with the given payload bits. -/
private def payload (top : Nat) (tails : List UInt8) : Char :=
  Char.ofNat (tails.foldl (fun n b => 64 * n + b.toNat % 64) top)

/-- The piece that `b`, with `rest` behind it, begins, and how many bytes of `rest` belong to it. -/
def pieceAt (b : UInt8) (rest : Bytes) : Piece × Nat :=
  if b < 0x80 then (.scalar (Char.ofNat b.toNat), 0)
  else match lead? b, rest with
    | some ⟨1, _, _⟩, t :: _ =>
      if isTail t then (.scalar (payload (b.toNat % 32) [t]), 1) else (.stray b, 0)
    | some ⟨2, lo, hi⟩, t :: u :: _ =>
      if Bytes.within lo hi t && isTail u then (.scalar (payload (b.toNat % 16) [t, u]), 2)
      else (.stray b, 0)
    | some ⟨3, lo, hi⟩, t :: u :: v :: _ =>
      if Bytes.within lo hi t && isTail u && isTail v then
        (.scalar (payload (b.toNat % 8) [t, u, v]), 3)
      else (.stray b, 0)
    | _, _ => (.stray b, 0)

/-- The scalars and stray bytes of a text, from the left. -/
def pieces (s : Bytes) : List Piece :=
  go [] 0 s
where
  /-- `acc` is last first; `skip` bytes still belong to the piece taken before. -/
  go (acc : List Piece) : Nat → Bytes → List Piece
    | _, [] => acc.reverse
    | skip + 1, _ :: rest => go acc skip rest
    | 0, b :: rest =>
      match pieceAt b rest with
      | (r, skip) => go (r :: acc) skip rest

/-- The UTF-8 bytes of a character. -/
def encode (c : Char) : Bytes := String.utf8EncodeChar c

def Piece.bytes : Piece → Bytes
  | .scalar c => encode c
  | .stray b => [b]

/-- U+FFFD, which stands in for what is not a scalar. -/
def replacement : Char := '�'

/-- The character shown for a piece. -/
def Piece.char : Piece → Char
  | .scalar c => c
  | .stray _ => replacement

/-- Whether no byte of the text is stray. -/
def valid (s : Bytes) : Bool :=
  (pieces s).all fun r => match r with
    | .scalar _ => true
    | .stray _ => false

/-- The text with U+FFFD for each stray byte. -/
def repair (s : Bytes) : Bytes := (pieces s).flatMap fun r => encode r.char

/-- The number of pieces of a text. -/
def length (s : Bytes) : Nat := (pieces s).length

/-- The UTF-8 bytes of a list of characters. -/
def ofChars (cs : List Char) : Bytes := cs.flatMap encode

/-- Whether `s` is the beginning of a well-formed encoding and not yet a whole one. -/
def incomplete : Bytes → Bool
  | [] => true
  | [b] => (lead? b).isSome
  | [b, t] => match lead? b with
    | some l => decide (2 ≤ l.more) && Bytes.within l.lo l.hi t
    | none => false
  | [b, t, u] => match lead? b with
    | some l => decide (3 ≤ l.more) && Bytes.within l.lo l.hi t && isTail u
    | none => false
  | _ => false

end ReplBridge.Utf8
