import ReplBridge.Packed.Huffman

/-!
**The literals of a packed block.**

A packed block begins with the bytes that are not copied from before: as they are, as one byte that
is repeated, or in a code.  A code may be the one of the block before.
-/

set_option autoImplicit false

namespace ReplBridge.Packed

/-- The most bytes that a block may hold. -/
def maxBlock : Nat := 131072

namespace Literals

/-- How literals are written: as they are, as one byte that is repeated, in a code that stands
before them, or in the code of the block before. -/
inductive Kind where
  | raw
  | repeated
  | coded
  | treeless
  deriving DecidableEq, Repr

/-- What stands before the literals. -/
structure Head where
  /-- How they are written. -/
  kind : Kind
  size : Nat
  /-- How many bytes they take up if they are in a code. -/
  packed : Nat := 0
  four : Bool := false
  deriving Repr

/-- The kind that two bits say. -/
def kindOf (b : Nat) : Kind :=
  match b % 4 with
  | 0 => .raw
  | 1 => .repeated
  | 2 => .coded
  | _ => .treeless

/-- A number of `width` bytes without its lowest four bits. -/
def sizes? (width : Nat) (s : Bytes) : Except Fault Nat :=
  let written := s.take width
  if written.length < width then .error .blockTooSmall else .ok (number written / 16)

/-- Reads what stands before the literals. -/
def readHead (s : Bytes) : Except Fault (Head × Bytes) := do
  match s with
  | a :: _ :: _ =>
    let kind := kindOf a.toNat
    let format := a.toNat / 4 % 4
    if kind = .raw || kind = .repeated then
      match format with
      | 1 => return ({ kind, size := ← sizes? 2 s }, s.drop 2)
      | 3 => return ({ kind, size := ← sizes? 3 s }, s.drop 3)
      | _ => return ({ kind, size := a.toNat / 8 }, s.drop 1)
    else
      match format with
      | 2 =>
        let n ← sizes? 4 s
        return ({ kind, size := n % 16384, packed := n / 16384, four := true }, s.drop 4)
      | 3 =>
        let n ← sizes? 5 s
        return ({ kind, size := n % 262144, packed := n / 262144, four := true }, s.drop 5)
      | _ =>
        let n ← sizes? 3 s
        return ({ kind, size := n % 1024, packed := n / 1024, four := format == 1 }, s.drop 3)
  | _ => .error .blockTooSmall

/-- Reads literals in a code. -/
def decode (h : Huffman) (head : Head) (s : Bytes) : Except Fault Bytes := do
  let literals ← if head.four then h.decodeFour head.size s else h.decode head.size s
  if literals.length != head.size then
    .error (.counting ["literal output size mismatch want ", ", got ", ""]
      [head.size, literals.length])
  else return literals

/-- **Reads the literals of a block** in a window: the literals, the code for the next block, and what
stands behind them. -/
def read (window : Nat) (tree : Option Huffman) (s : Bytes) :
    Except Fault (Bytes × Option Huffman × Bytes) := do
  let (head, s) ← readHead s
  if window < head.size || maxBlock < head.size then .error .windowExceeded
  else
    match head.kind with
    | .raw =>
      let literals := s.take head.size
      if literals.length < head.size then .error .blockTooSmall
      else return (literals, tree, s.drop head.size)
    | .repeated =>
      match s with
      | b :: rest => return (List.replicate head.size b, tree, rest)
      | [] => .error .blockTooSmall
    | .coded =>
      let packed := s.take head.packed
      if packed.length < head.packed then .error .blockTooSmall
      else
        let (h, packed) ← Huffman.read packed
        return (← decode h head packed, some h, s.drop head.packed)
    | .treeless =>
      let packed := s.take head.packed
      if packed.length < head.packed then .error .blockTooSmall
      else
        match tree with
        | none =>
          .error (.because "literal block was treeless, but no history was defined")
        | some h => return (← decode h head packed, tree, s.drop head.packed)

end Literals

end ReplBridge.Packed
