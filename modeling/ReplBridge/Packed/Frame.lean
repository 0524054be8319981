import ReplBridge.Packed.Checksum
import ReplBridge.Packed.Sequences
import ReplBridge.Packed.Stored

/-!
**Reading frames.**

A frame has a header, which says how far back bytes are copied from, maybe how large the content is,
and whether a checksum follows.  Then come the blocks: bytes as they are, one byte that is repeated,
or a packed block.  Several frames may stand one after the other, and frames that are to be skipped
between them.

What was read before a fault counts.

Main definitions:

* `Packed.Header`, `Packed.Header.read` — what a frame begins with;
* `Packed.Reading` — what was read, and the fault that ended it;
* `Packed.decode` — reading frames.
-/

set_option autoImplicit false

namespace ReplBridge.Packed

/-- The first bytes of a text, all of which have to be there, and the rest. -/
def exactly (n : Nat) (s : Bytes) : Except Fault (Bytes × Bytes) :=
  let taken := s.take n
  if taken.length < n then .error .truncated else .ok (taken, s.drop n)

/-! ### Headers -/

/-- What a frame begins with. -/
structure Header where
  /-- How far back bytes may be copied from. -/
  window : Nat
  dictionary : Nat
  /-- How large the content is. -/
  size : Option Nat
  hasChecksum : Bool
  deriving DecidableEq, Repr

namespace Header

def minWindow : Nat := 1024

def maxWindow : Nat := 536870912

def maxContent : Nat := 68719476736

/-- The window that a byte describes. -/
def windowOf (b : UInt8) : Nat :=
  let base := 1024 <<< (b.toNat / 8)
  base + base / 8 * (b.toNat % 8)

/-- How many bytes the number of the dictionary takes. -/
def dictionaryWidth (descriptor : Nat) : Nat :=
  match descriptor % 4 with
  | 3 => 4
  | n => n

/-- How many bytes the size of the content takes. -/
def sizeWidth (descriptor : Nat) (single : Bool) : Nat :=
  match descriptor / 64 with
  | 0 => if single then 1 else 0
  | 1 => 2
  | 2 => 4
  | _ => 8

/-- The size of the content; one of two bytes begins at 256. -/
def sizeOf (s : Bytes) : Option Nat :=
  match s.length with
  | 0 => none
  | 2 => some (number s + 256)
  | _ => some (number s)

/-- Checks the window: one that is written is not too large; without one it is as large as the
content. -/
def checkWindow (written size : Option Nat) : Except Fault Nat :=
  let window := match written with
    | some w => w
    | none => max (size.getD 0) minWindow
  if written.isSome && maxWindow < window then .error .windowExceeded
  else if written.isNone && maxContent < window then .error .tooLarge
  else if window < minWindow then .error .windowTooSmall
  else .ok window

/-- **Reads the header of a frame** from behind the magic number on. -/
def read (s : Bytes) : Except Fault (Header × Bytes) := do
  let (descriptor, s) ← exactly 1 s
  let d := number descriptor
  let single := d / 32 % 2 = 1
  if d / 8 % 2 = 1 then .error .reservedBit
  else
    let (window, s) ← exactly (if single then 0 else 1) s
    let (dictionary, s) ← exactly (dictionaryWidth d) s
    let (size, s) ← exactly (sizeWidth d single) s
    let size := sizeOf size
    let window ← checkWindow (window.head?.map windowOf) size
    if number dictionary != 0 then .error .unknownDictionary
    else if maxWindow < window then .error .tooLarge
    else return ({ window, dictionary := number dictionary, size, hasChecksum := d / 4 % 2 = 1 }, s)

end Header

/-! ### Blocks -/

/-- The content of a frame so far, and what the next block needs of the blocks before. -/
structure Content where
  /-- The content, in parts, the last one first. -/
  parts : List Bytes := []
  bytes : Array UInt8 := #[]
  /-- The code of the literals. -/
  tree : Option Huffman := none
  codes : Codes := {}
  /-- The last distances. -/
  recent : Recent := {}
  deriving Repr

namespace Content

def add (part : Bytes) : Content → Content
  | { parts, bytes, tree, codes, recent } =>
    { parts := part :: parts, bytes := part.foldl Array.push bytes, tree, codes, recent }

/-- Adds the content of a packed block. -/
def unpack (window : Nat) (s : Bytes) : Content → Except Fault Content
  | { parts, bytes, tree, codes, recent } => do
    let (literals, tree, s) ← Literals.read window tree s
    let limit := min window maxBlock
    let (sequences, codes, recent) ← Sequences.decode limit literals.length codes recent s
    let before := bytes.size
    let bytes ← Sequences.execute window before sequences literals bytes
    let part := (bytes.extract before bytes.size).toList
    return { parts := part :: parts, bytes, tree, codes, recent }

end Content

/-- A block as it is written: bytes as they are, one byte that is repeated, or packed bytes. -/
inductive Block where
  | raw (bytes : Bytes)
  | repeated (times : Nat) (byte : UInt8)
  | packed (bytes : Bytes)
  deriving DecidableEq, Repr

namespace Block

/-- Reads a block, whether it is the last, and what stands behind it. -/
def read (window : Nat) (s : Bytes) : Except Fault (Bool × Block × Bytes) := do
  let (head, s) ← exactly 3 s
  let n := number head
  let isLast := n % 2 = 1
  let size := n / 8
  let tooLarge := maxBlock < size || window < size
  match n / 2 % 4 with
  | 0 =>
    if tooLarge then .error .windowExceeded
    else
      let (bytes, s) ← exactly size s
      return (isLast, .raw bytes, s)
  | 1 =>
    if tooLarge then .error .windowExceeded
    else
      let (byte, s) ← exactly 1 s
      return (isLast, .repeated size (byte.headD 0), s)
  | 2 =>
    if tooLarge then .error .blockTooBig
    else if size < 2 then .error .blockTooSmall
    else
      let (bytes, s) ← exactly size s
      return (isLast, .packed bytes, s)
  | _ => .error .reservedBlock

def addTo (window : Nat) (c : Content) : Block → Except Fault Content
  | .raw bytes => .ok (c.add bytes)
  | .repeated times byte => .ok (c.add (List.replicate times byte))
  | .packed bytes => c.unpack window bytes

end Block

/-! ### Frames -/

/-- What was read: its content, and the fault that ended it. -/
structure Reading where
  /-- The content, in parts, the last one first. -/
  parts : List Bytes := []
  fault : Option Fault := none
  deriving Repr

def Reading.content (r : Reading) : Bytes := r.parts.reverse.flatten

/-- The checksum behind the last block, if there is one. -/
def readChecksum (h : Header) (isLast : Bool) (s : Bytes) : Except Fault (Option Nat × Bytes) :=
  if isLast && h.hasChecksum then (exactly 4 s).map fun (sum, s) => (some (number sum), s)
  else .ok (none, s)

/-- What is wrong with the content of a frame after a block. -/
def fault? (h : Header) (isLast : Bool) (checksum : Option Nat) (c : Content) : Option Fault :=
  let exceeds := (h.size.map fun size => decide (size < c.bytes.size)).getD false
  let differs := isLast && (h.size.map (· != c.bytes.size)).getD false
  let wrong := (checksum.map (· != Checksum.low c.parts.reverse.flatten)).getD false
  if exceeds then some .sizeExceeded
  else if differs then some .sizeMismatch
  else if wrong then some .badChecksum
  else none

/-- Reads a block and adds its content: whether it is the last, the checksum behind it, the content,
and what remains. -/
def readBlock (h : Header) (c : Content) (s : Bytes) :
    Except Fault (Bool × Option Nat × Content × Bytes) := do
  let (isLast, block, s) ← Block.read h.window s
  let (checksum, s) ← readChecksum h isLast s
  return (isLast, checksum, ← block.addTo h.window c, s)

/-- Reads the blocks of a frame: the parts of its content, and what remains. -/
def readBlocks (h : Header) : Nat → Content → Bytes → List Bytes × Except Fault Bytes
  | 0, c, _ => (c.parts, .error .truncated)
  | fuel + 1, c, s =>
    let parts := c.parts
    match readBlock h c s with
    | .error fault => (parts, .error fault)
    | .ok (isLast, checksum, c, s) =>
      match fault? h isLast checksum c with
      | some fault => (c.parts, .error fault)
      | none => if isLast then (c.parts, .ok s) else readBlocks h fuel c s

/-- Whether four bytes begin a frame that is to be skipped. -/
def isSkipped (signature : Bytes) : Bool :=
  Bytes.within 0x50 0x5F (signature.headD 0) && signature.drop 1 == [0x2A, 0x4D, 0x18]

/-- What a text begins with, from the signature of a frame on: a frame that is to be skipped, or one
with its header; and what stands behind that. -/
inductive Start where
  | skipped (rest : Bytes)
  | frame (header : Header) (rest : Bytes)
  deriving Repr

/-- Reads the signature of a frame and its header. -/
def readStart (s : Bytes) : Except Fault Start := do
  let (signature, s) ← exactly 4 s
  if isSkipped signature then
    let (size, s) ← exactly 4 s
    let (_, s) ← exactly (number size) s
    return .skipped s
  else if signature != magic then .error .badMagic
  else
    let (h, s) ← Header.read s
    return .frame h s

/-- Reads frames one after the other. -/
def readFrames : Nat → Reading → Bytes → Reading
  | 0, r, _ => r
  | fuel + 1, r, s =>
    if s.isEmpty then r
    else
      match readStart s with
      | .error fault => { r with fault := some fault }
      | .ok (.skipped s) => readFrames fuel r s
      | .ok (.frame h s) =>
        match readBlocks h (s.length + 1) {} s with
        | (parts, .error fault) => { parts := parts ++ r.parts, fault := some fault }
        | (parts, .ok s) => readFrames fuel { r with parts := parts ++ r.parts } s

/-- **Reads frames.**  Nothing at all is no frame and no fault. -/
def decode (s : Bytes) : Reading := readFrames (s.length + 1) {} s

end ReplBridge.Packed
