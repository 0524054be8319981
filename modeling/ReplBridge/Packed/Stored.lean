import ReplBridge.Packed.Literals

/-!
**Frames of stored blocks.**

The content of a file is kept in a frame: a magic number, a header, and blocks, of which the last
is marked.  The blocks that are written here hold their content as it is.  A frame may be written bit
by bit, and one that is not finished can be read as far as it goes.
-/

set_option autoImplicit false

namespace ReplBridge.Packed

def magic : Bytes := [0x28, 0xB5, 0x2F, 0xFD]

/-- What a frame begins with: the magic number, no options, and how much a block may hold. -/
def header : Bytes := magic ++ [0x00, 0x38]

/-- Three bytes of a number, the lowest first. -/
def littleEndian3 (n : Nat) : Bytes :=
  [UInt8.ofNat n, UInt8.ofNat (n / 256), UInt8.ofNat (n / 65536)]

def block (isLast : Bool) (content : Bytes) : Bytes :=
  littleEndian3 (8 * content.length + (if isLast then 1 else 0)) ++ content

/-- Blocks for a content, none of which is the last. -/
def blocks (content : Bytes) : Bytes := (Bytes.pieces maxBlock content).flatMap (block false)

/-- The last block, which is empty. -/
def finalBlock : Bytes := block true []

end ReplBridge.Packed
