import ReplBridge.Text.Bytes

/-!
**Why packed bytes could not be read.**

Main definitions:

* `Packed.Fault`, `Packed.Fault.message` — the causes and their wording.
-/

set_option autoImplicit false

namespace ReplBridge.Packed

/-- Why packed bytes could not be read to their end.  Reserved bits and kinds of blocks mean nothing,
a window or what has to fit into it may be too large, and the size of the content is the one that the
header says. -/
inductive Fault where
  | badMagic
  | truncated
  | reservedBit
  | windowExceeded
  | windowTooSmall
  | tooLarge
  | unknownDictionary
  | reservedBlock
  | blockTooBig
  | blockTooSmall
  | blockSize
  | sizeExceeded
  | sizeMismatch
  | badChecksum
  | corrupt (detail : Bytes)
  deriving DecidableEq, Repr

namespace Fault

/-- **The wording of a fault.** -/
def message : Fault → Bytes
  | .badMagic => utf8 "invalid input: magic number mismatch"
  | .truncated => utf8 "unexpected EOF"
  | .reservedBit => utf8 "reserved bit set on frame header"
  | .windowExceeded => utf8 "window size exceeded"
  | .windowTooSmall => utf8 "invalid input: window size was too small"
  | .tooLarge => utf8 "decompressed size exceeds configured limit"
  | .unknownDictionary => utf8 "unknown dictionary"
  | .reservedBlock => utf8 "invalid input: reserved block type encountered"
  | .blockTooBig => utf8 "invalid input: compressed size too big"
  | .blockTooSmall => utf8 "block too small"
  | .blockSize => utf8 "unexpected block size"
  | .sizeExceeded => utf8 "frame size exceeded"
  | .sizeMismatch => utf8 "frame size does not match size on stream"
  | .badChecksum => utf8 "CRC check failed"
  | .corrupt detail => detail

/-- A block that means nothing, in words. -/
def because (detail : String) : Fault := .corrupt (utf8 detail)

/-- A block that means nothing, in words with numbers between them. -/
def counting (words : List String) (numbers : List Nat) : Fault :=
  .corrupt (weave words numbers)
where
  /-- The words with the numbers between them. -/
  weave : List String → List Nat → Bytes
    | [], _ => []
    | w :: ws, n :: ns => utf8 w ++ utf8 (toString n) ++ weave ws ns
    | w :: ws, [] => utf8 w ++ weave ws []

end Fault

end ReplBridge.Packed
