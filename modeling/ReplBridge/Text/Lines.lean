import ReplBridge.Text.Bytes

/-!
**Lines of bounded length.**

A text is read line by line.  A line ends at a newline, which is not part of it, and neither is one
carriage return before the newline; what stands after the last newline is a line too unless it is
empty.  Reading stops for good at a line that does not fit into a buffer.
-/

set_option autoImplicit false

namespace ReplBridge.Lines

/-- A line from its bytes, last first. -/
def ofReversed : Bytes → Bytes
  | 0x0D :: line => line.reverse
  | line => line.reverse

/-- Reads on after `size` bytes of a line, last first, and the lines before it, last first. -/
def scanFrom (limit : Nat) : Nat → Bytes → List Bytes → Bytes → List Bytes × Bool
  | _, line, done, [] =>
    ((if line.isEmpty then done else ofReversed line :: done).reverse, false)
  | size, line, done, b :: rest =>
    if b == Bytes.newline then scanFrom limit 0 [] (ofReversed line :: done) rest
    else if limit ≤ size + 1 then (done.reverse, true)
    else scanFrom limit (size + 1) (b :: line) done rest

/-- **The lines of a text**, each of less than `limit` bytes, and whether reading stopped at one
that is longer. -/
def scan (limit : Nat) (s : Bytes) : List Bytes × Bool := scanFrom limit 0 [] [] s

end ReplBridge.Lines
