import ReplBridge.Text.Bytes

/-!
**Cutting output into frames.**

The compiler prints a sentinel where its prompt would be, so the output of one command is all the
text up to the next sentinel.  The framer keeps what it has not cut in a buffer and looks for
sentinels in it with every chunk.  What was in the buffer before the chunk holds no sentinel, so the
search begins at the first place where one would reach into the new text.
-/

set_option autoImplicit false

namespace ReplBridge.Repl

/-- A framer for one sentinel. -/
structure Framer where
  /-- The text that ends a frame. -/
  sentinel : Bytes
  /-- The text since the last frame. -/
  buffer : Bytes := []
  deriving DecidableEq, Repr

namespace Framer

/-- The text since the last frame. -/
def pending (f : Framer) : Bytes := f.buffer

/-- Cuts `buffer` at its sentinels, of which none begins before `start`: what is left, and the
frames in order.  At most `rounds` sentinels are looked for. -/
def cutAll (sentinel : Bytes) : (rounds start : Nat) → (buffer : Bytes) → Bytes × List Bytes
  | 0, _, buffer => (buffer, [])
  | rounds + 1, start, buffer =>
    match Bytes.cut? sentinel (buffer.drop start) with
    | none => (buffer, [])
    | some (before, rest) =>
      let (left, frames) := cutAll sentinel rounds 0 rest
      (left, (buffer.take start ++ before) :: frames)

/-- **One chunk**, and the frames it completes in order.  A sentinel that was not there before ends
with a byte of the chunk, so there are no more of them than the chunk has bytes. -/
def feed (f : Framer) (chunk : Bytes) : Framer × List Bytes :=
  let start := f.buffer.length + 1 - f.sentinel.length
  let (buffer, frames) := cutAll f.sentinel chunk.length start (f.buffer ++ chunk)
  ({ f with buffer }, frames)

end Framer

end ReplBridge.Repl
