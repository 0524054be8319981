import ReplBridge.Packed.Frame
import ReplBridge.Packed.Stored

/-!
**The codec of a transcript.**

A transcript is kept packed.  How it is packed is not its own concern: it hands its lines to an
encoder, which gives out bytes as it likes, and reads what a decoder gives back.  The program packs
with frames of stored blocks, in which everything waits until it is flushed.
-/

set_option autoImplicit false

namespace ReplBridge.Transcript

/-- An encoder, with its states, and the decoder that goes with it. -/
structure Codec (E : Type) where
  /-- An encoder that was given nothing. -/
  fresh : E
  /-- Gives some content to an encoder; what it gives out at once. -/
  write : E → Bytes → E × Bytes
  /-- Makes an encoder give out what it holds back. -/
  flush : E → E × Bytes
  /-- What an encoder gives out at the end. -/
  close : E → Bytes
  /-- The content of what was given out, as far as it goes, and the wording of a fault. -/
  decode : Bytes → Bytes × Option Bytes

/-- An encoder of stored blocks. -/
structure Stored where
  begun : Bool := false
  /-- What waits, the last part first. -/
  waiting : List Bytes := []
  deriving DecidableEq, Repr

namespace Stored

/-- The blocks of what waits, with the beginning of the frame if that is still to come. -/
def blocks (e : Stored) : Bytes :=
  (if e.begun then [] else Packed.header) ++ Packed.blocks e.waiting.reverse.flatten

/-- What waits is given out in blocks of its own; nothing is given out for nothing. -/
def flush (e : Stored) : Stored × Bytes :=
  if e.waiting.isEmpty then (e, []) else ({ begun := true }, e.blocks)

/-- What waits and the end of the frame, if there is one. -/
def close (e : Stored) : Bytes :=
  if e.waiting.isEmpty && !e.begun then [] else e.blocks ++ Packed.finalBlock

end Stored

/-- **Frames of stored blocks.** -/
def stored : Codec Stored where
  fresh := {}
  write e content := ({ e with waiting := content :: e.waiting }, [])
  flush := Stored.flush
  close := Stored.close
  decode s :=
    let reading := Packed.decode s
    (reading.content, reading.fault.map Packed.Fault.message)

end ReplBridge.Transcript
