import ReplBridge.Terminal.Escape
import ReplBridge.Text.Utf8

/-!
**Stripping output that arrives in chunks.**

A chunk may end inside an escape sequence or inside the encoding of a scalar.  The sanitizer keeps
such an unfinished end back and completes it with the next chunk, so that what it passes on never
holds a fragment of either.  An escape sequence that does not end within `maxHeld` bytes is
malformed and is no longer waited for.
-/

set_option autoImplicit false

namespace ReplBridge.Terminal

/-- The longest unfinished escape sequence that is kept back. -/
def maxHeld : Nat := 4096

/-- An intermediate byte of an escape sequence. -/
def isIntermediate (b : UInt8) : Bool := Bytes.within 0x20 0x2F b

/-- Whether the bytes after an escape byte make it a whole escape sequence. -/
def escapeComplete : Bytes → Bool
  | [] => false
  | kind :: body =>
    if kind == 0x5B then body.any fun b => !Bytes.within 0x20 0x3F b
    else if kind == 0x5D || kind == 0x50 || kind == 0x5F || kind == 0x5E || kind == 0x58 then
      body.contains bel || Bytes.occurs [esc, 0x5C] body
    else if isIntermediate kind then body.any fun b => !isIntermediate b
    else true

/-- Divides a text before its last escape byte, if the sequence there is unfinished and short
enough to wait for. -/
def beforeOpenEscape (s : Bytes) : Bytes × Bytes :=
  match Bytes.cutLast? (· == esc) s with
  | none => (s, [])
  | some (before, body) =>
    if maxHeld < body.length + 1 || escapeComplete body then (s, []) else (before, esc :: body)

/-- The number of bytes at the end of a text, given last byte first, that begin an encoding without
finishing it. -/
def openScalar : Bytes → Nat
  | [] => 0
  | a :: rest =>
    if !Utf8.isTail a then (if Utf8.incomplete [a] then 1 else 0)
    else match rest with
      | [] => 0
      | b :: rest =>
        if !Utf8.isTail b then (if Utf8.incomplete [b, a] then 2 else 0)
        else match rest with
          | [] => 0
          | c :: _ =>
            if !Utf8.isTail c then (if Utf8.incomplete [c, b, a] then 3 else 0) else 0

/-- **What can be stripped now, and what has to wait** for the next chunk. -/
def ready (s : Bytes) : Bytes × Bytes :=
  match beforeOpenEscape s with
  | (safe, unfinished) =>
    let back := safe.reverse
    let n := openScalar back
    ((back.drop n).reverse, (back.take n).reverse ++ unfinished)

/-- The bytes kept back between two chunks. -/
structure Sanitizer where
  /-- The unfinished end of what was written so far. -/
  held : Bytes := []
  deriving DecidableEq, Repr

namespace Sanitizer

/-- Takes one more chunk and gives what can be shown of the text so far. -/
def write (s : Sanitizer) (chunk : Bytes) : Sanitizer × Bytes :=
  match ready (s.held ++ chunk) with
  | (now, later) => (⟨later⟩, strip now)

/-- Gives up waiting: what is kept back is stripped as it is. -/
def flush (s : Sanitizer) : Bytes := strip s.held

end Sanitizer

end ReplBridge.Terminal
