import ReplBridge.Text.Bytes

/-!
**Stripping terminal control sequences.**

A terminal reads its input one byte at a time with a small machine, the parser of the DEC
terminals.  Only two kinds of bytes reach the screen: those the machine *prints* or *executes*,
and those of UTF-8 encoded scalars.  Stripping a text is running that machine and keeping exactly
these bytes.

The machine treats entering a control sequence and reading its parameters alike, and likewise the
three kinds of strings that only a string terminator ends, so each of these pairs is one state.
-/

set_option autoImplicit false

namespace ReplBridge.Terminal

/-- Where the machine stands between two bytes: outside every sequence, after an escape byte, inside
one of the kinds of sequences, or inside a UTF-8 encoding of which `owed + 1` bytes are still to
come.  A `controlString` is a string that only a string terminator ends. -/
inductive State where
  | ground
  | escape
  | escapeIntermediate
  | controlString
  | deviceEntry
  | deviceParameter
  | deviceIntermediate
  | deviceString
  | control
  | controlIntermediate
  | systemCommand
  | scalar (owed : Nat)
  deriving DecidableEq, Repr

/-- The escape byte. -/
def esc : UInt8 := 0x1B

/-- The bell, which also ends an operating system command. -/
def bel : UInt8 := 0x07

/-- The control bytes that act without ending a sequence. -/
def isControl (b : UInt8) : Bool :=
  b ≤ 0x17 || b == 0x19 || Bytes.within 0x1C 0x1F b

/-- The transition that a byte makes from any state which has no rule of its own for it. -/
def anywhere (b : UInt8) : State × Bool :=
  if b == 0x18 || b == 0x1A || b == 0x99 || b == 0x9A || b == 0x9C
      || Bytes.within 0x80 0x8F b || Bytes.within 0x91 0x97 b then (.ground, true)
  else if b == esc then (.escape, false)
  else if b == 0x98 || b == 0x9E || b == 0x9F then (.controlString, false)
  else if b == 0x9B then (.control, false)
  else if b == 0x90 then (.deviceEntry, false)
  else if b == 0x9D then (.systemCommand, false)
  else if Bytes.within 0xC2 0xDF b then (.scalar 0, true)
  else if Bytes.within 0xE0 0xEF b then (.scalar 1, true)
  else if Bytes.within 0xF0 0xF4 b then (.scalar 2, true)
  else (.ground, false)

/-- The transition of the byte after an escape byte. -/
def afterEscape (b : UInt8) : State × Bool :=
  if isControl b then (.escape, true)
  else if b == 0x7F then (.escape, false)
  else if Bytes.within 0x20 0x2F b then (.escapeIntermediate, false)
  else if b == 0x58 || b == 0x5E || b == 0x5F then (.controlString, false)
  else if b == 0x50 then (.deviceEntry, false)
  else if b == 0x5B then (.control, false)
  else if b == 0x5D then (.systemCommand, false)
  else if Bytes.within 0x30 0x7E b then (.ground, false)
  else anywhere b

/-- One byte: the next state, and whether the byte is kept. -/
def step : State → UInt8 → State × Bool
  | .ground, b =>
    if isControl b || Bytes.within 0x20 0x7F b then (.ground, true) else anywhere b
  | .escape, b => afterEscape b
  | .escapeIntermediate, b =>
    if isControl b then (.escapeIntermediate, true)
    else if Bytes.within 0x20 0x2F b || b == 0x7F then (.escapeIntermediate, false)
    else if Bytes.within 0x30 0x7E b then (.ground, false)
    else anywhere b
  | .controlString, b =>
    if isControl b || Bytes.within 0x20 0x7F b then (.controlString, false)
    else if b == 0x9C || b == 0x18 || b == 0x1A then (.ground, false)
    else anywhere b
  | .deviceEntry, b =>
    if Bytes.within 0x20 0x2F b then (.deviceIntermediate, false)
    else if Bytes.within 0x30 0x3F b then (.deviceParameter, false)
    else if Bytes.within 0x08 0x0D b || b == esc || Bytes.within 0x40 0x7E b then
      (.deviceString, false)
    else if isControl b || b == 0x7F then (.deviceEntry, false)
    else anywhere b
  | .deviceParameter, b =>
    if Bytes.within 0x20 0x2F b then (.deviceIntermediate, false)
    else if Bytes.within 0x40 0x7E b then (.deviceString, false)
    else if isControl b || Bytes.within 0x30 0x3F b || b == 0x7F then (.deviceParameter, false)
    else anywhere b
  | .deviceIntermediate, b =>
    if Bytes.within 0x30 0x7E b then (.deviceString, false)
    else if isControl b || Bytes.within 0x20 0x2F b || b == 0x7F then (.deviceIntermediate, false)
    else anywhere b
  | .deviceString, b =>
    if b == esc then (.escape, false)
    else if b == 0x9C || b == 0x18 || b == 0x1A then (.ground, false)
    else (.deviceString, false)
  | .control, b =>
    if isControl b then (.control, true)
    else if Bytes.within 0x20 0x2F b then (.controlIntermediate, false)
    else if Bytes.within 0x30 0x3F b || b == 0x7F then (.control, false)
    else if Bytes.within 0x40 0x7E b then (.ground, false)
    else anywhere b
  | .controlIntermediate, b =>
    if isControl b then (.controlIntermediate, true)
    else if Bytes.within 0x20 0x2F b || b == 0x7F then (.controlIntermediate, false)
    else if Bytes.within 0x30 0x7E b then (.ground, false)
    else anywhere b
  | .systemCommand, b =>
    if b == esc then (.escape, false)
    else if b == bel || b == 0x9C || b == 0x18 || b == 0x1A then (.ground, false)
    else (.systemCommand, false)
  | .scalar 0, _ => (.ground, true)
  | .scalar (n + 1), _ => (.scalar n, true)

/-- The bytes kept of `s`, read from state `q` with `kept` (last first) before them, and the state
after them. -/
def run (kept : Bytes) : State → Bytes → Bytes × State
  | q, [] => (kept.reverse, q)
  | q, b :: rest =>
    match step q b with
    | (q', true) => run (b :: kept) q' rest
    | (q', false) => run kept q' rest

/-- **What reaches the screen** of a text read from the ground state. -/
def strip (s : Bytes) : Bytes := (run [] .ground s).1

end ReplBridge.Terminal
