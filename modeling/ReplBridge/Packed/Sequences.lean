import ReplBridge.Packed.Literals

/-!
**The sequences of a packed block.**

After its literals a packed block has sequences.  Each says how many literals come next, and how many
bytes are then copied from how far before.  The three numbers are written by codes: a symbol of the
code gives the least value and how many bits are added to it.  A small distance stands for one of the
last three distances.

Main definitions:

* `Packed.Sequence`, `Packed.Sequences.decode` — the sequences of a block;
* `Packed.Codes` — the codes of a block, which the next block may use again;
* `Packed.Sequences.execute` — the bytes that sequences make.
-/

set_option autoImplicit false

namespace ReplBridge.Packed

/-! ### Numbers by symbols -/

/-- What a symbol stands for: a least value, and how many bits are added. -/
structure Span where
  /-- The least value. -/
  base : Nat
  bits : Nat
  deriving DecidableEq, Repr

/-- One of the three numbers of a sequence: how many literals come next, how far before the copied
bytes are, and how many are copied. -/
inductive Field where
  | literals
  | distance
  | copied
  deriving DecidableEq, Repr

namespace Field

/-- Spans one after the other, by their numbers of bits. -/
def spansFrom (base : Nat) : List Nat → List Span
  | [] => []
  | bits :: rest => { base, bits } :: spansFrom (base + (1 <<< bits)) rest

/-- The numbers of bits for the symbols of a field, and the least value of all. -/
def widths : Field → Nat × List Nat
  | .literals =>
    (0, List.replicate 16 0 ++ [1, 1, 1, 1, 2, 2, 3, 3, 4, 6, 7, 8, 9, 10, 11, 12, 13, 14, 15, 16])
  | .distance => (0, List.range 31)
  | .copied =>
    (3, List.replicate 32 0
      ++ [1, 1, 1, 1, 2, 2, 3, 3, 4, 4, 5, 7, 8, 9, 10, 11, 12, 13, 14, 15, 16])

/-- What the symbols of a field stand for.  A distance is given as one less than what is written. -/
def spans (f : Field) : List Span := spansFrom f.widths.1 f.widths.2

/-- How often the symbols of a field are expected if nothing is said. -/
def expected : Field → Counts
  | .literals =>
    { log := 6
      counts := [4, 3, 2, 2, 2, 2, 2, 2, 2, 2, 2, 2, 2, 1, 1, 1, 2, 2, 2, 2, 2, 2, 2, 2, 2, 3, 2, 1,
        1, 1, 1, 1, -1, -1, -1, -1] }
  | .distance =>
    { log := 5
      counts := [1, 1, 1, 1, 1, 1, 2, 2, 2, 1, 1, 1, 1, 1, 1, 1, 1, 1, 1, 1, 1, 1, 1, 1, -1, -1, -1,
        -1, -1] }
  | .copied =>
    { log := 6
      counts := [1, 4, 3, 2, 2, 2, 2, 2, 2, 1, 1, 1, 1, 1, 1, 1, 1, 1, 1, 1, 1, 1, 1, 1, 1, 1, 1, 1,
        1, 1, 1, 1, 1, 1, 1, 1, 1, 1, 1, 1, 1, 1, 1, 1, 1, 1, -1, -1, -1, -1, -1, -1, -1] }

def name : Field → Bytes
  | .literals => utf8 "litLengths"
  | .distance => utf8 "offsets"
  | .copied => utf8 "matchLengths"

end Field

/-- The code of a field: its states, and what its symbols stand for. -/
structure Code where
  states : States
  /-- What the symbols stand for. -/
  spans : Array Span
  deriving Repr

namespace Code

def span (c : Code) (symbol : Nat) : Span := c.spans.getD symbol ⟨0, 0⟩

/-- The code of a field with the given states; every symbol has to stand for something. -/
def ofStates (f : Field) (states : States) : Except Fault Code :=
  let spans := f.spans.toArray
  match states.cells.toList.zipIdx.find? fun (cell, _) => decide (spans.size ≤ cell.symbol) with
  | some (cell, i) =>
    .error (.counting ["invalid decoding table entry ", ", symbol ", " >= max (", ")"]
      [i, cell.symbol, spans.size])
  | none => .ok { states, spans }

/-- The code of a field if nothing is said. -/
def standard (f : Field) : Except Fault Code := do ofStates f (← States.ofCounts f.expected)

end Code

/-- The codes of a block. -/
structure Codes where
  /-- The code of the numbers of literals. -/
  literals : Option Code := none
  distance : Option Code := none
  /-- The code of the numbers of copied bytes. -/
  copied : Option Code := none
  deriving Repr

namespace Codes

def get (c : Codes) : Field → Option Code
  | .literals => c.literals
  | .distance => c.distance
  | .copied => c.copied

def set (c : Codes) (f : Field) (code : Code) : Codes :=
  match f with
  | .literals => { c with literals := some code }
  | .distance => { c with distance := some code }
  | .copied => { c with copied := some code }

def find (c : Codes) (f : Field) : Except Fault Code :=
  match c.get f with
  | some code => .ok code
  | none => .error (.corrupt (f.name ++ utf8 ":sequence decoder not defined"))

/-- Reads the code of a field in the way that a number says: the standard one, one symbol, a written
one, or the one there is. -/
def readOne (c : Codes) (f : Field) (mode : Nat) (s : Bytes) : Except Fault (Codes × Bytes) := do
  match mode with
  | 0 => return (c.set f (← Code.standard f), s)
  | 1 =>
    match s with
    | b :: rest =>
      let size := f.spans.length
      if size ≤ b.toNat then .error (.counting ["rle symbol ", " >= max ", ""] [b.toNat, size])
      else return (c.set f (← Code.ofStates f (.single b.toNat)), rest)
    | [] => .error .blockTooSmall
  | 2 =>
    let (counts, rest) ← Counts.read 9 (f.spans.length - 1) s
    return (c.set f (← Code.ofStates f (← States.ofCounts counts)), rest)
  | _ => return (c, s)

/-- **Reads the codes of a block.** -/
def read (c : Codes) (s : Bytes) : Except Fault (Codes × Bytes) := do
  match s with
  | [] => .error .blockTooSmall
  | modes :: s =>
    let modes := modes.toNat
    if modes % 4 != 0 then .error (.because "corrupt block: reserved bits not zero")
    else
      let (c, s) ← c.readOne .literals (modes / 64) s
      let (c, s) ← c.readOne .distance (modes / 16 % 4) s
      c.readOne .copied (modes / 4 % 4) s

end Codes

/-! ### Sequences -/

/-- A sequence. -/
structure Sequence where
  /-- How many literals come next. -/
  literals : Nat
  /-- How far before the copied bytes are. -/
  distance : Nat
  copied : Nat
  deriving DecidableEq, Repr

/-- The last three distances, the latest first. -/
structure Recent where
  /-- The latest distance. -/
  first : Nat := 1
  second : Nat := 4
  third : Nat := 8
  deriving DecidableEq, Repr

/-- The distance for a written one, and the last three after it.  What is written counts from zero:
three and above is a distance, and a smaller one means one of the last three, the next one if no
literals come before. -/
def Recent.use (r : Recent) (written literals : Nat) : Nat × Recent :=
  if 3 ≤ written then
    let d := written - 2
    (d, ⟨d, r.first, r.second⟩)
  else
    match if literals = 0 then written + 1 else written with
    | 0 => (r.first, r)
    | 1 => (r.second, ⟨r.second, r.first, r.third⟩)
    | 2 => (r.third, ⟨r.third, r.first, r.second⟩)
    | _ =>
      let d := if r.first ≤ 1 then 1 else r.first - 1
      (d, ⟨d, r.first, r.second⟩)

namespace Sequences

/-- The most bytes that are copied at once. -/
def maxCopied : Nat := 131074

/-- The number of sequences, and what stands behind it. -/
def readCount (s : Bytes) : Except Fault (Nat × Bytes) :=
  match s with
  | [] => .error .blockTooSmall
  | a :: rest =>
    if a.toNat < 128 then .ok (a.toNat, rest)
    else if a.toNat < 255 then
      match rest with
      | b :: rest => .ok ((a.toNat - 128) * 256 + b.toNat, rest)
      | [] => .error .blockTooSmall
    else
      match rest with
      | b :: c :: rest => .ok (0x7F00 + b.toNat + 256 * c.toNat, rest)
      | _ => .error .blockTooSmall

/-- The states of the three codes, and what was read so far. -/
structure Run where
  bits : BitsBack
  /-- The state of the numbers of literals. -/
  literals : Nat
  distance : Nat
  /-- The state of the numbers of copied bytes. -/
  copied : Nat
  /-- The last distances. -/
  recent : Recent
  /-- How many literals are left. -/
  spare : Nat
  /-- How many bytes the sequences make. -/
  size : Nat := 0
  /-- The sequences, the last one first. -/
  done : List Sequence := []
  deriving Repr

/-- The codes of the three fields. -/
structure Trio where
  /-- The code of the numbers of literals. -/
  literals : Code
  distance : Code
  /-- The code of the numbers of copied bytes. -/
  copied : Code
  deriving Repr

def advance (c : Code) (state : Nat) (bits : BitsBack) : Nat × BitsBack :=
  let cell := c.states.cell state
  let (low, bits) := bits.read cell.bits
  (cell.base + low, bits)

/-- The value of a state, with the bits that are added. -/
def valueAt (c : Code) (state : Nat) (bits : BitsBack) : Nat × BitsBack :=
  let span := c.span (c.states.cell state).symbol
  let (low, bits) := bits.read span.bits
  (span.base + low, bits)

/-- Moves the three states on. -/
def Run.advance (t : Trio) (r : Run) : Run :=
  let (literals, bits) := Sequences.advance t.literals r.literals r.bits
  let (copied, bits) := Sequences.advance t.copied r.copied bits
  let (distance, bits) := Sequences.advance t.distance r.distance bits
  { r with literals, copied, distance, bits }

/-- Reads a sequence, which has to fit into a block of `limit` bytes. -/
def readOne (t : Trio) (limit : Nat) (r : Run) : Except Fault Run :=
  if 0 < r.bits.missing then .error .truncated
  else
    let (written, bits) := valueAt t.distance r.distance r.bits
    let (copied, bits) := valueAt t.copied r.copied bits
    let (literals, bits) := valueAt t.literals r.literals bits
    let (distance, recent) := r.recent.use written literals
    let size := r.size + literals + copied
    if distance = 0 then
      .error (.counting ["zero matchoff and matchlen (", ") > 0"] [copied])
    else if maxCopied < copied then
      .error (.counting ["match len (", ") bigger than max allowed length"] [copied])
    else if limit < size then
      .error (.counting ["output bigger than max block size (", ")"] [limit])
    else if r.spare < literals then
      .error (.counting ["unexpected literal count, want ", " bytes, but only ", " is available"]
        [literals, r.spare])
    else
      .ok { r with
        bits
        recent
        spare := r.spare - literals
        size
        done := { literals, distance, copied } :: r.done }

/-- Reads `n` sequences; the states move on between them. -/
def readAll (t : Trio) (limit : Nat) : Nat → Run → Except Fault Run
  | 0, r => .ok r
  | 1, r => readOne t limit r
  | n + 2, r =>
    match readOne t limit r with
    | .ok r => readAll t limit (n + 1) (r.advance t)
    | .error fault => .error fault

/-- **Reads the sequences of a block** that makes `limit` bytes at most from its literals.  The codes
and the last distances are those of the block before. -/
def decode (limit literals : Nat) (codes : Codes) (recent : Recent) (s : Bytes) :
    Except Fault (List Sequence × Codes × Recent) := do
  let (n, s) ← readCount s
  if n = 0 then
    if s.isEmpty then return ([], codes, recent) else .error .blockSize
  else
    let (codes, s) ← codes.read s
    let bits ← BitsBack.ofBytes s
    let t : Trio := {
      literals := ← codes.find .literals
      distance := ← codes.find .distance
      copied := ← codes.find .copied }
    let (l, bits) := bits.read t.literals.states.log
    let (d, bits) := bits.read t.distance.states.log
    let (c, bits) := bits.read t.copied.states.log
    let r ← readAll t limit n { bits, literals := l, distance := d, copied := c, recent, spare := literals }
    if limit < r.size + r.spare then
      .error (.counting ["output bigger than max block size (", ")"] [limit])
    else if 0 < r.bits.remaining then
      .error (.counting ["", " extra bits on block, should be 0"] [r.bits.remaining])
    else if 0 < r.bits.missing then .error .truncated
    else return (r.done.reverse, codes, r.recent)

/-! ### Making bytes -/

/-- Copies `n` bytes from a distance before the end. -/
def copy (distance : Nat) : Nat → Array UInt8 → Array UInt8
  | 0, out => out
  | n + 1, out => copy distance n (out.push (out.getD (out.size - distance) 0))

/-- Adds some of the literals, and gives back the others. -/
def addLiterals : Nat → Bytes → Array UInt8 → Bytes × Array UInt8
  | n + 1, b :: rest, out => addLiterals n rest (out.push b)
  | _, rest, out => (rest, out)

/-- **The bytes that sequences make** from literals, behind bytes of which those in the window can be
copied; `before` of them were there before the block. -/
def execute (window before : Nat) : List Sequence → Bytes → Array UInt8 → Except Fault (Array UInt8)
  | [], literals, out => .ok (literals.foldl Array.push out)
  | q :: rest, literals, out =>
    let (literals, out) := addLiterals q.literals literals out
    let reach := out.size - before + min before window
    if reach < q.distance || window < q.distance then
      .error (.counting ["match offset (", ") bigger than current history (", ")"]
        [q.distance, reach])
    else execute window before rest literals (copy q.distance q.copied out)

end Sequences

end ReplBridge.Packed
