import ReplBridge.Text.Utf8

/-!
**Tables in columns.**

Cells end at tabs and lines at newlines.  Cells that stand below each other in consecutive lines
form a column, which is as wide as the widest of them and two spaces more; the last cell of a line
belongs to no column.  A form feed ends a line and all columns.

Between two bytes `0xFF` everything is part of a cell, and the two do not count for its width.
-/

set_option autoImplicit false

namespace ReplBridge.Table

/-- A cell: its text, and how many characters wide it is. -/
structure Cell where
  text : Bytes
  width : Nat
  deriving DecidableEq, Repr

/-- The byte that begins and ends what is taken as it is. -/
def guardByte : UInt8 := 0xFF

/-- The state of reading cells; everything is last first. -/
structure Reading where
  sections : List (List (List Cell)) := []
  lines : List (List Cell) := []
  cells : List Cell := []
  bytes : Bytes := []
  /-- How many bytes of the cell are guards. -/
  guards : Nat := 0
  /-- Whether the bytes are taken as they are. -/
  guarded : Bool := false

namespace Reading

def endCell (r : Reading) : Reading :=
  let text := r.bytes.reverse
  { r with cells := ⟨text, Utf8.length text - r.guards⟩ :: r.cells, bytes := [], guards := 0 }

def endLine (r : Reading) : Reading :=
  let r := r.endCell
  { r with lines := r.cells.reverse :: r.lines, cells := [] }

def endSection (r : Reading) : Reading :=
  { r with sections := r.lines.reverse :: r.sections, lines := [] }

def step (r : Reading) (b : UInt8) : Reading :=
  if r.guarded then
    let r := { r with bytes := b :: r.bytes }
    if b == guardByte then { r with guarded := false, guards := r.guards + 2 } else r
  else if b == 0x09 || b == 0x0B then r.endCell
  else if b == 0x0A then r.endLine
  else if b == 0x0C then r.endLine.endSection
  else { r with bytes := b :: r.bytes, guarded := b == guardByte }

/-- Ends the text; what stands behind the last newline is a line too unless it is empty. -/
def finish (r : Reading) : List (List (List Cell)) :=
  let r := if r.bytes.isEmpty && r.cells.isEmpty then r else r.endLine
  r.endSection.sections.reverse

end Reading

/-- The lines of a text with their cells, by sections. -/
def sections (s : Bytes) : List (List (List Cell)) := (s.foldl Reading.step {}).finish

/-- The space between two columns. -/
def padding : Nat := 2

/-- The widest of the cells that begin a list. -/
def widest : List (Option Nat) → Nat
  | some w :: rest => max w (widest rest)
  | _ => 0

/-- The width of every cell of a column, each as wide as the widest of its run; `before` is the
width of the run that goes on. -/
def spread (before : Option Nat) : List (Option Nat) → List (Option Nat)
  | [] => []
  | none :: rest => none :: spread none rest
  | some w :: rest =>
    let width := before.getD (widest (some w :: rest))
    some width :: spread (some width) rest

/-- The widths of the first cells, for every line in which there are more behind it. -/
def column (lines : List (List Cell)) : List (Option Nat) :=
  spread none (lines.map fun
    | c :: _ :: _ => some (c.width + padding)
    | _ => none)

def padded (c : Cell) (width : Nat) : Bytes := c.text ++ List.replicate (width - c.width) 0x20

/-- The first cell of a line in its column, if it has one. -/
def placed (cells : List Cell) (width : Option Nat) : Bytes :=
  match cells, width with
  | c :: _, some w => padded c w
  | c :: _, none => c.text
  | [], _ => []

/-- Sets one column after the other; `done` is what every line holds so far, last first. -/
def layoutFrom : Nat → List (List Cell) → List (List Bytes) → List (List Bytes)
  | 0, _, done => done
  | fuel + 1, lines, done =>
    layoutFrom fuel (lines.map List.tail)
      (List.zipWith List.cons (List.zipWith placed lines (column lines)) done)

/-- The text of a section in columns. -/
def layoutSection (lines : List (List Cell)) : Bytes :=
  let columns := lines.foldl (fun n cells => max n cells.length) 0
  (layoutFrom columns lines (lines.map fun _ => [])).flatMap fun cells =>
    cells.reverse.flatten ++ [0x0A]

/-- **A text in columns.** -/
def layout (s : Bytes) : Bytes := (sections s).flatMap layoutSection

end ReplBridge.Table
