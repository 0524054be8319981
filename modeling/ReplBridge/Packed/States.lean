import ReplBridge.Packed.Bits

/-!
**Codes that have states.**

A symbol is coded by a state, and the bits that follow say which state comes next.  A table gives
for every state its symbol, the number of those bits, and what they are added to.  It is made from
how often each symbol is expected: a symbol has as many states as it is expected times, and these
are spread over the table.

Main definitions:

* `Packed.Counts`, `Packed.Counts.read` — how often symbols are expected, and how that is written;
* `Packed.States`, `Packed.States.ofCounts` — the table of a code.
-/

set_option autoImplicit false

namespace ReplBridge.Packed

/-! ### Expected counts -/

/-- How often symbols are expected. -/
structure Counts where
  /-- The logarithm of the number of states. -/
  log : Nat
  /-- The count of each symbol in turn; `-1` stands for one that is rarer than once. -/
  counts : List Int
  deriving DecidableEq, Repr

namespace Counts

/-- The greatest symbol there may be. -/
def maxSymbol : Nat := 255

/-- Counts while they are read. -/
structure Draft where
  bits : Bits
  /-- One more than the number of states that have no symbol yet. -/
  remaining : Nat
  /-- The power of two that is not larger than `remaining`. -/
  threshold : Nat
  /-- How many bits the next count may take. -/
  width : Nat
  /-- The counts, the last one first. -/
  counts : List Int := []
  symbols : Nat := 0
  deriving Repr

/-- Reads how many symbols follow that are not expected at all: three at a time, and then the rest. -/
def readZeros : Nat → Nat → Bits → Nat × Bits
  | 0, n, r => (n, r)
  | fuel + 1, n, r =>
    let (k, r) := r.read 2
    if k = 3 then readZeros fuel (n + 3) r else (n + k, r)

/-- Makes the power of two fit what remains. -/
def narrow : Nat → Nat → Nat → Nat → Nat × Nat
  | 0, _, threshold, width => (threshold, width)
  | fuel + 1, remaining, threshold, width =>
    if remaining < threshold then narrow fuel remaining (threshold / 2) (width - 1)
    else (threshold, width)

/-- Reads one count.  Small ones take a bit less. -/
def readOne (d : Draft) : Int × Draft :=
  let spare := 2 * d.threshold - 1 - d.remaining
  let (v, bits) := d.bits.peek d.width
  let low := v % d.threshold
  let (n, bits) :=
    if low < spare then (low, bits.drop (d.width - 1))
    else (if d.threshold ≤ v then v - spare else v, bits.drop d.width)
  let count : Int := (n : Int) - 1
  let remaining := d.remaining - count.natAbs
  let (threshold, width) := narrow d.width remaining d.threshold d.width
  (count, { bits, remaining, threshold, width, counts := count :: d.counts, symbols := d.symbols + 1 })

/-- Reads counts of symbols up to `greatest`. -/
def readWithin (greatest : Nat) : Nat → Bool → Draft → Except Fault Draft
  | 0, _, d => .ok d
  | fuel + 1, afterZero, d =>
    if d.remaining ≤ 1 || greatest < d.symbols then .ok d
    else
      let (zeros, bits) := if afterZero then readZeros 100 0 d.bits else (0, d.bits)
      if maxSymbol < d.symbols + zeros then .error (.because "maxSymbolValue too small")
      else
        let d := { d with
          bits
          counts := List.replicate zeros 0 ++ d.counts
          symbols := d.symbols + zeros }
        let (count, d) := readOne d
        readWithin greatest fuel (count == 0) d

/-- **Reads counts** of symbols up to `greatest`, with at most `2 ^ maxLog` states; what stands behind
them is given back. -/
def read (maxLog greatest : Nat) (s : Bytes) : Except Fault (Counts × Bytes) := do
  if s.length < 4 then .error (.because "input too small")
  else
    let (low, bits) := ({ rest := s } : Bits).read 4
    let log := low + 5
    if maxLog < log then .error (.because "tableLog too large")
    else
      let d ← readWithin greatest 300 false
        { bits, remaining := (1 <<< log) + 1, threshold := 1 <<< log, width := log + 1 }
      let beyond := d.bits.used + 32 - 8 * s.length
      if d.symbols ≤ 1 then
        .error (.counting ["symbolLen (", ") too small"] [d.symbols])
      else if maxSymbol + 1 < d.symbols then
        .error (.counting ["symbolLen (", ") too big"] [d.symbols])
      else if d.remaining != 1 then
        .error (.counting ["corruption detected (remaining ", " != 1)"] [d.remaining])
      else if 32 < beyond then
        .error (.counting ["corruption detected (bitCount ", " > 32)"] [beyond])
      else return ({ log, counts := d.counts.reverse }, s.drop ((d.bits.used + 7) / 8))

end Counts

/-! ### Tables -/

/-- What a state says. -/
structure Cell where
  symbol : Nat
  /-- How many bits say what comes next. -/
  bits : Nat := 0
  /-- What they are added to. -/
  base : Nat := 0
  deriving DecidableEq, Repr

/-- The table of a code. -/
structure States where
  /-- The logarithm of the number of states. -/
  log : Nat
  cells : Array Cell
  deriving Repr

namespace States

def cell (t : States) (state : Nat) : Cell := t.cells.getD state { symbol := 0 }

/-- The code of a single symbol, which takes no bits. -/
def single (symbol : Nat) : States := { log := 0, cells := #[{ symbol }] }

/-- Symbols that are placed in a table. -/
structure Spread where
  /-- The symbol of each state. -/
  symbols : Array Nat
  /-- The last state that has no rare symbol. -/
  high : Nat
  /-- The state for the next symbol. -/
  position : Nat := 0
  deriving Repr

/-- Places the symbols that are rarer than once at the end of the table. -/
def placeRare (s : Spread) (symbol : Nat) (count : Int) : Spread :=
  if count == -1 then
    { s with symbols := s.symbols.setIfInBounds s.high symbol, high := s.high - 1 }
  else s

/-- The next state that has no rare symbol. -/
def advance (size high : Nat) : Nat → Nat → Nat
  | 0, position => position
  | fuel + 1, position =>
    let next := (position + size / 2 + size / 8 + 3) % size
    if next ≤ high then next else advance size high fuel next

/-- Places a symbol a number of times. -/
def place (size symbol : Nat) : Nat → Spread → Spread
  | 0, s => s
  | n + 1, s =>
    place size symbol n { s with
      symbols := s.symbols.setIfInBounds s.position symbol
      position := advance size s.high size s.position }

/-- The symbol of each state. -/
def spread (c : Counts) : Array Nat :=
  let size := 1 <<< c.log
  let counts := c.counts.zipIdx
  let s := counts.foldl (fun s (count, symbol) => placeRare s symbol count)
    { symbols := Array.replicate size 0, high := size - 1 }
  (counts.foldl (fun s (count, symbol) => place size symbol count.toNat s) s).symbols

/-- The states of a table one after the other: each symbol counts its own. -/
def build (log : Nat) : List (Nat × Nat) → Array Nat → Array Cell → Except Fault (Array Cell)
  | [], _, cells => .ok cells
  | (symbol, state) :: rest, next, cells =>
    let n := next.getD symbol 1
    let bits := log - Nat.log2 n
    let base := (n <<< bits) - (1 <<< log)
    if base = state && bits = 0 then
      .error (.counting ["newState (", ") == oldState (", ") and no bits"] [base, state])
    else build log rest (next.setIfInBounds symbol (n + 1)) (cells.push { symbol, bits, base })

/-- **The table of a code** whose symbols are expected so often. -/
def ofCounts (c : Counts) : Except Fault States := do
  let next := (c.counts.map Int.natAbs).toArray
  return { log := c.log, cells := ← build c.log (spread c).toList.zipIdx next #[] }

end States

end ReplBridge.Packed
