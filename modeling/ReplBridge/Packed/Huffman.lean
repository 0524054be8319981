import ReplBridge.Packed.States

/-!
**Codes of whole bits.**

Every byte has a code of a few bits, and no code is the beginning of another.  A code of few bits has
a large weight: a weight of `w` takes up `2 ^ (w - 1)` places of a table that has one place for each
sequence of bits.  Only the weights are written down, and the last one is what is left of the table.

Main definitions:

* `Packed.Huffman`, `Packed.Huffman.ofWeights` — a code, and the one of some weights;
* `Packed.Huffman.read` — reading a code;
* `Packed.Huffman.decode`, `Packed.Huffman.decodeFour` — reading bytes in a code, in one stream or in
  four.
-/

set_option autoImplicit false

namespace ReplBridge.Packed

/-- A code. -/
structure Huffman where
  /-- The length of the longest code. -/
  log : Nat
  /-- The byte and the length of its code, for each sequence of bits. -/
  places : Array (UInt8 × Nat)
  deriving Repr

namespace Huffman

/-- The longest that a code may be. -/
def maxLog : Nat := 11

/-! ### Weights -/

/-- Two states that read symbols in turn; the symbols are last first. -/
structure Pair where
  /-- The state that reads next. -/
  first : Nat
  /-- The other state. -/
  second : Nat
  bits : BitsBack
  symbols : List Nat := []
  deriving Repr

def weightLimit : Nat := 255

/-- Reads weights by two states in turn until there are no bits for the next. -/
def weightsWithin (t : States) : Nat → Pair → Except Fault (List Nat)
  | 0, p => .ok p.symbols.reverse
  | fuel + 1, p =>
    let cell := t.cell p.first
    if p.bits.remaining = 0 && 0 < cell.bits then
      let symbols := ((t.cell p.second).symbol :: cell.symbol :: p.symbols).reverse
      if 0 < p.bits.missing then .error .truncated else .ok symbols
    else
      let (low, bits) := p.bits.read cell.bits
      let symbols := cell.symbol :: p.symbols
      if symbols.length % 2 = 0 && weightLimit ≤ symbols.length then
        .error (.counting ["output size (", ") > DecompressLimit (", ")"]
          [symbols.length, weightLimit])
      else
        weightsWithin t fuel { first := p.second, second := cell.base + low, bits, symbols }

/-- Reads weights that are coded by states. -/
def codedWeights (s : Bytes) : Except Fault (List Nat) := do
  let (counts, rest) ← Counts.read 15 Counts.maxSymbol s
  let t ← States.ofCounts counts
  let bits ← BitsBack.ofBytes rest
  let (first, bits) := bits.read t.log
  let (second, bits) := bits.read t.log
  weightsWithin t (weightLimit + 2) { first, second, bits }

/-- The wording of a fault in weights that are coded by states. -/
def inWeights : Fault → Fault
  | fault => .corrupt (utf8 "fse decompress returned: " ++ fault.message)

/-- The two weights of a byte. -/
def halves (b : UInt8) : List Nat := [b.toNat / 16, b.toNat % 16]

/-- The weights at the beginning of some bytes, but for the last, and what stands behind them. -/
def readWeights (s : Bytes) : Except Fault (List Nat × Bytes) :=
  match s with
  | head :: rest =>
    if rest.isEmpty then .error (.because "input too small for table")
    else
      let n := head.toNat
      if 128 ≤ n then
        let size := (n - 127 + 1) / 2
        let written := rest.take size
        if written.length < size then .error (.because "input too small for table")
        else .ok ((written.flatMap halves).take (n - 127), rest.drop size)
      else
        let written := rest.take n
        if written.length < n then
          .error (.counting ["input too small for table, want ", " bytes, have ", ""] [n, rest.length])
        else
          match codedWeights written with
          | .error fault => .error (inWeights fault)
          | .ok weights =>
            if weightLimit < weights.length then
              .error (.because "corrupt input: output table too large")
            else .ok (weights, rest.drop n)
  | [] => .error (.because "input too small for table")

/-! ### Codes -/

/-- How many places a weight takes up. -/
def extent (weight : Nat) : Nat := (1 <<< weight) / 2

/-- How many places some weights take up. -/
def total (weights : List Nat) : Nat := weights.foldl (fun n w => n + extent w) 0

/-- The places of the bytes with a weight. -/
def placesOf (log : Nat) (weights : List (Nat × Nat)) (w : Nat) : List (UInt8 × Nat) :=
  weights.flatMap fun (weight, symbol) =>
    if weight = w then List.replicate (extent w) (UInt8.ofNat symbol, log + 1 - w) else []

/-- **The code of some weights**, the last of which is left out. -/
def ofWeights (weights : List Nat) : Except Fault Huffman :=
  if weights.any (maxLog < ·) then .error (.because "corrupt input: weight too large")
  else
    let sum := total weights
    if sum = 0 then .error (.because "corrupt input: weights zero")
    else
      let log := Nat.log2 sum + 1
      if maxLog < log then .error (.because "corrupt input: tableLog too big")
      else
        let rest := (1 <<< log) - sum
        if 1 <<< Nat.log2 rest != rest then
          .error (.because "corrupt input: last value not power of two")
        else
          let weights := weights ++ [Nat.log2 rest + 1]
          let least := weights.count 1
          if least < 2 || least % 2 = 1 then
            .error (.because "corrupt input: min elt size, even check failed ")
          else
            let indexed := weights.zipIdx
            .ok {
              log
              places := ((List.range (log + 1)).drop 1).flatMap (placesOf log indexed) |>.toArray }

/-- **Reads a code**, and gives back what stands behind it. -/
def read (s : Bytes) : Except Fault (Huffman × Bytes) := do
  let (weights, rest) ← readWeights s
  return (← ofWeights weights, rest)

/-! ### Streams -/

/-- Reads bytes until there are no bits, `room` of them at most; the bytes are last first.  The last
one must not take more bits than there are. -/
def streamWithin (h : Huffman) (full : Fault) : Nat → Bytes → BitsBack → Except Fault Bytes
  | room, done, bits =>
    if 0 < bits.missing then .error full
    else if bits.remaining = 0 then .ok done
    else
      match room with
      | 0 => .error full
      | room + 1 =>
        let (v, bits) := bits.peek h.log
        let (byte, n) := h.places.getD v (0, 1)
        streamWithin h full room (byte :: done) (bits.drop n)
termination_by structural room => room

/-- **Reads bytes from one stream**, `size` of them at most. -/
def decode (h : Huffman) (size : Nat) (s : Bytes) : Except Fault Bytes := do
  let full := Fault.because "maximum output size exceeded"
  let bits ← BitsBack.ofBytes s
  return (← streamWithin h full size [] bits).reverse

/-- Reads the bytes of one of four streams, which end at a place. -/
def decodePart (h : Huffman) (index start size : Nat) (s : Bytes) : Except Fault Bytes := do
  let bits ← BitsBack.ofBytes s
  let done ← streamWithin h (.because "corruption detected: stream overrun 4") size [] bits
  if done.length < size then
    .error (.counting ["corruption detected: short output block ", ", end ", " != ", ""]
      [index, start + done.length, start + size])
  else return done.reverse

/-- The lengths of the first three of four streams. -/
def streamLengths (s : Bytes) : List Nat :=
  [number (s.take 2), number ((s.drop 2).take 2), number ((s.drop 4).take 2)]

/-- **Reads `size` bytes from four streams**, each of which has a quarter of them. -/
def decodeFour (h : Huffman) (size : Nat) (s : Bytes) : Except Fault Bytes := do
  if s.length < 10 then .error (.because "input too small")
  else
    let body := s.drop 6
    let lengths := streamLengths s
    let ends := lengths.foldl (fun (ends : List Nat) n => ends ++ [ends.getLastD 0 + n]) []
    if ends.any (body.length ≤ ·) then
      .error (.because "truncated input (or invalid offset)")
    else
      let quarter := (size + 3) / 4
      let starts := 0 :: ends
      let streams := (starts.zip (lengths ++ [body.length])).map fun (start, n) =>
        (body.drop start).take n
      let parts ← streams.zipIdx.mapM fun (stream, i) =>
        decodePart h i (quarter * i) (min quarter (size - quarter * i)) stream
      return parts.flatten

end Huffman

end ReplBridge.Packed
