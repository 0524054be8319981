import ReplBridge.Json.Number

/-!
**Reading trees as values of known types.**

The members of an object may come more than once, and so may the objects and lists below them.  A
place of a value is therefore read from all the trees it was given, in order: they are put one over
the other.  For most types the last one that is not `null` counts; where a value may be absent,
`null` makes it so, and what came before it is gone.  A tree of the wrong shape cannot be read, and
then nothing of the whole can, whatever is put over it.

Lists lie over each other cell by cell.  A shorter list hides the cells behind its end; a longer
one after it is put over them again.  Only `null` and the empty list clear them.

Keys are matched without regard to case.

Main definitions:

* `Json.Reads` — a reader of the trees that a place was given;
* `Json.Reads.text`, `Json.Reads.uint32`, … — the readers of the plain types;
* `Json.Reads.optional`, `Json.Reads.list`, `Json.Reads.record` — those of composed ones;
* `Json.interpret?`, `Json.decode?` — the value of a tree and of a text.
-/

set_option autoImplicit false

namespace ReplBridge.Json

/-- Reads the trees that a place was given, in order. -/
abbrev Reads (α : Type) := List Json → Option α

namespace Reads

/-! ### Plain values -/

/-- A value of which the last one counts, `null` aside. -/
def plain {α : Type} (zero : α) (one : Json → Option α) : Reads α
  | [] => some zero
  | .null :: rest => plain zero one rest
  | j :: rest =>
    match one j with
    | some a => plain a one rest
    | none => none

def text : Reads Bytes :=
  plain [] fun
    | .string raw => some (unescape raw)
    | _ => none

/-- A truth value. -/
def bool : Reads Bool :=
  plain false fun
    | .bool b => some b
    | _ => none

/-- A whole number below `2 ^ bits`, without sign, fraction or exponent. -/
def natBelow (bits : Nat) : Reads Nat :=
  plain 0 fun
    | .number literal => (Decimal.nat? literal).filter (· < Decimal.twoTo bits)
    | _ => none

/-- A whole number of 32 bits. -/
def uint32 : Reads UInt32 := fun js => (natBelow 32 js).map UInt32.ofNat

/-- A whole number with a sign that fits into `bits` bits, without fraction or exponent. -/
def signed (bits : Nat) : Reads Int :=
  plain 0 fun
    | .number literal => (Decimal.int? literal).filter (Decimal.fits bits)
    | _ => none

/-- A number of limited precision. -/
def double : Reads Double :=
  plain {} fun
    | .number literal => Double.ofLiteral? literal
    | _ => none

/-- Any value at all, for what it means; `null` is none. -/
def free : Reads (Option Json)
  | [] => some none
  | [.null] => some none
  | [j] => (canonical? j).map some
  | j :: rest => if (canonical? j).isSome then free rest else none

/-! ### Values that may be absent -/

/-- Trees between one `null` and the next, the last of them last. -/
def spans : List Json → List (List Json)
  | [] => [[]]
  | .null :: rest => [] :: spans rest
  | j :: rest =>
    match spans rest with
    | span :: later => (j :: span) :: later
    | [] => [[j]]

/-- The last value of a list of spans, each of which has to be readable; there is none if the last
span is empty. -/
def lastSpan {α : Type} (item : Reads α) : List (List Json) → Option (Option α)
  | [] => some none
  | [span] => if span.isEmpty then some none else (item span).map some
  | span :: later => if (item span).isSome then lastSpan item later else none

/-- A value that may be absent. -/
def optional {α : Type} (item : Reads α) : Reads (Option α) := fun js => lastSpan item (spans js)

/-! ### Lists -/

/-- Adds the items of a list to the cells they lie over. -/
def layer : List (List Json) → List Json → List (List Json)
  | cells, [] => cells
  | [], j :: rest => [j] :: layer [] rest
  | cell :: cells, j :: rest => (cell ++ [j]) :: layer cells rest

/-- The cells of a list, each with the trees it was given, and how many of them show; no number if
the list is absent.  A tree that is no list cannot be read, and cells that are cleared have to be
readable. -/
def cells {α : Type} (item : Reads α) (shown : Option Nat) (below : List (List Json)) :
    List Json → Option (Option Nat × List (List Json))
  | [] => some (shown, below)
  | .null :: rest =>
    if below.all fun cell => (item cell).isSome then cells item none [] rest else none
  | .array [] :: rest =>
    if below.all fun cell => (item cell).isSome then cells item (some 0) [] rest else none
  | .array js :: rest => cells item (some js.length) (layer below js) rest
  | _ :: _ => none

/-- A list that may be absent. -/
def list {α : Type} (item : Reads α) : Reads (Option (List α)) := fun js => do
  let (shown, below) ← cells item none [] js
  let all ← below.mapM item
  return shown.map all.take

/-! ### Records -/

/-- A value that has to be of the right shape and is not kept. -/
def checked {α β : Type} (r : Reads β) : Reads (α → α) := fun js => (r js).map fun _ => id

def part {α β : Type} (set : α → β → α) (r : Reads β) : Reads (α → α) :=
  fun js => (r js).map fun v a => set a v

/-- The character that stands for all that differ from it in case only, as far as letters of ASCII
are among them: besides the capitals these are the Kelvin sign and the long s. -/
def foldCase (c : Char) : Char :=
  if c == '\u212a' then 'k' else if c == '\u017f' then 's' else c.toLower

/-- A text without regard to case. -/
def foldKey (s : Bytes) : List Char := (Utf8.pieces s).map fun r => foldCase r.char

/-- The members of the objects among some trees, in order, their keys without regard to case;
`null` is passed over, and nothing else can be read. -/
def members? : List Json → Option (List (List Char × Json))
  | [] => some []
  | .null :: rest => members? rest
  | .object ms :: rest =>
    (members? rest).map fun later => ms.map (fun (key, j) => (foldKey (unescape key), j)) ++ later
  | _ :: _ => none

/-- What fields, each with the reader of what it was given, make of a value. -/
abbrev Fields (α : Type) := List (String × Reads (α → α))

/-- The trees that a field was given. -/
def given (name : String) (ms : List (List Char × Json)) : List Json :=
  (ms.filter fun (key, _) => key == name.toList.map foldCase).map (·.2)

/-- What the members of an object make of a value; those that name no field are passed over. -/
def fields {α : Type} (fs : Fields α) : Reads (α → α) := fun js => do
  let ms ← members? js
  fs.foldlM (fun change (name, read) => do
    let next ← read (given name ms)
    return fun a => next (change a)) id

/-- An object with named fields, which are those of `zero` unless they are given. -/
def record {α : Type} (zero : α) (fs : Fields α) : Reads α := fun js => (fields fs js).map (· zero)

end Reads

/-- How deep a value may nest to be read. -/
def maxDepth : Nat := 10000

/-- The value of a tree. -/
def interpret? {α : Type} (read : Reads α) (j : Json) : Option α :=
  if nestsWithin maxDepth j then read [j] else none

/-- **The value of a text.** -/
def decode? {α : Type} (read : Reads α) (text : Bytes) : Option α :=
  (parse? text).bind (interpret? read)

end ReplBridge.Json
