import ReplBridge.Text.Base64
import ReplBridge.Yaml.Style

/-!
**Writing YAML.**

Collections are written by indentation, in steps of four columns; the items of a list are indented
below their key.  An empty collection is written in braces or brackets.  A key that is long or has
several lines gets a mark, and its value stands on a line of its own.

Main definitions:

* `Yaml.Tree` — what is written;
* `Yaml.Sheet` — the text so far, and where its last line stands;
* `Yaml.Tree.text` — the text of a tree.
-/

set_option autoImplicit false

namespace ReplBridge.Yaml

/-- What is written.  A word is written as it is, a text in a style that keeps it a text. -/
inductive Tree where
  | text (s : Bytes)
  | word (s : Bytes)
  | list (items : List Bytes)
  | table (pairs : List (Bytes × Tree))
  deriving Repr

/-! ### The sheet -/

/-- The text so far, and where its last line stands. -/
structure Sheet where
  /-- The characters, last first. -/
  back : List Char := []
  column : Nat := 0
  /-- Whether a space stands before the place. -/
  spaced : Bool := true
  /-- Whether the line holds nothing but indentation and marks of it. -/
  indented : Bool := true

namespace Sheet

def put (s : Sheet) (c : Char) : Sheet := { s with back := c :: s.back, column := s.column + 1 }

def puts (s : Sheet) (cs : List Char) : Sheet := cs.foldl put s

def endLine (s : Sheet) (c : Char) : Sheet :=
  { s with back := c :: s.back, column := 0, indented := true }

/-- Goes to a column, on a new line unless nothing stands on this one. -/
def toColumn (s : Sheet) (indent : Nat) : Sheet :=
  let s := if !s.indented || indent < s.column || (s.column == indent && !s.spaced) then
    s.endLine '\n' else s
  { s.puts (List.replicate (indent - s.column) ' ') with spaced := true }

/-- A mark, with a space before it where one is wanted. -/
def mark (s : Sheet) (m : String) (wantsSpace : Bool) (ofIndent : Bool) : Sheet :=
  let s := if wantsSpace && !s.spaced then s.put ' ' else s
  { s.puts m.toList with spaced := false, indented := s.indented && ofIndent }

end Sheet

/-! ### Scalars -/

/-- Hexadecimal digits of a number in capitals. -/
def hexDigits : Nat → Nat → List Char
  | 0, _ => []
  | places + 1, n => hexDigits places (n / 16) ++ ["0123456789ABCDEF".toList.getD (n % 16) '0']

def escapeLetters : List (Nat × Char) :=
  [(0x00, '0'), (0x07, 'a'), (0x08, 'b'), (0x09, 't'), (0x0A, 'n'), (0x0B, 'v'), (0x0C, 'f'),
    (0x0D, 'r'), (0x1B, 'e'), (0x22, quotation), (0x5C, backslash), (0x85, 'N'), (0xA0, '_'),
    (0x2028, 'L'), (0x2029, 'P')]

/-- A character between double quotes. -/
def doubleQuoted (c : Char) : List Char :=
  let n := c.toNat
  if isPrintable c && !isBreak c && c != quotation && c != backslash then [c]
  else backslash :: match escapeLetters.lookup n with
    | some letter => [letter]
    | none =>
      if n ≤ 0xFF then 'x' :: hexDigits 2 n
      else if n ≤ 0xFFFF then 'u' :: hexDigits 4 n
      else 'U' :: hexDigits 8 n

/-- What stands behind the mark of a block: how it is indented where that cannot be seen, and how it
ends. -/
def blockHints (cs : List Char) : String :=
  let indent := (cs.head?.map fun c => c == ' ' || isBreak c).getD false
  let ending := match cs.reverse with
    | [] => "-"
    | [c] => if isBreak c then "+" else "-"
    | c :: d :: _ => if !isBreak c then "-" else if isBreak d then "+" else ""
  (if indent then "4" else "") ++ ending

namespace Sheet

/-- The characters of a text, those behind a line end indented; the flag says whether a line has
just ended. -/
def lines (indent : Nat) (shown : Char → List Char) : Bool → List Char → Sheet → Sheet
  | _, [], s => s
  | broken, c :: rest, s =>
    if isBreak c then lines indent shown true rest (s.endLine c)
    else
      let s := if broken then s.toColumn indent else s
      lines indent shown false rest { s.puts (shown c) with indented := false }

def scalar (s : Sheet) (indent : Nat) (style : Style) (cs : List Char) : Sheet :=
  match style with
  | .plain =>
    let s := if !cs.isEmpty && !s.spaced then s.put ' ' else s
    { s.puts cs with spaced := false, indented := false }
  | .single =>
    let shown := fun c => if c == apostrophe then [c, c] else [c]
    (lines indent shown false cs (s.mark "'" true false)).mark "'" false false
  | .double =>
    let s := s.mark "\"" true false
    (s.puts (cs.flatMap doubleQuoted)).mark "\"" false false
  | .block =>
    let s := (s.mark "|" true false).mark (blockHints cs) false false
    lines indent ([·]) true cs { s with spaced := true }

end Sheet

/-- Lines of seventy characters, each with its end if there are several. -/
def wrapped (s : Bytes) : Bytes :=
  if s.length < 70 then s else (Bytes.pieces 70 s).flatMap (· ++ [0x0A])

/-- Writes a text.  One that is not well encoded is written in base 64 and says so. -/
def writeText (asKey : Bool) (indent : Nat) (text : Bytes) (s : Sheet) : Sheet :=
  if Utf8.valid text then
    s.scalar indent (style asKey text) ((Utf8.pieces text).map Utf8.Piece.char)
  else
    let coded := wrapped (Base64.encode text)
    let style := if coded.contains 0x0A then .block else .plain
    (s.mark "!!binary" true false).scalar indent style (coded.map fun b => Char.ofNat b.toNat)

/-- The column that is indented one step more than another. -/
def deeper (indent : Nat) : Nat := 4 * ((indent + 4) / 4)

/-- The longest key that needs no mark. -/
def longestPlainKey : Nat := 128

/-- Whether a key needs no mark. -/
def isSimpleKey (key : Bytes) : Bool :=
  decide (key.length ≤ longestPlainKey)
    && !((Utf8.pieces key).any fun r => isBreak r.char)

/-! ### Collections -/

def writeItems (indent : Nat) (items : List Bytes) (s : Sheet) : Sheet :=
  items.foldl (fun s item =>
    writeText false (indent + 2) item ((s.toColumn indent).mark "-" true true)) s

mutual

/-- Writes a tree inside what is indented by `indent`. -/
def writeTree (indent : Nat) : Tree → Sheet → Sheet
  | .text text, s => writeText false (deeper indent) text s
  | .word word, s => s.scalar 0 .plain (word.map fun b => Char.ofNat b.toNat)
  | .list items, s =>
    if items.isEmpty then (s.mark "[" true false).mark "]" false false
    else writeItems (deeper indent) items s
  | .table pairs, s =>
    if pairs.isEmpty then (s.mark "\x7b" true false).mark "\x7d" false false
    else writePairs (deeper indent) pairs s
termination_by structural t => t

/-- Writes the pairs of a table that is indented by `indent`. -/
def writePairs (indent : Nat) : List (Bytes × Tree) → Sheet → Sheet
  | [], s => s
  | (key, value) :: rest, s =>
    let s := s.toColumn indent
    let s :=
      if isSimpleKey key then (writeText true (deeper indent) key s).mark ":" false false
      else
        let s := writeText false (deeper indent) key (s.mark "?" true true)
        (s.toColumn indent).mark ":" true true
    writePairs indent rest (writeTree indent value s)
termination_by structural pairs => pairs

end

/-- **The text of a table.** -/
def writeTable (pairs : List (Bytes × Tree)) : Bytes :=
  let s := if pairs.isEmpty then writeTree 0 (.table pairs) {} else writePairs 0 pairs {}
  Utf8.ofChars (s.toColumn 0).back.reverse

end ReplBridge.Yaml
