import ReplBridge.Yaml.Source

/-!
**A place in a YAML text.**

A place in a text is the characters that remain together with the line and the column that were
reached.  Indentation is a matter of columns, so that every step has to know whether it moves along
a line or on to the next.  Five characters end a line.  A carriage return with a newline after it
ends one line, not two.

A reader asks for characters before it looks at them.  Whole portions are taken then, and a fault in
one of them is met as soon as the portion is taken, even if the characters asked for stand before
it.

Main definitions:

* `Yaml.isBreak`, `Yaml.isBlank` — the classes of characters;
* `Yaml.Cursor` — a place, with the steps from one to the next;
* `Yaml.Cursor.need`, `Yaml.Cursor.look` — asking for characters, strictly and leniently.
-/

set_option autoImplicit false

namespace ReplBridge.Yaml

/-! ### Characters -/

/-- The mark of a single-quoted scalar. -/
def apostrophe : Char := Char.ofNat 0x27

/-- The mark of a double-quoted scalar. -/
def quotation : Char := Char.ofNat 0x22

/-- The mark of an escape. -/
def backslash : Char := Char.ofNat 0x5C

/-- The mark of an encoding, where it stands inside a text. -/
def byteOrderMark : Char := '\ufeff'

/-- The characters that end a line. -/
def isBreak (c : Char) : Bool :=
  c == '\n' || c == '\r' || c == '\u0085' || c == '\u2028' || c == '\u2029'

/-- Space and tab. -/
def isBlank (c : Char) : Bool := c == ' ' || c == '\t'

def isName (c : Char) : Bool := c.isAlphanum || c == '_' || c == '-'

/-! ### Places -/

/-- A place in a text. -/
structure Cursor where
  /-- The characters that remain. -/
  rest : List Char
  /-- The line, from zero. -/
  line : Nat := 0
  /-- The column, from zero. -/
  column : Nat := 0
  /-- The number of characters passed. -/
  index : Nat := 0
  /-- The number of characters taken so far, those that are passed included. -/
  taken : Nat := 0
  /-- Where the portions end that were not taken yet. -/
  ends : List Nat
  /-- The number of characters of the whole text. -/
  size : Nat
  /-- The fault in the last portion. -/
  fault : Option Fault
  /-- Whether a byte order mark stood at the place where characters were last taken.  Until more are
  taken, the first character of every line is passed over. -/
  marked : Bool := false
  /-- The fault that was met while looking ahead. -/
  met : Option Fault := none
  deriving Repr

namespace Cursor

/-- The beginning of a text. -/
def ofSource (s : Source) : Cursor :=
  { rest := s.chars, ends := s.ends, size := s.size, fault := s.fault }

/-- The character at a distance. -/
def at? (c : Cursor) (k : Nat) : Option Char := c.rest[k]?

/-- The character at the place. -/
def peek? (c : Cursor) : Option Char := c.rest.head?

/-- Whether a character stands at the place. -/
def sees (c : Cursor) (ch : Char) : Bool := c.peek? == some ch

def isEnd (c : Cursor) : Bool := c.rest.isEmpty

/-- Whether a blank, a line end or nothing stands at a distance. -/
def gapAt (c : Cursor) (k : Nat) : Bool :=
  match c.at? k with
  | some ch => isBlank ch || isBreak ch
  | none => true

/-- Whether a character of a class stands at the place. -/
def isAt (c : Cursor) (p : Char → Bool) : Bool :=
  match c.peek? with
  | some ch => p ch
  | none => false

/-- Whether a line ends at the place, or the text does. -/
def atLineEnd (c : Cursor) : Bool := c.isEnd || c.isAt isBreak

/-- Whether a mark between documents stands at the place. -/
def atMark (c : Cursor) (mark : Char) : Bool :=
  c.column == 0 && c.rest.take 3 == [mark, mark, mark] && c.gapAt 3

/-- Whether a document begins or ends at the place. -/
def atDocumentEdge (c : Cursor) : Bool := c.atMark '-' || c.atMark '.'

/-- A fault at the place, in what begins on a line. -/
def fail {α : Type} (c : Cursor) (around : Nat) (problem : String) : Except Fault α :=
  .error (.inText around c.line problem)

/-! ### Asking for characters -/

/-- Takes portions until there are `wanted` characters; behind the last portion the end of the text
counts as one more. -/
def take (fault : Option Fault) (wanted : Nat) : Nat → List Nat → Except Fault (Nat × List Nat)
  | taken, [] => .ok (taken + 1, [])
  | _, [last] =>
    match fault with
    | some f => .error f
    | none => .ok (if wanted ≤ last then last else last + 1, [])
  | _, portion :: rest =>
    if wanted ≤ portion then .ok (portion, rest) else take fault wanted portion rest

/-- **Asks for the next `n` characters**; fewer are there only at the end of the text. -/
def need (c : Cursor) (n : Nat) : Except Fault Cursor :=
  if c.index + n ≤ c.taken then .ok c
  else
    match take c.fault (c.index + n) c.taken c.ends with
    | .ok (taken, ends) => .ok { c with taken, ends, marked := c.sees byteOrderMark }
    | .error f => .error f

/-- Asks for the next `n` characters while looking ahead: a fault is noted, and the characters before
it can be read.  The flag says whether there was none. -/
def look (c : Cursor) (n : Nat) : Cursor × Bool :=
  match c.need n with
  | .ok c => (c, true)
  | .error f => ({ c with taken := c.size, marked := c.sees byteOrderMark, met := some f }, false)

/-! ### Steps -/

/-- Moves along a line. -/
def move (c : Cursor) (k : Nat) : Cursor :=
  { c with rest := c.rest.drop k, column := c.column + k, index := c.index + k }

/-- Moves over one character. -/
def skip (c : Cursor) : Cursor :=
  { c with rest := c.rest.tail, column := c.column + 1, index := c.index + 1 }

/-- Moves over one character and asks for the next. -/
def step (c : Cursor) : Except Fault Cursor := c.skip.need 1

/-- Moves over the end of a line, which is at hand. -/
def overBreak (c : Cursor) : Cursor :=
  let width := match c.rest with
    | '\r' :: '\n' :: _ => 2
    | _ :: _ => 1
    | [] => 0
  { c with rest := c.rest.drop width, line := c.line + 1, column := 0, index := c.index + width }

/-- Moves over the end of a line. -/
def nextLine (c : Cursor) : Except Fault Cursor := do
  return (← c.need 2).overBreak

/-- What the end of a line at the place adds to a text: a newline, but for the two characters that
stand for themselves. -/
def breakText (c : Cursor) : List Char :=
  match c.peek? with
  | some ch => if ch == '\u2028' || ch == '\u2029' then [ch] else ['\n']
  | none => []

/-- Reads characters of a class. -/
def spanWithin (p : Char → Bool) : Nat → List Char → Cursor → Except Fault (List Char × Cursor)
  | 0, read, c => .ok (read.reverse, c)
  | fuel + 1, read, c =>
    match c.peek? with
    | some ch =>
      if p ch then
        match c.step with
        | .ok c => spanWithin p fuel (ch :: read) c
        | .error f => .error f
      else .ok (read.reverse, c)
    | none => .ok (read.reverse, c)

/-- The characters of a class that come next, and the place after them. -/
def span (c : Cursor) (p : Char → Bool) : Except Fault (List Char × Cursor) := do
  spanWithin p (c.size + 1) [] (← c.need 1)

/-- The place after the characters of a class. -/
def skipWhile (c : Cursor) (p : Char → Bool) : Except Fault Cursor := do
  return (← c.span p).2

/-- The place at the end of the line. -/
def toLineEnd (c : Cursor) : Except Fault Cursor := c.skipWhile (!isBreak ·)

/-! ### Comments -/

/-- How far one looks for a comment. -/
def farthest : Nat := 512

/-- The distance of the comment that stands behind characters of a class, if it is near. -/
def commentWithin (p : Char → Bool) : Nat → Nat → List Char → Cursor → Cursor × Option Nat
  | 0, _, _, c => (c, none)
  | fuel + 1, k, ahead, c =>
    let (c, whole) := c.look (k + 1)
    match ahead with
    | ch :: ahead =>
      if !whole then (c, none)
      else if p ch then commentWithin p fuel (k + 1) ahead c
      else (c, if ch == '#' then some k else none)
    | [] => (c, none)

/-- The distance of a comment that follows, from distance `k` on. -/
def comment? (c : Cursor) (p : Char → Bool) (k : Nat) : Cursor × Option Nat :=
  commentWithin p (farthest - k) k (c.rest.drop k) c

/-- Moves over blanks and line ends until `target` characters are passed. -/
def overGap (target : Nat) : Nat → Cursor → Except Fault Cursor
  | 0, c => .ok c
  | fuel + 1, c => do
    let c ← c.need 1
    if target ≤ c.index then return c
    else if c.isAt isBreak then overGap target fuel (← c.nextLine)
    else overGap target fuel c.skip

/-- The end of the line of a comment at a distance. -/
def overComment (c : Cursor) (k : Nat) : Except Fault Cursor := do
  (← overGap (c.index + k) (k + 1) c).toLineEnd

/-- The place after a comment at a distance and those that follow it on lines of their own. -/
def overComments : Nat → Nat → Cursor → Except Fault Cursor
  | 0, _, c => .ok c
  | fuel + 1, k, c => do
    let c ← c.overComment k
    match c.comment? (fun ch => isBlank ch || ch == '\n' || ch == '\r') 1 with
    | (c, some k) => overComments fuel k c
    | (c, none) => return c

/-- Moves over a comment that stands behind a token on its line. -/
def overLineComment (c : Cursor) : Except Fault Cursor :=
  match c.comment? isBlank 0 with
  | (c, some k) => c.overComment k
  | (c, none) => .ok c

end Cursor

end ReplBridge.Yaml
