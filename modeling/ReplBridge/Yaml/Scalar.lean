import ReplBridge.Yaml.Cursor

/-!
**The spellings of a scalar.**

A scalar is written plain, between quotes, or as a block of lines.  A plain or quoted one may go on
over several lines, which are then folded: a single line end becomes a space, and of several all
but the first are kept.  In a block the lines are kept or folded, and the end is clipped, stripped
or kept.

Main definitions:

* `Yaml.Gap` — the blanks and line ends between two words, and what they add to the text;
* `Yaml.plain`, `Yaml.quoted`, `Yaml.block` — reading a scalar of each kind.
-/

set_option autoImplicit false

namespace ReplBridge.Yaml

/-! ### Gaps -/

/-- Blanks and line ends between two words; all texts are last first. -/
structure Gap where
  /-- The blanks, as long as no line ended. -/
  blanks : List Char := []
  /-- Whether a line ended. -/
  broken : Bool := false
  /-- What the first line end adds. -/
  first : List Char := []
  /-- What the others add. -/
  more : List Char := []
  deriving Repr

/-- **What a gap adds to a text**, last first. -/
def Gap.text (g : Gap) : List Char :=
  if g.broken then
    if g.first == ['\n'] then (if g.more.isEmpty then [' '] else g.more) else g.more ++ g.first
  else g.blanks

/-- Reads on over a gap in what begins on the line `start`.  After a line end no tab may stand left
of column `indent`. -/
def gapWithin (start : Nat) (indent : Int) : Nat → Gap → Cursor → Except Fault (Gap × Cursor)
  | 0, g, c => .ok (g, c)
  | fuel + 1, g, c => do
    match c.peek? with
    | none => return (g, c)
    | some ch =>
      if isBlank ch then
        if g.broken && ch == '\t' && decide ((c.column : Int) < indent) then
          c.fail start "found a tab character that violates indentation"
        else
          let g := if g.broken then g else { g with blanks := ch :: g.blanks }
          gapWithin start indent fuel g (← c.step)
      else if isBreak ch then
        let g := if g.broken then { g with more := c.breakText ++ g.more }
          else { g with blanks := [], broken := true, first := c.breakText }
        gapWithin start indent fuel g (← (← c.nextLine).need 1)
      else return (g, c)

/-- Reads a gap that has begun as `g`. -/
def gap (start : Nat) (indent : Int) (g : Gap) (c : Cursor) : Except Fault (Gap × Cursor) := do
  gapWithin start indent (c.size + 1) g (← c.need 1)

/-! ### Plain scalars -/

/-- The marks that end a word inside brackets. -/
def isFlowMark (c : Char) : Bool :=
  c == ',' || c == '?' || c == '[' || c == ']' || c == '\x7b' || c == '\x7d'

/-- Whether a word ends at the place: at a gap, at a colon before one, and inside brackets at a
mark. -/
def endsWord (inBrackets : Bool) (c : Cursor) : Bool :=
  c.gapAt 0 || (c.sees ':' && c.gapAt 1) || (inBrackets && c.isAt isFlowMark)

/-- Reads a word in front of `text`, which is last first. -/
def wordWithin (inBrackets : Bool) : Nat → List Char → Cursor → Except Fault (List Char × Cursor)
  | 0, text, c => .ok (text, c)
  | fuel + 1, text, c => do
    match c.peek? with
    | some ch =>
      if endsWord inBrackets c then return (text, c)
      else wordWithin inBrackets fuel (ch :: text) (← c.skip.need 2)
    | none => return (text, c)

/-- A scalar that was read: its text, whether a line ended after it, and the place after it. -/
structure Reading where
  text : List Char
  /-- Whether a line ended between the text and the place. -/
  lineEnded : Bool := false
  after : Cursor
  deriving Repr

/-- Reads words and the gaps between them; the text is last first. -/
def plainWithin (start : Nat) (inBrackets : Bool) (indent : Int) :
    Nat → List Char → Gap → Cursor → Except Fault Reading
  | 0, text, g, c => .ok { text := text.reverse, lineEnded := g.broken, after := c }
  | fuel + 1, text, g, c => do
    let c ← c.need 4
    if c.atDocumentEdge || c.sees '#' then
      return { text := text.reverse, lineEnded := g.broken, after := c }
    else
      let (text, g, c) ←
        if endsWord inBrackets c then pure (text, g, c)
        else
          let (text, c) ← wordWithin inBrackets (c.size + 1) (g.text ++ text) c
          pure (text, {}, c)
      if !(c.isAt isBlank || c.isAt isBreak) then
        return { text := text.reverse, lineEnded := g.broken, after := c }
      else
        let (g, c) ← gap start indent g c
        if !inBrackets && decide ((c.column : Int) < indent) then
          return { text := text.reverse, lineEnded := g.broken, after := c }
        else plainWithin start inBrackets indent fuel text g c

/-- **Reads a plain scalar** whose lines are indented by `indent` at least. -/
def plain (inBrackets : Bool) (indent : Int) (c : Cursor) : Except Fault Reading :=
  plainWithin c.line inBrackets indent (c.size + 1) [] {} c

/-! ### Quoted scalars -/

/-- The characters that escapes of one letter stand for. -/
def escapes : List (Char × Char) :=
  [('0', '\x00'), ('a', '\x07'), ('b', '\x08'), ('t', '\t'), ('\t', '\t'), ('n', '\n'),
    ('v', '\x0b'), ('f', '\x0c'), ('r', '\r'), ('e', '\x1b'), (' ', ' '), (quotation, quotation),
    (apostrophe, apostrophe), (backslash, backslash), ('N', '\u0085'), ('_', '\u00a0'), ('L', '\u2028'),
    ('P', '\u2029')]

/-- How many hexadecimal digits follow the letter of an escape. -/
def escapeDigits? (c : Char) : Option Nat :=
  if c == 'x' then some 2 else if c == 'u' then some 4 else if c == 'U' then some 8 else none

/-- The value of a hexadecimal digit. -/
def hexDigit? (c : Char) : Option Nat :=
  if '0' ≤ c && c ≤ '9' then some (c.toNat - 0x30)
  else if 'a' ≤ c && c ≤ 'f' then some (c.toNat - 0x57)
  else if 'A' ≤ c && c ≤ 'F' then some (c.toNat - 0x37)
  else none

/-- The value of hexadecimal digits. -/
def hexValue? (digits : List Char) : Option Nat :=
  digits.foldl (fun n c => match n, hexDigit? c with
    | some n, some d => some (16 * n + d)
    | _, _ => none) (some 0)

/-- The character of a number, if there is one. -/
def charOf? (n : Nat) : Option Char :=
  if n < 0xD800 || (0xDFFF < n && n ≤ 0x10FFFF) then some (Char.ofNat n) else none

/-- The character that an escape stands for, which begins at the place, and the place after it. -/
def escape (start : Nat) (c : Cursor) : Except Fault (Char × Cursor) := do
  match c.at? 1 with
  | none => c.fail start "found unknown escape character"
  | some letter =>
    match escapes.lookup letter, escapeDigits? letter with
    | some ch, _ => return (ch, c.move 2)
    | none, some k =>
      let c ← (c.move 2).need k
      let digits := c.rest.take k
      match hexValue? digits with
      | some n =>
        if digits.length < k then c.fail start "did not find expected hexdecimal number"
        else match charOf? n with
          | some ch => return (ch, c.move k)
          | none => c.fail start "found invalid Unicode character escape code"
      | none => c.fail start "did not find expected hexdecimal number"
    | none, none => c.fail start "found unknown escape character"

/-- Reads the characters up to a blank, the end of the line or the closing quote, in front of `text`,
which is last first.  The flag says whether an escaped line end stopped it. -/
def quotedWord (start : Nat) (single : Bool) : Nat → List Char → Cursor →
    Except Fault (List Char × Bool × Cursor)
  | 0, text, c => .ok (text, false, c)
  | fuel + 1, text, c => do
    match c.peek? with
    | none => return (text, false, c)
    | some ch =>
      if isBlank ch || isBreak ch then return (text, false, c)
      else if single && ch == apostrophe then
        if c.at? 1 == some apostrophe then
          quotedWord start single fuel (ch :: text) (← (c.move 2).need 2)
        else return (text, false, c)
      else if !single && ch == quotation then return (text, false, c)
      else if !single && ch == backslash then
        if ((c.at? 1).map isBreak).getD false then
          return (text, true, (← c.need 3).skip.overBreak)
        else
          let (e, c) ← escape start c
          quotedWord start single fuel (e :: text) (← c.need 2)
      else quotedWord start single fuel (ch :: text) (← c.skip.need 2)

/-- Reads the words of a quoted scalar and the gaps between them; the text is last first. -/
def quotedWithin (start : Nat) (single : Bool) : Nat → List Char → Cursor → Except Fault Reading
  | 0, _, c => c.fail start "found unexpected end of stream"
  | fuel + 1, text, c => do
    let c ← c.need 4
    if c.atDocumentEdge then c.fail start "found unexpected document indicator"
    else if c.isEnd then c.fail start "found unexpected end of stream"
    else
      let (text, escapedEnd, c) ← quotedWord start single (c.size + 1) text c
      let c ← c.need 1
      if c.sees (if single then apostrophe else quotation) then
        return { text := text.reverse, after := c.skip }
      else
        let (g, c) ← gap start 0 { broken := escapedEnd } c
        quotedWithin start single fuel (g.text ++ text) c

/-- **Reads a quoted scalar** from its opening quote on. -/
def quoted (single : Bool) (c : Cursor) : Except Fault Reading :=
  quotedWithin c.line single (c.size + 1) [] c.skip

/-! ### Blocks -/

/-- What is kept of the line ends at the end of a block: one, none or all. -/
inductive Chomping where
  | clip
  | strip
  | keep
  deriving DecidableEq, Repr

/-- What the character after a block's mark says about its end. -/
def chomping? (c : Cursor) : Option Chomping :=
  if c.sees '+' then some .keep else if c.sees '-' then some .strip else none

/-- Reads the digit that gives the indentation of a block, if there is one; it is not zero. -/
def indentDigit (c : Cursor) : Except Fault (Option Nat × Cursor) :=
  match c.peek? with
  | some ch =>
    if ch == '0' then c.fail c.line "found an indentation indicator equal to 0"
    else if ch.isDigit then .ok (some (ch.toNat - 0x30), c.skip)
    else .ok (none, c)
  | none => .ok (none, c)

/-- Reads what stands after a block's mark: how it ends and how it is indented, in any order. -/
def blockHead (c : Cursor) : Except Fault (Chomping × Option Nat × Cursor) := do
  let c ← c.need 1
  match chomping? c with
  | some chomping =>
    let (digit, c) ← indentDigit (← c.step)
    return (chomping, digit, c)
  | none =>
    match ← indentDigit c with
    | (none, c) => return (.clip, none, c)
    | (some n, c) =>
      let c ← c.need 1
      match chomping? c with
      | some chomping => return (chomping, some n, c.skip)
      | none => return (.clip, some n, c)

/-- The empty lines before a line of a block: what they add, last first, the widest of them, and the
place. -/
structure Leading where
  /-- What the line ends add. -/
  breaks : List Char := []
  /-- The widest column that was reached. -/
  widest : Nat := 0
  after : Cursor
  deriving Repr

/-- Whether a column is still left of an indentation, which may be unknown. -/
def isInside (indent : Option Nat) (column : Nat) : Bool :=
  match indent with
  | some n => decide (column < n)
  | none => true

/-- Moves over the spaces of an indentation. -/
def overIndent (indent : Option Nat) : Nat → Cursor → Except Fault Cursor
  | 0, c => .ok c
  | fuel + 1, c => do
    if isInside indent c.column && c.sees ' ' then overIndent indent fuel (← c.step) else return c

/-- Reads empty lines.  Without an indentation, all spaces are taken for it; where indentation is
expected no tab may stand. -/
def leadingWithin (start : Nat) (indent : Option Nat) : Nat → Leading → Except Fault Leading
  | 0, l => .ok l
  | fuel + 1, l => do
    let c ← overIndent indent (l.after.size + 1) (← l.after.need 1)
    if isInside indent c.column && c.sees '\t' then
      c.fail start "found a tab character where an indentation space is expected"
    else
      let l := { l with widest := max l.widest c.column, after := c }
      if c.isAt isBreak then
        let after ← c.nextLine
        leadingWithin start indent fuel { l with breaks := c.breakText ++ l.breaks, after }
      else return l

/-- Reads empty lines from a place on. -/
def leading (start : Nat) (indent : Option Nat) (c : Cursor) : Except Fault Leading :=
  leadingWithin start indent (c.size + 1) { after := c }

/-- The text of a block so far; all parts are last first. -/
structure BlockText where
  /-- The text up to the last line end. -/
  text : List Char := []
  /-- The end of the last line. -/
  last : List Char := []
  /-- The empty lines after it. -/
  empty : List Char := []
  /-- Whether the last line began with a blank. -/
  blankStart : Bool := false
  deriving Repr

/-- A line begins: what ended the one before is added to a block. -/
def BlockText.join (b : BlockText) (folded blank : Bool) : BlockText :=
  let joined :=
    if folded && !b.blankStart && !blank && b.last == ['\n'] then
      (if b.empty.isEmpty then [' '] else [])
    else b.last
  { text := b.empty ++ joined ++ b.text, blankStart := blank }

/-- Reads the lines of a block. -/
def blockWithin (start : Nat) (folded : Bool) (indent : Nat) :
    Nat → BlockText → Cursor → Except Fault (BlockText × Cursor)
  | 0, b, c => .ok (b, c)
  | fuel + 1, b, c => do
    if c.column == indent && !c.isEnd then
      let b := b.join folded (c.isAt isBlank)
      let (line, c) ← c.span (!isBreak ·)
      let c ← c.need 2
      let last := c.breakText
      let l ← leading start (some indent) (if c.isEnd then c else c.overBreak)
      let b := { b with text := line.reverseAux b.text, last, empty := l.breaks }
      blockWithin start folded indent fuel b l.after
    else return (b, c)

/-- **Reads a block** from its mark on, inside what is indented by `outer`. -/
def block (folded : Bool) (outer : Int) (c : Cursor) : Except Fault Reading := do
  let start := c.line
  let (chomping, digit, c) ← blockHead c.skip
  let c ← c.skipWhile isBlank
  let c ← if c.sees '#' then c.toLineEnd else pure c
  if !c.atLineEnd then c.fail start "did not find expected comment or line break"
  else
    let c ← if c.isEnd then pure c else c.nextLine
    let given := digit.map fun n => (if 0 ≤ outer then outer.toNat else 0) + n
    let l ← leading start given c
    let indent := given.getD (max (max l.widest (outer + 1).toNat) 1)
    let c ← l.after.need 1
    let (b, c) ← blockWithin start folded indent (c.size + 1) { empty := l.breaks } c
    let text := match chomping with
      | .strip => b.text
      | .clip => b.last ++ b.text
      | .keep => b.empty ++ b.last ++ b.text
    return { text := text.reverse, lineEnded := true, after := c }

end ReplBridge.Yaml
