import ReplBridge.Yaml.Scalar

/-!
**The tokens of a YAML text.**

Indentation is made explicit: a collection that is written by indentation begins with a token of its
own and ends with one.  Whether a scalar is a key is only seen at the colon after it, so that the
tokens for a key and for the mapping it begins are put in front of what was read already.  A key
that has no other mark has to stand on one line and may not be too long.

Tokens are handed out while others are read: a token leaves as soon as two others have been read
after it, unless it may turn out to be a key.  Reading stops at the end of the text, or at a place
that is no YAML; of the tokens before such a place those count that have left.

Main definitions:

* `Yaml.Token`, `Yaml.Placed` — a token, and the line it stands on;
* `Yaml.Lexer` — the state of reading, with `Lexer.fetch` for one token;
* `Yaml.tokens` — the tokens of a text.
-/

set_option autoImplicit false

namespace ReplBridge.Yaml

/-- A token.  Collections are indented (`block`) or stand in brackets and braces (`flow`).  The
handle of a tag is empty if the rest is all of the tag. -/
inductive Token where
  | textEnd
  | version (major minor : Nat)
  | tagShorthand (handle : List Char) (lead : Bytes)
  | documentStart
  | documentEnd
  | blockSequence
  | blockMapping
  | blockEnd
  | flowSequence
  | flowSequenceEnd
  | flowMapping
  | flowMappingEnd
  | blockEntry
  | flowEntry
  | key
  | value
  | alias (name : List Char)
  | anchor (name : List Char)
  | tag (handle : List Char) (suffix : Bytes)
  | scalar (isPlain : Bool) (text : List Char)
  deriving DecidableEq, Repr

/-- A token and the line it stands on. -/
structure Placed where
  token : Token
  /-- The line, from zero. -/
  line : Nat
  deriving DecidableEq, Repr

/-- What may turn out to be a key. -/
structure KeyCandidate where
  /-- The number of its first token. -/
  number : Nat
  required : Bool
  /-- Whether its first token is kept back. -/
  kept : Bool := true
  /-- Where it begins. -/
  start : Cursor
  deriving Repr

/-- The longest that a key without a mark may be. -/
def longestKey : Nat := 1024

/-- Whether a candidate may still be a key at a place. -/
def KeyCandidate.lives (k : KeyCandidate) (c : Cursor) : Bool :=
  k.start.line == c.line && decide (c.index ≤ k.start.index + longestKey)

/-- What is known about keys inside a bracket or brace, or outside of all. -/
structure Level where
  /-- What may turn out to be a key. -/
  candidate : Option KeyCandidate := none
  /-- The number of the last candidate, or that of the bracket if there was none. -/
  last : Nat := 0
  /-- The line of the last candidate. -/
  line : Nat := 0
  deriving Repr

/-- The state of reading. -/
structure Lexer where
  cursor : Cursor
  /-- The tokens so far, the last one first. -/
  tokens : List Placed := []
  count : Nat := 0
  /-- Whether the end was reached. -/
  finished : Bool := false
  /-- What is known about keys outside of brackets. -/
  outside : Level := {}
  /-- What is known about keys inside the open brackets, the innermost first. -/
  inside : List Level := []
  /-- How many brackets and braces are open. -/
  depth : Nat := 0
  /-- The indentation of the innermost indented collection, or `-1`. -/
  indent : Int := -1
  /-- The indentations of those around it. -/
  indents : List Int := []
  /-- Whether a key without a mark may begin at the place. -/
  keyAllowed : Bool := true
  deriving Repr

namespace Lexer

def line (s : Lexer) : Nat := s.cursor.line

/-- A fault at the place, in what begins on a line. -/
def fail {α : Type} (s : Lexer) (around : Nat) (problem : String) : Except Fault α :=
  s.cursor.fail around problem

def push (s : Lexer) (token : Token) (line : Nat) : Lexer :=
  { s with tokens := ⟨token, line⟩ :: s.tokens, count := s.count + 1 }

/-- A token before the one of a number. -/
def insert (s : Lexer) (number : Nat) (token : Token) (line : Nat) : Lexer :=
  let after := s.count - number
  { s with
    tokens := s.tokens.take after ++ ⟨token, line⟩ :: s.tokens.drop after
    count := s.count + 1 }

/-- What is known about keys at the place. -/
def level (s : Lexer) : Level := s.inside.headD s.outside

/-- Changes what is known about keys at the place. -/
def setLevel (s : Lexer) (l : Level) : Lexer :=
  match s.inside with
  | _ :: rest => { s with inside := l :: rest }
  | [] => { s with outside := l }

/-- The number of tokens that have left. -/
def handedOut (s : Lexer) : Nat :=
  (s.outside :: s.inside).foldl (fun n l => match l.candidate with
    | some k => if k.kept && k.lives s.cursor then min n k.number else n
    | none => n) (s.count - 2)

/-! ### Indentation -/

/-- How deep collections may be nested. -/
def deepest : Nat := 10000

/-- That collections are nested too deep. -/
def tooDeep : String := "exceeded max depth of 10000"

/-- Begins an indented collection at a column, unless one is open there; its token stands before the
one of a number, or at the end. -/
def openBlock (s : Lexer) (column : Nat) (number : Option Nat) (token : Token) (line : Nat) :
    Except Fault Lexer :=
  if s.depth = 0 && decide (s.indent < column) then
    let s := { s with indents := s.indent :: s.indents, indent := column }
    if deepest < s.indents.length then s.fail s.outside.line tooDeep
    else match number with
      | some n => .ok (s.insert n token line)
      | none => .ok (s.push token line)
  else .ok s

/-- Ends indented collections, by the indentations around the innermost one. -/
def closeBlocksWithin (column : Int) (line : Nat) : List Int → Lexer → Lexer
  | [], s => s
  | outer :: rest, s =>
    if column < s.indent then
      closeBlocksWithin column line rest
        ({ s with indents := rest, indent := outer }.push .blockEnd line)
    else s

/-- Ends the indented collections right of a column. -/
def closeBlocks (s : Lexer) (column : Int) : Lexer :=
  if s.depth = 0 then closeBlocksWithin column s.line s.indents s else s

/-! ### Keys -/

def missingColon : String := "could not find expected ':'"

/-- Gives up on the candidate at the place, which must not have had to be a key. -/
def dropCandidate (s : Lexer) : Except Fault Lexer :=
  match s.level.candidate with
  | some k =>
    if k.required then s.fail k.start.line missingColon
    else .ok (s.setLevel { s.level with candidate := none })
  | none => .ok s

/-- Notes that a key may begin at the place. -/
def noteCandidate (s : Lexer) : Except Fault Lexer := do
  if s.keyAllowed then
    let required := s.depth = 0 && s.indent == (s.cursor.column : Int)
    let k : KeyCandidate := { number := s.count, required, start := s.cursor }
    return (← s.dropCandidate).setLevel { candidate := some k, last := s.count, line := s.line }
  else return s

/-- The fault of a token that is next to leave, has to be a key, and cannot be one any more. -/
def stuck? (s : Lexer) : Option (Nat × Fault) :=
  match s.outside.candidate with
  | some k =>
    if k.kept && k.required && !k.lives s.cursor && decide (k.number + 2 < s.count) then
      some (k.number, .inText k.start.line s.line missingColon)
    else none
  | none => none

/-! ### Space between tokens -/

/-- Moves over space, comments and line ends.  A tab counts as space only where no key may
begin. -/
def toTokenWithin : Nat → Lexer → Except Fault Lexer
  | 0, s => .ok s
  | fuel + 1, s => do
    let c ← s.cursor.need 1
    let c := if c.column == 0 && c.marked then c.skip else c
    let tabs := decide (0 < s.depth) || !s.keyAllowed
    let c ← c.skipWhile fun ch => ch == ' ' || (tabs && ch == '\t')
    let c ← if c.sees '#' then Cursor.overComments (c.size + 1) 0 c else pure c
    if c.isAt isBreak then
      let cursor ← c.nextLine
      toTokenWithin fuel { s with cursor, keyAllowed := s.keyAllowed || s.depth = 0 }
    else return { s with cursor := c }

/-- Moves to the next token. -/
def toToken (s : Lexer) : Except Fault Lexer := toTokenWithin (s.cursor.size + 2) s

/-- Moves over a comment that stands behind a token on its line. -/
def overLineComment (s : Lexer) : Except Fault Lexer := do
  return { s with cursor := ← s.cursor.overLineComment }

/-! ### Single tokens -/

/-- The end of the text, which ends a line too. -/
def fetchEnd (s : Lexer) : Except Fault Lexer := do
  let c := s.cursor
  let cursor := if c.column != 0 then { c with column := 0, line := c.line + 1 } else c
  let s ← ({ s with cursor }.closeBlocks (-1)).dropCandidate
  return { s with keyAllowed := false, finished := true }.push .textEnd s.line

def fetchDocumentMark (s : Lexer) (token : Token) : Except Fault Lexer := do
  let s ← (s.closeBlocks (-1)).dropCandidate
  return { s with keyAllowed := false, cursor := s.cursor.move 3 }.push token s.line

/-- An opening bracket or brace. -/
def fetchOpening (s : Lexer) (token : Token) : Except Fault Lexer := do
  let s ← s.noteCandidate
  if deepest ≤ s.depth then s.fail s.line tooDeep
  else return { s with
    inside := { last := s.count, line := s.line } :: s.inside
    depth := s.depth + 1
    keyAllowed := true
    cursor := s.cursor.skip }.push token s.line

/-- A bracket that had no candidate inside is not kept back any more. -/
def release (number : Nat) (l : Level) : Level :=
  { l with candidate := l.candidate.map fun k => { k with kept := k.kept && k.number != number } }

/-- A closing bracket or brace. -/
def fetchClosing (s : Lexer) (token : Token) : Except Fault Lexer := do
  let s ← s.dropCandidate
  let s := match s.inside with
    | l :: rest =>
      let s := { s with inside := rest, depth := s.depth - 1 }
      s.setLevel (release l.last s.level)
    | [] => s
  return { s with keyAllowed := false, cursor := s.cursor.skip }.push token s.line

/-- A comma inside brackets. -/
def fetchFlowEntry (s : Lexer) : Except Fault Lexer := do
  let s ← s.dropCandidate
  return { s with keyAllowed := true, cursor := s.cursor.skip }.push .flowEntry s.line

/-- The mark of an item. -/
def fetchBlockEntry (s : Lexer) : Except Fault Lexer := do
  if s.depth = 0 && !s.keyAllowed then
    s.fail s.line "block sequence entries are not allowed in this context"
  else
    let s ← s.openBlock s.cursor.column none .blockSequence s.line
    let s ← s.dropCandidate
    return { s with keyAllowed := true, cursor := s.cursor.skip }.push .blockEntry s.line

def fetchKey (s : Lexer) : Except Fault Lexer := do
  if s.depth = 0 && !s.keyAllowed then
    s.fail s.line "mapping keys are not allowed in this context"
  else
    let s ← s.openBlock s.cursor.column none .blockMapping s.line
    let s ← s.dropCandidate
    return { s with keyAllowed := s.depth = 0, cursor := s.cursor.skip }.push .key s.line

/-- The candidate at the place, if it may still be a key; one that had to be and cannot is an
error. -/
def candidate (s : Lexer) : Except Fault (Option KeyCandidate) :=
  match s.level.candidate with
  | some k =>
    if k.lives s.cursor then .ok (some k)
    else if k.required then s.fail k.start.line missingColon
    else .ok none
  | none => .ok none

/-- Where the tokens for a key go: before the first of its own, unless that has left. -/
def placeFor (s : Lexer) (k : KeyCandidate) : Option Nat :=
  if k.kept || decide (s.handedOut ≤ k.number) then some k.number else none

def fetchValue (s : Lexer) : Except Fault Lexer := do
  match ← s.candidate with
  | some k =>
    let place := s.placeFor k
    let s := match place with
      | some n => s.insert n .key k.start.line
      | none => s.push .key k.start.line
    let s ← s.openBlock k.start.column place .blockMapping k.start.line
    let s := s.setLevel { s.level with candidate := none }
    return { s with keyAllowed := false, cursor := s.cursor.skip }.push .value s.line
  | none =>
    let s := s.setLevel { s.level with candidate := none }
    if s.depth = 0 && !s.keyAllowed then
      s.fail s.line "mapping values are not allowed in this context"
    else
      let s ← s.openBlock s.cursor.column none .blockMapping s.line
      return { s with keyAllowed := s.depth = 0, cursor := s.cursor.skip }.push .value s.line

/-- The characters that may follow the name of an anchor. -/
def endsAnchor (c : Char) : Bool :=
  isBlank c || isBreak c || c == '?' || c == ':' || c == ',' || c == ']' || c == '\x7d' || c == '%'
    || c == '@' || c == Char.ofNat 0x60

def fetchAnchor (s : Lexer) (token : List Char → Token) : Except Fault Lexer := do
  let s ← s.noteCandidate
  let (name, c) ← s.cursor.skip.span isName
  if name.isEmpty || !(c.isEnd || c.isAt endsAnchor) then
    s.fail s.line "did not find expected alphabetic or numeric character"
  else return { s with keyAllowed := false, cursor := c }.push (token name) s.line

/-! ### Tags -/

def isTagChar (c : Char) : Bool :=
  isName c || [';', '/', '?', ':', '@', '&', '=', '+', '$', ',', '.', '!', '~', '*', apostrophe,
    '(', ')', '[', ']', '%'].contains c

/-- The byte that an escape stands for, and the place after it. -/
def tagByte (c : Cursor) : Except Fault (UInt8 × Cursor) := do
  let c ← c.need 3
  match c.rest with
  | '%' :: a :: b :: _ =>
    match hexDigit? a, hexDigit? b with
    | some a, some b => return (UInt8.ofNat (16 * a + b), c.move 3)
    | _, _ => c.fail c.line "did not find URI escaped octet"
  | _ => c.fail c.line "did not find URI escaped octet"

/-- Reads the escapes of `n` more bytes of a character, in front of `text`, which is last first. -/
def tagTails : Nat → Bytes → Cursor → Except Fault (Bytes × Cursor)
  | 0, text, c => .ok (text, c)
  | n + 1, text, c => do
    let (b, c) ← tagByte c
    if Utf8.isTail b then tagTails n (b :: text) c
    else c.fail c.line "found an incorrect trailing UTF-8 octet"

/-- Reads the escapes of a character.  Its first byte says how many bytes there are; which character
they are does not matter. -/
def tagEscape (text : Bytes) (c : Cursor) : Except Fault (Bytes × Cursor) := do
  let (b, c) ← tagByte c
  match Encoding.width? b with
  | some w => tagTails (w - 1) (b :: text) c
  | none => c.fail c.line "found an incorrect leading UTF-8 octet"

/-- Reads the characters of a tag, in front of `text`, which is last first. -/
def tagWithin : Nat → Bytes → Cursor → Except Fault (Bytes × Cursor)
  | 0, text, c => .ok (text.reverse, c)
  | fuel + 1, text, c => do
    match c.peek? with
    | some ch =>
      if ch == '%' then
        let (text, c) ← tagEscape text c
        tagWithin fuel text (← c.need 1)
      else if isTagChar ch then tagWithin fuel ((Utf8.encode ch).reverseAux text) (← c.step)
      else return (text.reverse, c)
    | none => return (text.reverse, c)

/-- The bytes of a tag, of which there is one at least unless `known` ones stand before them, and the
place after it. -/
def tagText (known : List Char) (c : Cursor) : Except Fault (Bytes × Cursor) := do
  let (text, after) ← tagWithin (c.size + 1) [] (← c.need 1)
  if known.isEmpty && text.isEmpty then c.fail c.line "did not find expected tag URI"
  else return (Utf8.ofChars known ++ text, after)

/-- Whether a text is a handle: it begins and ends with an exclamation mark. -/
def isHandle (s : List Char) : Bool := decide (1 < s.length) && s.getLast? == some '!'

/-- The handle of a tag, which begins with an exclamation mark, or the beginning of a tag without a
handle. -/
def tagHandle (c : Cursor) : Except Fault (List Char × Cursor) := do
  let (name, after) ← c.skip.span isName
  return if after.sees '!' then ('!' :: name ++ ['!'], after.skip) else ('!' :: name, after)

/-- The handle and the rest of a tag, and the place after it. -/
def tagParts (c : Cursor) : Except Fault (List Char × Bytes × Cursor) := do
  let c ← c.need 2
  if c.at? 1 == some '<' then
    let (suffix, c) ← tagText [] (c.move 2)
    if !c.sees '>' then c.fail c.line "did not find the expected '>'"
    else return ([], suffix, c.skip)
  else
    let (handle, after) ← tagHandle c
    if isHandle handle then
      let (suffix, after) ← tagText [] after
      return (handle, suffix, after)
    else
      let (text, after) ← tagText handle after
      if text == utf8 "!" then return ([], text, after) else return (['!'], text.drop 1, after)

def fetchTag (s : Lexer) : Except Fault Lexer := do
  let s ← s.noteCandidate
  let (handle, suffix, c) ← tagParts s.cursor
  let c ← c.need 1
  if !c.gapAt 0 then s.fail s.line "did not find expected whitespace or line break"
  else return { s with keyAllowed := false, cursor := c }.push (.tag handle suffix) s.line

/-! ### Directives -/

/-- How many digits a number in a version may have. -/
def longestNumber : Nat := 2

/-- Reads digits in front of `n`, of which `room` more may follow. -/
def digitsWithin : Nat → Nat → Cursor → Except Fault (Nat × Cursor)
  | 0, n, c =>
    if c.isAt Char.isDigit then c.fail c.line "found extremely long version number" else .ok (n, c)
  | room + 1, n, c => do
    match c.peek? with
    | some d =>
      if d.isDigit then digitsWithin room (10 * n + (d.toNat - 0x30)) (← c.step) else return (n, c)
    | none => return (n, c)

def versionNumber (c : Cursor) : Except Fault (Nat × Cursor) := do
  let c ← c.need 1
  if !c.isAt Char.isDigit then c.fail c.line "did not find expected version number"
  else digitsWithin longestNumber 0 c

/-- A version: two numbers with a point between them. -/
def versionDirective (c : Cursor) : Except Fault (Token × Cursor) := do
  let (major, c) ← versionNumber c
  if !c.sees '.' then c.fail c.line "did not find expected digit or '.' character"
  else
    let (minor, c) ← versionNumber c.skip
    return (.version major minor, c)

/-- A shorthand for tags: a handle and what it stands for. -/
def tagDirective (c : Cursor) : Except Fault (Token × Cursor) := do
  if !c.sees '!' then c.fail c.line "did not find expected '!'"
  else
    let (handle, after) ← tagHandle c
    if handle != ['!'] && !isHandle handle then c.fail c.line "did not find expected '!'"
    else
      let after ← after.need 1
      if !after.isAt isBlank then c.fail c.line "did not find expected whitespace"
      else
        let (lead, c) ← tagText [] (← after.skipWhile isBlank)
        let c ← c.need 1
        if !c.gapAt 0 then c.fail c.line "did not find expected whitespace or line break"
        else return (.tagShorthand handle lead, c)

/-- The token of a directive, and the place after it. -/
def directive (c : Cursor) : Except Fault (Token × Cursor) := do
  let (name, after) ← c.skip.span isName
  if name.isEmpty then c.fail c.line "could not find expected directive name"
  else if !after.gapAt 0 then c.fail c.line "found unexpected non-alphabetical character"
  else if name == "YAML".toList then versionDirective (← after.skipWhile isBlank)
  else if name == "TAG".toList then tagDirective (← after.skipWhile isBlank)
  else c.fail c.line "found unknown directive name"

/-- A directive, which has a line of its own. -/
def fetchDirective (s : Lexer) : Except Fault Lexer := do
  let s ← (s.closeBlocks (-1)).dropCandidate
  let (token, c) ← directive s.cursor
  let c ← c.skipWhile isBlank
  let c ← if c.sees '#' then c.toLineEnd else pure c
  if !c.atLineEnd then c.fail c.line "did not find expected comment or line break"
  else
    let cursor ← if c.isEnd then pure c else c.nextLine
    return { s with keyAllowed := false, cursor }.push token s.line

/-! ### Scalars -/

/-- A scalar between quotes. -/
def fetchQuoted (s : Lexer) (single : Bool) : Except Fault Lexer := do
  let s ← s.noteCandidate
  let r ← quoted single s.cursor
  return { s with keyAllowed := false, cursor := r.after }.push (.scalar false r.text) s.line

/-- A plain scalar.  A comment may stand behind it unless its line is over. -/
def fetchPlain (s : Lexer) : Except Fault Lexer := do
  let s ← s.noteCandidate
  let r ← plain (decide (0 < s.depth)) (s.indent + 1) s.cursor
  let s := { s with keyAllowed := r.lineEnded, cursor := r.after }.push (.scalar true r.text) s.line
  if r.lineEnded then return s else s.overLineComment

def fetchBlock (s : Lexer) (folded : Bool) : Except Fault Lexer := do
  let s ← s.dropCandidate
  let r ← block folded s.indent s.cursor
  return { s with keyAllowed := true, cursor := r.after }.push (.scalar false r.text) s.line

/-- The characters that no plain scalar begins with. -/
def isIndicator (c : Char) : Bool :=
  ['-', '?', ':', ',', '[', ']', '\x7b', '\x7d', '#', '&', '*', '!', '|', '>', apostrophe,
    quotation, '%', '@', Char.ofNat 0x60].contains c

/-- Whether a plain scalar begins at the place. -/
def startsPlain (s : Lexer) : Bool :=
  let c := s.cursor
  (!c.gapAt 0 && !c.isAt isIndicator)
    || (c.sees '-' && !((c.at? 1).map isBlank).getD false)
    || (s.depth = 0 && (c.sees '?' || c.sees ':') && !c.gapAt 1)

/-- The token at the place, by its first character; a comment may stand behind it. -/
def fetchAt (s : Lexer) : Except Fault Lexer := do
  let c := s.cursor
  let inBrackets := decide (0 < s.depth)
  if c.sees '[' then (← s.fetchOpening .flowSequence).overLineComment
  else if c.sees '\x7b' then (← s.fetchOpening .flowMapping).overLineComment
  else if c.sees ']' then (← s.fetchClosing .flowSequenceEnd).overLineComment
  else if c.sees '\x7d' then (← s.fetchClosing .flowMappingEnd).overLineComment
  else if c.sees ',' then (← s.fetchFlowEntry).overLineComment
  else if c.sees '-' && c.gapAt 1 then s.fetchBlockEntry
  else if c.sees '?' && (inBrackets || c.gapAt 1) then (← s.fetchKey).overLineComment
  else if c.sees ':' && (inBrackets || c.gapAt 1) then (← s.fetchValue).overLineComment
  else if c.sees '*' then (← s.fetchAnchor .alias).overLineComment
  else if c.sees '&' then (← s.fetchAnchor .anchor).overLineComment
  else if c.sees '!' then (← s.fetchTag).overLineComment
  else if c.sees '|' && !inBrackets then s.fetchBlock false
  else if c.sees '>' && !inBrackets then s.fetchBlock true
  else if c.sees apostrophe then (← s.fetchQuoted true).overLineComment
  else if c.sees quotation then (← s.fetchQuoted false).overLineComment
  else if s.startsPlain then s.fetchPlain
  else s.fail s.line "found character that cannot start any token"

/-- Reads the next token, whatever was met while looking ahead. -/
def fetchNext (s : Lexer) : Except Fault Lexer := do
  let s ← s.toToken
  let s := s.closeBlocks s.cursor.column
  let c ← s.cursor.need 4
  let s := { s with cursor := c }
  if c.isEnd then s.fetchEnd
  else if c.column == 0 && c.sees '%' then s.fetchDirective
  else if c.atMark '-' then s.fetchDocumentMark .documentStart
  else if c.atMark '.' then s.fetchDocumentMark .documentEnd
  else s.fetchAt

/-- **Reads one token.**  A fault that was met while looking ahead counts if nothing else is wrong. -/
def fetch (s : Lexer) : Except Fault Lexer := do
  let s ← s.fetchNext
  match s.cursor.met with
  | some fault => .error fault
  | none => return s

/-- The tokens of a number that were read first. -/
def first (s : Lexer) (n : Nat) : List Placed := s.tokens.reverse.take n

end Lexer

/-- The tokens of a text, and the fault that stands behind them. -/
structure Tokens where
  placed : List Placed
  fault : Fault
  deriving Repr

def tokensWithin : Nat → Lexer → Tokens
  | 0, s => ⟨s.tokens.reverse, .inText 0 s.line "found unexpected end of stream"⟩
  | fuel + 1, s =>
    match s.stuck? with
    | some (number, fault) => ⟨s.first number, fault⟩
    | none =>
      match s.fetch with
      | .error fault => ⟨s.first s.handedOut, fault⟩
      | .ok s =>
        if s.finished then
          ⟨s.tokens.reverse, .inText 0 s.line "found unexpected end of stream"⟩
        else tokensWithin fuel s

/-- **The tokens of a text.** -/
def tokens (text : Source) : Tokens :=
  tokensWithin (text.size + 2) { cursor := .ofSource text }

end ReplBridge.Yaml
