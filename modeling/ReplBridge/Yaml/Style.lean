import ReplBridge.Yaml.Cursor
import ReplBridge.Yaml.Value

/-!
**How a text is best written in YAML.**

A text is written plain if it then reads back as the same text.  If it would read back as something
else, as a number say, it stands between double quotes; if only its characters are in the way,
between single ones.  A text of several lines is written as a block.
-/

set_option autoImplicit false

namespace ReplBridge.Yaml

/-- The ways to write a text: as it is, between single quotes, between double quotes with escapes,
or as a block of lines. -/
inductive Style where
  | plain
  | single
  | double
  | block
  deriving DecidableEq, Repr

/-- Whether a character may stand for itself.  Those beyond the basic plane may not. -/
def isPrintable (c : Char) : Bool :=
  let n := c.toNat
  n == 0x0A || (0x20 ≤ n && n ≤ 0x7E) || (0xA0 ≤ n && n ≤ 0xFFFD && n != 0xFEFF)

/-- The characters that no plain text may begin with. -/
def isOpening (c : Char) : Bool :=
  ['#', ',', '[', ']', '\x7b', '\x7d', '&', '*', '!', '|', '>', apostrophe, quotation, '%', '@',
    Char.ofNat 0x60].contains c

/-- What about a text speaks against some styles. -/
structure Traits where
  /-- It has the marks of something else. -/
  marks : Bool := false
  /-- It has a line end. -/
  breaks : Bool := false
  tab : Bool := false
  /-- It has a character that may not stand for itself. -/
  special : Bool := false
  /-- It begins or ends with a space or a line end. -/
  loose : Bool := false
  trailingSpace : Bool := false
  /-- A space stands right behind a line end. -/
  breakSpace : Bool := false
  /-- A space stands right before a line end. -/
  spaceBreak : Bool := false
  deriving DecidableEq, Repr

namespace Traits

/-- Whether two characters of two classes stand side by side. -/
def sideBySide (p q : Char → Bool) : List Char → Bool
  | a :: b :: rest => (p a && q b) || sideBySide p q (b :: rest)
  | _ => false

/-- Whether nothing or a blank comes first. -/
def startsBlank (cs : List Char) : Bool := (cs.head?.map isBlank).getD true

/-- Whether a text has marks behind its first character; `before` is the character before. -/
def innerMarks (before : Char) : List Char → Bool
  | [] => false
  | c :: rest =>
    (c == ':' && startsBlank rest) || (c == '#' && (isBlank before || isBreak before))
      || innerMarks c rest

/-- Whether a text has the marks of something else. -/
def hasMarks (cs : List Char) : Bool :=
  let edge := ['-', '-', '-'].isPrefixOf cs || ['.', '.', '.'].isPrefixOf cs
  match cs with
  | [] => false
  | c :: rest =>
    edge || isOpening c || ((c == '?' || c == ':' || c == '-') && startsBlank rest)
      || innerMarks c rest

/-- **What about a text speaks against some styles.** -/
def ofText (cs : List Char) : Traits :=
  let isSpace := (· == ' ')
  let isLoose := fun c => isSpace c || isBreak c
  { marks := hasMarks cs
    breaks := cs.any isBreak
    tab := cs.contains '\t'
    special := cs.any fun c => c != '\t' && !isPrintable c
    loose := (cs.head?.map isLoose).getD false || (cs.getLast?.map isLoose).getD false
    trailingSpace := (cs.getLast?.map isSpace).getD false
    breakSpace := sideBySide isBreak isSpace cs
    spaceBreak := sideBySide isSpace isBreak cs }

/-- Whether a text with these traits may stand between single quotes. -/
def singleOk (t : Traits) : Bool := !(t.breakSpace || t.spaceBreak || t.tab || t.special)

/-- Whether a text with these traits may be plain. -/
def plainOk (t : Traits) : Bool := t.singleOk && !(t.loose || t.breaks || t.marks)

/-- Whether a text with these traits may be a block. -/
def blockOk (t : Traits) : Bool := !(t.trailingSpace || t.spaceBreak || t.special)

end Traits

/-! ### Texts that look like something else -/

/-- The words that older readers take for truth values. -/
def oldFlags : List Bytes :=
  ["y", "Y", "yes", "Yes", "YES", "on", "On", "ON", "n", "N", "no", "No", "NO", "off", "Off",
    "OFF"].map utf8

/-- One or two digits that are a number below sixty. -/
def isBelowSixty : Bytes → Bool
  | [a] => Bytes.isDigit a
  | [a, b] => Bytes.within 0x30 0x35 a && Bytes.isDigit b
  | _ => false

def isGrouped (s : Bytes) : Bool := s.all fun b => Bytes.isDigit b || b == 0x5F

/-- A number below sixty, maybe with a fraction. -/
def isSixtieth (s : Bytes) : Bool :=
  match Bytes.cut? [0x2E] s with
  | some (whole, fraction) => isBelowSixty whole && isGrouped fraction
  | none => isBelowSixty s

/-- Whether older readers take a text for a number in base sixty: digits, and numbers below sixty
behind colons. -/
def isBaseSixty (s : Bytes) : Bool :=
  match Bytes.split [0x3A] (Value.unsigned s).2 with
  | first :: second :: rest =>
    (first.head?.map Bytes.isDigit).getD false && isGrouped first
      && (second :: rest).dropLast.all isBelowSixty
      && ((second :: rest).getLast?.map isSixtieth).getD false
  | _ => false

/-- Whether a plain text reads back as text. -/
def readsAsText (s : Bytes) : Bool :=
  Value.ofPlain true s = .text && !oldFlags.contains s && !isBaseSixty s

/-- **The style of a text.**  A text that is a key has to stand on one line. -/
def style (asKey : Bool) (s : Bytes) : Style :=
  let traits := Traits.ofText ((Utf8.pieces s).map Utf8.Piece.char)
  if s.contains 0x0A then (if traits.blockOk && !asKey then .block else .double)
  else if !readsAsText s || (asKey && traits.breaks) then .double
  else if traits.plainOk then .plain
  else if traits.singleOk then .single
  else .double

end ReplBridge.Yaml
