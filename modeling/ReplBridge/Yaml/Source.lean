import ReplBridge.Text.Utf8

/-!
**The characters of a YAML text.**

A text is written in UTF-8, or in UTF-16 if it begins with the mark of that encoding.  Its bytes are
taken in portions of equal size, and a character that a portion cuts in two belongs to the next one.
What is wrong with a portion is found when the portion is first looked into, and not before: a
reader that never comes so far never meets it.

Main definitions:

* `Yaml.Fault` — why a text could not be read;
* `Yaml.Encoding`, `Yaml.Encoding.next` — the encodings, and the character that some bytes begin
  with;
* `Yaml.Source`, `Yaml.Source.ofBytes` — the characters of a text, where its portions end, and the
  fault that stands behind them.
-/

set_option autoImplicit false

namespace ReplBridge.Yaml

/-- Why a text could not be read. -/
structure Fault where
  problem : Bytes
  line : Option Nat := none
  deriving DecidableEq, Repr

namespace Fault

/-- The line that is told: that of the construct around the place, or that of the place, or none if
both are on the first line. -/
def toldLine (around place : Nat) : Option Nat :=
  if around != 0 then some around else if place != 0 then some place else none

/-- A fault in the characters of a text; lines are counted from zero. -/
def inText (around place : Nat) (problem : String) : Fault :=
  { problem := utf8 problem, line := (toldLine around place).map (· + 1) }

/-- A fault in the order of tokens; the line that is told is the one before. -/
def inTokens (around place : Nat) (problem : String) : Fault :=
  { problem := utf8 problem, line := toldLine around place }

/-- **The text of a fault.** -/
def message (f : Fault) : Bytes :=
  let place := match f.line with
    | some n => utf8 "line " ++ utf8 (toString n) ++ utf8 ": "
    | none => []
  utf8 "yaml: " ++ place ++ f.problem

end Fault

/-! ### Encodings -/

/-- The characters that a text may hold. -/
def isAllowed (c : Char) : Bool :=
  let n := c.toNat
  n == 0x09 || n == 0x0A || n == 0x0D || (0x20 ≤ n && n ≤ 0x7E) || n == 0x85
    || (0xA0 ≤ n && n ≤ 0xD7FF) || (0xE000 ≤ n && n ≤ 0xFFFD) || 0x10000 ≤ n

/-- How a text is encoded: with one to four bytes to a character, or with two or four, of which the
low one comes first or not. -/
inductive Encoding where
  | utf8
  | utf16 (lowFirst : Bool)
  deriving DecidableEq, Repr

/-- What some bytes begin with: a character, by its number and how many bytes it takes; the
beginning of one, and what is wrong if nothing follows; or no character. -/
inductive Step where
  | char (number width : Nat)
  | short (problem : String)
  | bad (problem : String)
  deriving DecidableEq, Repr

namespace Encoding

/-- The encoding of a text, and how long the mark of it is that the text begins with. -/
def ofMark : Bytes → Encoding × Nat
  | 0xFF :: 0xFE :: _ => (.utf16 true, 2)
  | 0xFE :: 0xFF :: _ => (.utf16 false, 2)
  | 0xEF :: 0xBB :: 0xBF :: _ => (.utf8, 3)
  | _ => (.utf8, 0)

/-- How many bytes a leading byte announces, itself included. -/
def width? (b : UInt8) : Option Nat :=
  if b < 0x80 then some 1
  else if Bytes.within 0xC0 0xDF b then some 2
  else if Bytes.within 0xE0 0xEF b then some 3
  else if Bytes.within 0xF0 0xF7 b then some 4
  else none

/-- The bits of a leading byte that belong to the number of the character. -/
def leadBits (width : Nat) (b : UInt8) : Nat :=
  match width with
  | 1 => b.toNat
  | 2 => b.toNat % 32
  | 3 => b.toNat % 16
  | _ => b.toNat % 8

/-- The least number that needs so many bytes. -/
def least (width : Nat) : Nat :=
  match width with
  | 1 => 0
  | 2 => 0x80
  | 3 => 0x800
  | _ => 0x10000

/-- Half of a pair of UTF-16 units. -/
def isHalf (n : Nat) : Bool := 0xD800 ≤ n && n ≤ 0xDFFF

/-- The first half of a pair. -/
def isHighHalf (n : Nat) : Bool := 0xD800 ≤ n && n ≤ 0xDBFF

/-- The second half of a pair. -/
def isLowHalf (n : Nat) : Bool := 0xDC00 ≤ n && n ≤ 0xDFFF

/-- The character that bytes of UTF-8 begin with, of which `room` are at hand. -/
def nextUtf8 (room : Nat) (s : Bytes) : Step :=
  match s with
  | [] => .short "incomplete UTF-8 octet sequence"
  | b :: rest =>
    match width? b with
    | none => .bad "invalid leading UTF-8 octet"
    | some w =>
      let tails := rest.take (w - 1)
      if room < w || tails.length < w - 1 then .short "incomplete UTF-8 octet sequence"
      else if !tails.all Utf8.isTail then .bad "invalid trailing UTF-8 octet"
      else
        let n := tails.foldl (fun n t => 64 * n + t.toNat % 64) (leadBits w b)
        if n < least w then .bad "invalid length of a UTF-8 sequence"
        else if isHalf n || 0x10FFFF < n then .bad "invalid Unicode character"
        else .char n w

/-- The number that two bytes make. -/
def unit (lowFirst : Bool) (a b : UInt8) : Nat :=
  if lowFirst then a.toNat + 256 * b.toNat else 256 * a.toNat + b.toNat

/-- The character that bytes of UTF-16 begin with, of which `room` are at hand. -/
def nextUtf16 (lowFirst : Bool) (room : Nat) (s : Bytes) : Step :=
  match s with
  | a :: b :: rest =>
    let n := unit lowFirst a b
    if room < 2 then .short "incomplete UTF-16 character"
    else if isLowHalf n then .bad "unexpected low surrogate area"
    else if isHighHalf n then
      match rest with
      | c :: d :: _ =>
        let m := unit lowFirst c d
        if room < 4 then .short "incomplete UTF-16 surrogate pair"
        else if !isLowHalf m then .bad "expected low surrogate area"
        else .char (0x10000 + n % 1024 * 1024 + m % 1024) 4
      | _ => .short "incomplete UTF-16 surrogate pair"
    else .char n 2
  | _ => .short "incomplete UTF-16 character"

/-- **The character that some bytes begin with**, of which `room` are at hand. -/
def next : Encoding → Nat → Bytes → Step
  | .utf8 => nextUtf8
  | .utf16 lowFirst => nextUtf16 lowFirst

end Encoding

/-! ### Portions -/

/-- The number of bytes that are taken at once. -/
def portionSize : Nat := 512

/-- The characters of a text up to its first fault. -/
structure Source where
  chars : List Char
  size : Nat
  /-- How many characters the text has up to the end of each portion; the last portion is the one
  with the fault. -/
  ends : List Nat
  fault : Option Fault := none
  deriving Repr

namespace Source

/-- The characters so far, the last one first. -/
structure Draft where
  chars : List Char := []
  size : Nat := 0
  /-- Where the portions end, the last one first. -/
  ends : List Nat := []
  deriving Repr

def Draft.close (d : Draft) : Draft := { d with ends := d.size :: d.ends }

/-- A character is added. -/
def Draft.push (d : Draft) (c : Char) : Draft :=
  { d with chars := c :: d.chars, size := d.size + 1 }

/-- The source of a draft, with the fault in its last portion. -/
def Draft.source (d : Draft) (problem : Option String) : Source :=
  { chars := d.chars.reverse
    size := d.size
    ends := d.ends.reverse
    fault := problem.map fun p => { problem := utf8 p } }

/-- Reads on; `room` bytes of the portion are left. -/
def readWithin (e : Encoding) : Nat → Nat → Bytes → Draft → Source
  | 0, _, _, d => d.close.source none
  | fuel + 1, room, s, d =>
    if s.isEmpty then d.close.source none
    else if room = 0 then readWithin e fuel portionSize s d.close
    else
      match e.next room s with
      | .char n w =>
        let c := Char.ofNat n
        if isAllowed c then readWithin e fuel (room - w) (s.drop w) (d.push c)
        else d.close.source (some "control characters are not allowed")
      | .bad problem => d.close.source (some problem)
      | .short problem =>
        if (s.drop room).isEmpty then d.close.close.source (some problem)
        else readWithin e fuel portionSize s d.close

/-- **The characters of a text.** -/
def ofBytes (s : Bytes) : Source :=
  let (e, mark) := Encoding.ofMark s
  readWithin e (2 * s.length + 2) (portionSize - mark) (s.drop mark) {}

end Source

end ReplBridge.Yaml
