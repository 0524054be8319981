import ReplBridge.Log.Level
import ReplBridge.Log.Value

/-!
**The lines of a log.**

A record has a level, a message and attributes.  It is written as one line, either as words with an
equals sign, where what could be misread is put in quotes, or as JSON.
-/

set_option autoImplicit false

namespace ReplBridge.Log

/-- Something that is logged. -/
structure Record where
  level : Level := Level.info
  message : Bytes
  /-- More about it. -/
  attributes : List (Bytes × Value) := []
  deriving Repr

/-- How records are written. -/
inductive Format where
  | words
  | json
  deriving DecidableEq, Repr

/-- Whether a line shows an attribute: one without key and value is left out. -/
def shown (a : Bytes × Value) : Bool :=
  match a with
  | ([], .none) => false
  | _ => true

/-! ### Words -/

/-- Whether a piece could be misread in a word. -/
def isDoubtful : Utf8.Piece → Bool
  | .stray _ => true
  | .scalar c =>
    if c.toNat < 0x80 then c.toNat ≤ 0x20 || c.toNat == 0x22 || c.toNat == 0x3D
    else c == Utf8.replacement || Blank.isSpace c || !Printable.isPrintable c

/-- A word, in quotes if it could be misread. -/
def word (s : Bytes) : Bytes :=
  if s.isEmpty || (Utf8.pieces s).any isDoubtful then Quoted.quote s else s

def Value.word (v : Value) : Bytes := Log.word v.plain

def attributeWords (attributes : List (Bytes × Value)) : List Bytes :=
  (attributes.filter shown).map fun (key, value) => word key ++ [0x3D] ++ value.word

def wordsLine (r : Record) : Bytes :=
  Bytes.join [0x20] ((utf8 "level=" ++ word r.level.text) :: (utf8 "msg=" ++ word r.message)
    :: attributeWords r.attributes)

/-! ### JSON -/

/-- A value as JSON.  A text that is a value by itself has its own spelling. -/
def Value.spelling : Value → Bytes
  | .text s => Json.quotePlain s
  | v => v.json

def jsonLine (r : Record) : Bytes :=
  let members := [(utf8 "level", Value.text r.level.text), (utf8 "msg", .text r.message)]
    ++ r.attributes.filter shown
  [0x7B] ++ Bytes.join [0x2C] (members.map fun (key, value) =>
    Json.quotePlain key ++ [0x3A] ++ value.spelling) ++ [0x7D]

/-- **The line for a record**, without its time. -/
def line : Format → Record → Bytes
  | .words, r => wordsLine r
  | .json, r => jsonLine r

/-- Which records are written, and how. -/
structure Logger where
  least : Level := Level.info
  /-- How records are written. -/
  format : Format := .words
  deriving Repr

namespace Logger

/-- Whether records of a level are written. -/
def enabled (l : Logger) (level : Level) : Bool := l.least ≤ level

/-- **The lines for records.** -/
def lines (l : Logger) (records : List Record) : List Bytes :=
  (records.filter fun r => l.enabled r.level).map (line l.format)

end Logger

end ReplBridge.Log
