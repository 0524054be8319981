import ReplBridge.Json.Reader

/-!
**Writing JSON.**

Trees are written back with the spelling they hold, either without white space or one member a
line.  The characters that a page of markup would read as its own (`<`, `>`, `&` and the two line
separators of Unicode) are spelled as escapes, which changes no meaning.  A text of its own is
spelled as a string with `quote`.

Main definitions:

* `Json.quote` — the string that means a given text;
* `Json.guardMarkup` — the same spelling with the markup characters as escapes;
* `Json.compact` — a tree without white space;
* `Json.indented` — a tree with one item or member a line.
-/

set_option autoImplicit false

namespace ReplBridge.Json

/-! ### Strings -/

/-- Four hexadecimal digits after `\u`. -/
def unicodeEscapeOf (n : Nat) : Bytes :=
  [0x5C, 0x75, Bytes.hexDigit (n / 4096 % 16), Bytes.hexDigit (n / 256 % 16),
    Bytes.hexDigit (n / 16 % 16), Bytes.hexDigit (n % 16)]

/-- Whether a character is spelled as an escape so that markup does not read it. -/
def isMarkup (c : Char) : Bool := c == '<' || c == '>' || c == '&'

/-- Whether a character ends a line in markup and scripts. -/
def isSeparator (c : Char) : Bool := c == '\u2028' || c == '\u2029'

/-- The spelling of one piece inside a string; a stray byte is spelled as U+FFFD. -/
def spell (markup : Bool) : Utf8.Piece → Bytes
  | .stray _ => unicodeEscapeOf 0xFFFD
  | .scalar c =>
    if c == '"' then [0x5C, 0x22]
    else if c == '\\' then [0x5C, 0x5C]
    else if c == '\n' then [0x5C, 0x6E]
    else if c == '\r' then [0x5C, 0x72]
    else if c == '\t' then [0x5C, 0x74]
    else if c == '\x08' then [0x5C, 0x62]
    else if c == '\x0c' then [0x5C, 0x66]
    else if c.toNat < 0x20 then unicodeEscapeOf c.toNat
    else if markup && isMarkup c || isSeparator c then unicodeEscapeOf c.toNat
    else Utf8.encode c

/-- The bytes between the quotes of the string that means `s`, markup characters as escapes. -/
def rawOf (s : Bytes) : Bytes := (Utf8.pieces s).flatMap (spell true)

/-- The string that means `s`, with its quotes and with markup characters as escapes. -/
def quote (s : Bytes) : Bytes := [0x22] ++ rawOf s ++ [0x22]

/-- The spelling of one piece inside a string with markup characters as they are, and with letters
only for the ends of lines and tabs. -/
def spellPlain : Utf8.Piece → Bytes
  | .stray b => spell false (.stray b)
  | .scalar c =>
    if c == '\x08' || c == '\x0c' then unicodeEscapeOf c.toNat else spell false (.scalar c)

/-- The string that means `s`, with its quotes and with markup characters as they are. -/
def quotePlain (s : Bytes) : Bytes := [0x22] ++ (Utf8.pieces s).flatMap spellPlain ++ [0x22]

/-- The spelling of a string with its markup characters as escapes. -/
def guardMarkup (raw : Bytes) : Bytes :=
  go [] 0 raw
where
  /-- `acc` is last first; `skip` bytes are already accounted for. -/
  go (acc : Bytes) : Nat → Bytes → Bytes
    | _, [] => acc.reverse
    | skip + 1, _ :: rest => go acc skip rest
    | 0, b :: rest =>
      if b == 0x3C || b == 0x3E || b == 0x26 then
        go ((unicodeEscapeOf b.toNat).reverseAux acc) 0 rest
      else if b == 0xE2 then
        match rest with
        | 0x80 :: 0xA8 :: _ => go ((unicodeEscapeOf 0x2028).reverseAux acc) 2 rest
        | 0x80 :: 0xA9 :: _ => go ((unicodeEscapeOf 0x2029).reverseAux acc) 2 rest
        | _ => go (b :: acc) 0 rest
      else go (b :: acc) 0 rest

/-- A string by its spelling, in quotes and with markup characters as escapes. -/
def quoteRaw (raw : Bytes) : Bytes := [0x22] ++ guardMarkup raw ++ [0x22]

/-! ### Trees -/

/-- The literal of a truth value. -/
def ofBool (b : Bool) : Bytes := if b then utf8 "true" else utf8 "false"

mutual

/-- A tree without white space, in front of `tail`. -/
def compactTo (tail : Bytes) : Json → Bytes
  | .null => utf8 "null" ++ tail
  | .bool b => ofBool b ++ tail
  | .number literal => literal ++ tail
  | .string raw => quoteRaw raw ++ tail
  | .array [] => 0x5B :: 0x5D :: tail
  | .array (item :: rest) => 0x5B :: compactTo (compactItems tail rest) item
  | .object [] => 0x7B :: 0x7D :: tail
  | .object ((key, value) :: rest) =>
    0x7B :: (quoteRaw key ++ 0x3A :: compactTo (compactMembers tail rest) value)
termination_by structural j => j

/-- The items after the first and the end of the array, in front of `tail`. -/
def compactItems (tail : Bytes) : List Json → Bytes
  | [] => 0x5D :: tail
  | item :: rest => 0x2C :: compactTo (compactItems tail rest) item
termination_by structural items => items

/-- The members after the first and the end of the object, in front of `tail`. -/
def compactMembers (tail : Bytes) : List (Bytes × Json) → Bytes
  | [] => 0x7D :: tail
  | (key, value) :: rest =>
    0x2C :: (quoteRaw key ++ 0x3A :: compactTo (compactMembers tail rest) value)
termination_by structural members => members

end

/-- **A tree without white space.** -/
def compact (j : Json) : Bytes := compactTo [] j

/-- A new line at a depth, two spaces a level. -/
def lineAt (depth : Nat) : Bytes := 0x0A :: List.replicate (2 * depth) 0x20

mutual

/-- A tree that stands `depth` levels deep, one item or member a line, in front of `tail`. -/
def indentedTo (depth : Nat) (tail : Bytes) : Json → Bytes
  | .null => utf8 "null" ++ tail
  | .bool b => ofBool b ++ tail
  | .number literal => literal ++ tail
  | .string raw => quoteRaw raw ++ tail
  | .array [] => 0x5B :: 0x5D :: tail
  | .array (item :: rest) =>
    0x5B :: (lineAt (depth + 1) ++ indentedTo (depth + 1) (indentedItems depth tail rest) item)
  | .object [] => 0x7B :: 0x7D :: tail
  | .object ((key, value) :: rest) =>
    0x7B :: (lineAt (depth + 1) ++ quoteRaw key
      ++ 0x3A :: 0x20 :: indentedTo (depth + 1) (indentedMembers depth tail rest) value)
termination_by structural j => j

/-- The items after the first, each on its line, and the end of the array, in front of `tail`. -/
def indentedItems (depth : Nat) (tail : Bytes) : List Json → Bytes
  | [] => lineAt depth ++ 0x5D :: tail
  | item :: rest =>
    0x2C :: (lineAt (depth + 1) ++ indentedTo (depth + 1) (indentedItems depth tail rest) item)
termination_by structural items => items

/-- The members after the first, each on its line, and the end of the object, in front of
`tail`. -/
def indentedMembers (depth : Nat) (tail : Bytes) : List (Bytes × Json) → Bytes
  | [] => lineAt depth ++ 0x7D :: tail
  | (key, value) :: rest =>
    0x2C :: (lineAt (depth + 1) ++ quoteRaw key
      ++ 0x3A :: 0x20 :: indentedTo (depth + 1) (indentedMembers depth tail rest) value)
termination_by structural members => members

end

/-- **A tree with one item or member a line.** -/
def indented (j : Json) : Bytes := indentedTo 0 [] j

/-! ### Building trees -/

/-- A string tree that means `s`. -/
def text (s : Bytes) : Json := .string (rawOf s)

/-- A number tree for a natural number. -/
def nat (n : Nat) : Json := .number (utf8 (toString n))

/-- A number tree for an integer. -/
def int (n : Int) : Json := .number (utf8 (toString n))

/-- An object of named members; the names hold nothing that needs an escape. -/
def record (members : List (String × Json)) : Json :=
  .object (members.map fun (k, v) => (utf8 k, v))

end ReplBridge.Json
