import ReplBridge.Text.Utf8

/-!
**White space and trimming.**

The white space of Unicode is twenty-five scalars.  They are listed by their UTF-8 bytes, so that
the same list, each entry reversed, serves to trim a text from its end.
-/

set_option autoImplicit false

namespace ReplBridge.Blank

/-- The white space scalars as UTF-8, the common ones first. -/
def encodings : List Bytes :=
  [[0x20], [0x0A], [0x0D], [0x09], [0x0B], [0x0C], [0xC2, 0x85], [0xC2, 0xA0],
   [0xE1, 0x9A, 0x80],
   [0xE2, 0x80, 0x80], [0xE2, 0x80, 0x81], [0xE2, 0x80, 0x82], [0xE2, 0x80, 0x83],
   [0xE2, 0x80, 0x84], [0xE2, 0x80, 0x85], [0xE2, 0x80, 0x86], [0xE2, 0x80, 0x87],
   [0xE2, 0x80, 0x88], [0xE2, 0x80, 0x89], [0xE2, 0x80, 0x8A],
   [0xE2, 0x80, 0xA8], [0xE2, 0x80, 0xA9], [0xE2, 0x80, 0xAF], [0xE2, 0x81, 0x9F],
   [0xE3, 0x80, 0x80]]

/-- The encodings, last byte first. -/
def reversed : List Bytes := encodings.map List.reverse

/-- Drops whole entries of `table` from the front while there are any. -/
def dropEntries (table : List Bytes) (s : Bytes) : Bytes :=
  go 0 s
where
  /-- `skip` bytes still belong to the entry dropped before. -/
  go : Nat → Bytes → Bytes
    | _, [] => []
    | skip + 1, _ :: rest => go skip rest
    | 0, b :: rest =>
      match table.find? (·.isPrefixOf (b :: rest)) with
      | some entry => go (entry.length - 1) rest
      | none => b :: rest

/-- The text without white space at its start. -/
def trimStart (s : Bytes) : Bytes := dropEntries encodings s

/-- The text without white space at its end. -/
def trimEnd (s : Bytes) : Bytes := (dropEntries reversed s.reverse).reverse

/-- The text without white space at either end. -/
def trim (s : Bytes) : Bytes := trimEnd (trimStart s)

/-- Whether a text is white space throughout. -/
def isBlank (s : Bytes) : Bool := (trimStart s).isEmpty

/-- Whether a character is white space. -/
def isSpace (c : Char) : Bool := encodings.contains (Utf8.encode c)

/-- The maximal runs of a text that hold no white space. -/
def fields (s : Bytes) : List Bytes :=
  go [] [] 0 s
where
  /-- `done` and `part` are last first; `skip` bytes still belong to a white space scalar. -/
  go (done : List Bytes) (part : Bytes) : Nat → Bytes → List Bytes
    | _, [] => (if part.isEmpty then done else part.reverse :: done).reverse
    | skip + 1, _ :: rest => go done part skip rest
    | 0, b :: rest =>
      match encodings.find? (·.isPrefixOf (b :: rest)) with
      | some entry =>
        go (if part.isEmpty then done else part.reverse :: done) [] (entry.length - 1) rest
      | none => go done (b :: part) 0 rest

end ReplBridge.Blank
