import ReplBridge.Text.Utf8

/-!
**JSON texts as trees.**

A tree keeps the spelling of the text it was read from: a number is its literal, a string is the
bytes between its quotes, and an object is the list of its members in order, repeated keys
included.  Only white space between tokens is lost.  What a spelling *means* is a function on the
tree.
-/

set_option autoImplicit false

namespace ReplBridge

/-- A JSON text, up to white space between its tokens.  Numbers stand by their literals, strings and
keys by the bytes between their quotes, and members in order. -/
inductive Json where
  | null
  | bool (b : Bool)
  | number (literal : Bytes)
  | string (raw : Bytes)
  | array (items : List Json)
  | object (members : List (Bytes × Json))
  deriving Inhabited, Repr

namespace Json

/-! ### The meaning of a string -/

/-- The value of four hexadecimal digits at the start of a text. -/
def hex4? : Bytes → Option Nat
  | a :: b :: c :: d :: _ => do
    let a ← Bytes.hexValue? a
    let b ← Bytes.hexValue? b
    let c ← Bytes.hexValue? c
    let d ← Bytes.hexValue? d
    return 4096 * a + 256 * b + 16 * c + d
  | _ => none

/-- Whether a UTF-16 unit is the first of a pair. -/
def isHighSurrogate (u : Nat) : Bool := 0xD800 ≤ u && u < 0xDC00

/-- Whether a UTF-16 unit is the second of a pair. -/
def isLowSurrogate (u : Nat) : Bool := 0xDC00 ≤ u && u < 0xE000

/-- The second unit of a pair, spelled as an escape at the start of a text. -/
def lowSurrogate? : Bytes → Option Nat
  | 0x5C :: 0x75 :: rest => (hex4? rest).filter isLowSurrogate
  | _ => none

/-- What the bytes after `\u` mean, and how many of them belong to the escape.  A surrogate without
its partner means U+FFFD. -/
def unicodeEscape (rest : Bytes) : Char × Nat :=
  match hex4? rest with
  | none => (Utf8.replacement, 0)
  | some u =>
    if isHighSurrogate u then
      match lowSurrogate? (rest.drop 4) with
      | some v => (Char.ofNat (0x10000 + 1024 * (u - 0xD800) + (v - 0xDC00)), 10)
      | none => (Utf8.replacement, 4)
    else if isLowSurrogate u then (Utf8.replacement, 4)
    else (Char.ofNat u, 4)

/-- What the bytes after a backslash mean, and how many of them belong to the escape. -/
def escapeAt : Bytes → Bytes × Nat
  | [] => ([], 0)
  | e :: rest =>
    if e == 0x62 then ([0x08], 1)
    else if e == 0x66 then ([0x0C], 1)
    else if e == 0x6E then ([0x0A], 1)
    else if e == 0x72 then ([0x0D], 1)
    else if e == 0x74 then ([0x09], 1)
    else if e == 0x75 then
      match unicodeEscape rest with
      | (c, n) => (Utf8.encode c, n + 1)
    else ([e], 1)

/-- **The text a string means.**  Escapes are resolved, and what is not UTF-8 becomes U+FFFD. -/
def unescape (raw : Bytes) : Bytes :=
  go [] 0 raw
where
  /-- `acc` is last first; `skip` bytes are already accounted for. -/
  go (acc : Bytes) : Nat → Bytes → Bytes
    | _, [] => acc.reverse
    | skip + 1, _ :: rest => go acc skip rest
    | 0, b :: rest =>
      if b == 0x5C then
        match escapeAt rest with
        | (out, skip) => go (out.reverseAux acc) skip rest
      else
        match Utf8.pieceAt b rest with
        | (r, skip) => go ((Utf8.encode r.char).reverseAux acc) skip rest

/-! ### Shape -/

/-- The value of the first member whose key means `key`. -/
def lookup? (key : Bytes) : List (Bytes × Json) → Option Json
  | [] => none
  | (k, v) :: rest => if unescape k == key then some v else lookup? key rest

/-- The value of the first member of an object whose key means `key`. -/
def member? (key : Bytes) : Json → Option Json
  | .object members => lookup? key members
  | _ => none

def isArray : Json → Bool
  | .array _ => true
  | _ => false

def isObject : Json → Bool
  | .object _ => true
  | _ => false

mutual

/-- Whether arrays and objects nest at most `limit` deep. -/
def nestsWithin : Nat → Json → Bool
  | 0, .array _ => false
  | 0, .object _ => false
  | limit + 1, .array items => itemsNestWithin limit items
  | limit + 1, .object members => membersNestWithin limit members
  | _, _ => true
termination_by structural _ j => j

/-- Whether every tree of a list nests at most `limit` deep. -/
def itemsNestWithin (limit : Nat) : List Json → Bool
  | [] => true
  | item :: rest => nestsWithin limit item && itemsNestWithin limit rest
termination_by structural items => items

/-- Whether every value of a list of members nests at most `limit` deep. -/
def membersNestWithin (limit : Nat) : List (Bytes × Json) → Bool
  | [] => true
  | (_, value) :: rest => nestsWithin limit value && membersNestWithin limit rest
termination_by structural members => members

end

end Json

end ReplBridge
