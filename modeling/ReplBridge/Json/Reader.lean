import ReplBridge.Json.Basic

/-!
**Reading JSON one byte at a time.**

The reader is a pushdown machine: a stack of the arrays and objects that are open, each with what
it holds so far, and what may come next.  A byte either moves it on or is refused; a text is JSON
exactly when no byte is refused and the whole is one finished value.  The grammar is the strict
one: no leading zeros, no trailing commas, no control bytes in strings.  Nothing is asked of the
encoding of strings, nor of the pairing of surrogates.

The stack lives in the machine, so the depth of a text does not matter.

Main definitions:

* `Json.Reader`, `Json.Reader.step` — the machine and one byte;
* `Json.Reader.value?` — the value, if the text so far is a whole one;
* `Json.parse?` — the tree of a JSON text.
-/

set_option autoImplicit false

namespace ReplBridge.Json

/-- An array or object that is still open; what it holds so far stands last first.  An object has
the key of the member that is being read. -/
inductive Container where
  | array (items : List Json)
  | object (members : List (Bytes × Json)) (key : Bytes)
  deriving Repr

/-- How far the escape inside a string has come: there is none, the backslash was read, or `owed +
1` hexadecimal digits are still to come. -/
inductive Escape where
  | outside
  | begun
  | digits (owed : Nat)
  deriving DecidableEq, Repr

/-- The part of a number literal that was read last.  A zero stands alone before the point, and the
mark is that of the exponent. -/
inductive NumberPart where
  | minus
  | zero
  | whole
  | point
  | fraction
  | mark
  | exponentSign
  | exponent
  deriving DecidableEq, Repr

/-- What may come next.  In a container that was just opened, its end may come as well (`firstItem`,
`firstKey`); after an item a comma or the end (`next`).  The bytes of a string or a number so far
stand last first, and `left` are those of a literal that are missing. -/
inductive Mode where
  | value
  | firstItem
  | key
  | firstKey
  | colon
  | next
  | string (isKey : Bool) (raw : Bytes) (escape : Escape)
  | literal (left : Bytes) (meaning : Json)
  | number (part : NumberPart) (raw : Bytes)
  | done (value : Json)
  deriving Repr

/-- The machine: the open containers, innermost first, and what may come next. -/
structure Reader where
  /-- The open containers, innermost first. -/
  stack : List Container := []
  /-- What may come next. -/
  mode : Mode := .value
  deriving Repr

/-- White space between tokens. -/
def isSpace (b : UInt8) : Bool := b == 0x20 || b == 0x0A || b == 0x0D || b == 0x09

/-- The bytes that may follow a backslash, other than `u`. -/
def isShortEscape (b : UInt8) : Bool :=
  b == 0x22 || b == 0x5C || b == 0x2F || b == 0x62 || b == 0x66 || b == 0x6E || b == 0x72
    || b == 0x74

/-- The part of a number that `b` continues `part` with. -/
def NumberPart.next? (part : NumberPart) (b : UInt8) : Option NumberPart :=
  let digit := Bytes.isDigit b
  let mark := b == 0x65 || b == 0x45
  let sign := b == 0x2B || b == 0x2D
  match part with
  | .minus => if b == 0x30 then some .zero else if digit then some .whole else none
  | .zero => if b == 0x2E then some .point else if mark then some .mark else none
  | .whole =>
    if digit then some .whole else if b == 0x2E then some .point
    else if mark then some .mark else none
  | .point => if digit then some .fraction else none
  | .fraction => if digit then some .fraction else if mark then some .mark else none
  | .mark => if sign then some .exponentSign else if digit then some .exponent else none
  | .exponentSign => if digit then some .exponent else none
  | .exponent => if digit then some .exponent else none

/-- Whether a number may end after this part. -/
def NumberPart.isEnd : NumberPart → Bool
  | .zero | .whole | .fraction | .exponent => true
  | _ => false

namespace Reader

/-- A value is whole: it becomes part of the innermost open container. -/
def finish (value : Json) : List Container → Reader
  | [] => ⟨[], .done value⟩
  | .array items :: up => ⟨.array (value :: items) :: up, .next⟩
  | .object members key :: up => ⟨.object ((key, value) :: members) [] :: up, .next⟩

/-- A string is whole: it is the key of the innermost open object, or a value. -/
def finishString (stack : List Container) (isKey : Bool) (raw : Bytes) : Option Reader :=
  if isKey then
    match stack with
    | .object members _ :: up => some ⟨.object members raw :: up, .colon⟩
    | _ => none
  else some (finish (.string raw) stack)

/-- The first byte of a value. -/
def begin (stack : List Container) (b : UInt8) : Option Reader :=
  if b == 0x7B then some ⟨.object [] [] :: stack, .firstKey⟩
  else if b == 0x5B then some ⟨.array [] :: stack, .firstItem⟩
  else if b == 0x22 then some ⟨stack, .string false [] .outside⟩
  else if b == 0x2D then some ⟨stack, .number .minus [b]⟩
  else if b == 0x30 then some ⟨stack, .number .zero [b]⟩
  else if Bytes.isDigit b then some ⟨stack, .number .whole [b]⟩
  else if b == 0x74 then some ⟨stack, .literal [0x72, 0x75, 0x65] (.bool true)⟩
  else if b == 0x66 then some ⟨stack, .literal [0x61, 0x6C, 0x73, 0x65] (.bool false)⟩
  else if b == 0x6E then some ⟨stack, .literal [0x75, 0x6C, 0x6C] .null⟩
  else none

/-- The innermost container ends, if `b` is its closing byte. -/
def close (stack : List Container) (b : UInt8) : Option Reader :=
  match stack with
  | .array items :: up => if b == 0x5D then some (finish (.array items.reverse) up) else none
  | .object members _ :: up =>
    if b == 0x7D then some (finish (.object members.reverse) up) else none
  | [] => none

/-- A byte after a whole value inside a container. -/
def afterValue (stack : List Container) (b : UInt8) : Option Reader :=
  if isSpace b then some ⟨stack, .next⟩
  else if b == 0x2C then
    match stack with
    | .array _ :: _ => some ⟨stack, .value⟩
    | .object _ _ :: _ => some ⟨stack, .key⟩
    | [] => none
  else close stack b

def stepString (stack : List Container) (isKey : Bool) (raw : Bytes) (b : UInt8) :
    Escape → Option Reader
  | .outside =>
    if b == 0x22 then finishString stack isKey raw.reverse
    else if b < 0x20 then none
    else some ⟨stack, .string isKey (b :: raw) (if b == 0x5C then .begun else .outside)⟩
  | .begun =>
    if isShortEscape b then some ⟨stack, .string isKey (b :: raw) .outside⟩
    else if b == 0x75 then some ⟨stack, .string isKey (b :: raw) (.digits 3)⟩
    else none
  | .digits owed =>
    if (Bytes.hexValue? b).isSome then
      some ⟨stack, .string isKey (b :: raw)
        (match owed with
          | 0 => .outside
          | n + 1 => .digits n)⟩
    else none

/-- A byte after a number has ended. -/
def afterNumber (stack : List Container) (raw : Bytes) (b : UInt8) : Option Reader :=
  match finish (.number raw.reverse) stack with
  | ⟨stack, .next⟩ => afterValue stack b
  | r => if isSpace b then some r else none

/-- **One byte**, or a refusal. -/
def step (r : Reader) (b : UInt8) : Option Reader :=
  match r.mode with
  | .value => if isSpace b then some r else begin r.stack b
  | .firstItem =>
    if isSpace b then some r
    else if b == 0x5D then close r.stack b
    else begin r.stack b
  | .key => if isSpace b then some r else if b == 0x22 then
      some ⟨r.stack, .string true [] .outside⟩ else none
  | .firstKey =>
    if isSpace b then some r
    else if b == 0x22 then some ⟨r.stack, .string true [] .outside⟩
    else close r.stack b
  | .colon =>
    if isSpace b then some r else if b == 0x3A then some ⟨r.stack, .value⟩ else none
  | .next => afterValue r.stack b
  | .string isKey raw escape => stepString r.stack isKey raw b escape
  | .literal left meaning =>
    match left with
    | [c] => if b == c then some (finish meaning r.stack) else none
    | c :: rest => if b == c then some ⟨r.stack, .literal rest meaning⟩ else none
    | [] => none
  | .number part raw =>
    match part.next? b with
    | some part' => some ⟨r.stack, .number part' (b :: raw)⟩
    | none => if part.isEnd then afterNumber r.stack raw b else none
  | .done _ => if isSpace b then some r else none

/-- Byte after byte, until one is refused. -/
def run : Reader → Bytes → Option Reader
  | r, [] => some r
  | r, b :: rest =>
    match r.step b with
    | some r' => run r' rest
    | none => none

/-- The value read, if the text so far is a whole one. -/
def value? (r : Reader) : Option Json :=
  match r.stack, r.mode with
  | [], .done value => some value
  | [], .number part raw => if part.isEnd then some (.number raw.reverse) else none
  | _, _ => none

end Reader

/-- **The tree of a JSON text**, white space around it allowed. -/
def parse? (s : Bytes) : Option Json :=
  match Reader.run {} s with
  | some r => r.value?
  | none => none

end ReplBridge.Json
