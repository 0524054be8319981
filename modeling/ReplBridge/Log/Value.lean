import ReplBridge.Json.Number

/-!
**The values of attributes in a log.**

A value is nothing, a truth value, a number or a text, or it is made of other values: a list of
them, or a table from texts to them.  It is shown in plain text, where parts stand side by side with
a space between them, or as JSON.
-/

set_option autoImplicit false

namespace ReplBridge.Log

/-- The value of an attribute.  A table holds values by name, in the order of the names. -/
inductive Value where
  | none
  | flag (b : Bool)
  | number (x : Double)
  | text (s : Bytes)
  | list (items : List Value)
  | table (members : List (Bytes × Value))
  deriving Repr

/-- A number in at least two digits. -/
def twoDigits (n : Nat) : Bytes := if n < 10 then 0x30 :: Decimal.ofNat n else Decimal.ofNat n

/-- A number as a word: with an exponent from a million on, and below a tenth of a thousandth. -/
def numberWord (x : Double) : Bytes :=
  (if x.negative then utf8 "-" else []) ++
    if x.isZero then utf8 "0"
    else
      let (digits, k) := Double.shortest x.mantissa x.exponent
      let top := k + ((digits.length - 1 : Nat) : Int)
      if -5 < top && top < 6 then Double.positional digits k
      else
        digits.take 1 ++ (if digits.length ≤ 1 then [] else 0x2E :: digits.drop 1)
          ++ (if top < 0 then utf8 "e-" else utf8 "e+") ++ twoDigits top.natAbs

/-- A text as a string inside a larger JSON text, with markup characters as they are. -/
def innerText (s : Bytes) : Bytes :=
  [0x22] ++ (Utf8.pieces s).flatMap (Json.spell false) ++ [0x22]

namespace Value

mutual

/-- The value of a tree in its canonical spelling; `none` if a number in it is too large. -/
def ofTree? : Json → Option Value
  | .null => some .none
  | .bool b => some (.flag b)
  | .number literal => (Double.ofLiteral? literal).map .number
  | .string raw => some (.text (Json.unescape raw))
  | .array items => (ofItems? items).map .list
  | .object members => (ofMembers? members).map .table
termination_by structural j => j

/-- The values of the items of an array. -/
def ofItems? : List Json → Option (List Value)
  | [] => some []
  | item :: rest =>
    match ofTree? item, ofItems? rest with
    | some item, some rest => some (item :: rest)
    | _, _ => Option.none
termination_by structural items => items

/-- The values of the members of an object. -/
def ofMembers? : List (Bytes × Json) → Option (List (Bytes × Value))
  | [] => some []
  | (key, item) :: rest =>
    match ofTree? item, ofMembers? rest with
    | some item, some rest => some ((Json.unescape key, item) :: rest)
    | _, _ => Option.none
termination_by structural members => members

end

/-- **The value that a JSON text means**: of repeated names the last counts. -/
def ofJson? (j : Json) : Option Value := j.canonical?.bind ofTree?

mutual

/-- **A value in plain text.** -/
def plain : Value → Bytes
  | .none => utf8 "<nil>"
  | .flag b => Json.ofBool b
  | .number x => numberWord x
  | .text s => s
  | .list items => utf8 "[" ++ Bytes.join [0x20] (plainItems items) ++ utf8 "]"
  | .table members => utf8 "map[" ++ Bytes.join [0x20] (plainMembers members) ++ utf8 "]"
termination_by structural v => v

/-- Several values in plain text. -/
def plainItems : List Value → List Bytes
  | [] => []
  | item :: rest => plain item :: plainItems rest
termination_by structural items => items

/-- Names and values in plain text. -/
def plainMembers : List (Bytes × Value) → List Bytes
  | [] => []
  | (name, item) :: rest => (name ++ 0x3A :: plain item) :: plainMembers rest
termination_by structural members => members

end

mutual

/-- **A value as JSON**, without white space. -/
def json : Value → Bytes
  | .none => utf8 "null"
  | .flag b => Json.ofBool b
  | .number x => x.text
  | .text s => innerText s
  | .list items => [0x5B] ++ Bytes.join [0x2C] (jsonItems items) ++ [0x5D]
  | .table members => [0x7B] ++ Bytes.join [0x2C] (jsonMembers members) ++ [0x7D]
termination_by structural v => v

def jsonItems : List Value → List Bytes
  | [] => []
  | item :: rest => json item :: jsonItems rest
termination_by structural items => items

def jsonMembers : List (Bytes × Value) → List Bytes
  | [] => []
  | (name, item) :: rest => (innerText name ++ 0x3A :: json item) :: jsonMembers rest
termination_by structural members => members

end

end Value

end ReplBridge.Log
