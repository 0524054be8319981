import ReplBridge.Json.Read

/-!
**Places in documents.**

A position counts lines and characters from zero; a range reaches from one position up to another;
a location is a range in a document.  Every type of the protocol comes with how it is written as
JSON and how it is read.
-/

set_option autoImplicit false

namespace ReplBridge.Protocol

open Json (Reads)

/-- A place in a document, counted from zero. -/
structure Position where
  line : UInt32 := 0
  character : UInt32 := 0
  deriving DecidableEq, Repr, Inhabited

namespace Position

def json (p : Position) : Json :=
  Json.record [("line", Json.nat p.line.toNat), ("character", Json.nat p.character.toNat)]

def read : Reads Position :=
  Reads.record {}
    [("line", Reads.part (fun p v => { p with line := v }) Reads.uint32),
      ("character", Reads.part (fun p v => { p with character := v }) Reads.uint32)]

/-- The line and column by which the compiler names a position: lines count from one there. -/
def toCompiler (p : Position) : Nat × Nat := (p.line.toNat + 1, p.character.toNat)

end Position

/-- The text from one position up to another. -/
structure Range where
  start : Position := {}
  /-- The first position after it. -/
  stop : Position := {}
  deriving DecidableEq, Repr, Inhabited

namespace Range

def json (r : Range) : Json := Json.record [("start", r.start.json), ("end", r.stop.json)]

def read : Reads Range :=
  Reads.record {}
    [("start", Reads.part (fun r v => { r with start := v }) Position.read),
      ("end", Reads.part (fun r v => { r with stop := v }) Position.read)]

end Range

/-- A range in a document. -/
structure Location where
  uri : Bytes := []
  range : Range := {}
  deriving DecidableEq, Repr, Inhabited

namespace Location

def json (l : Location) : Json := Json.record [("uri", Json.text l.uri), ("range", l.range.json)]

def read : Reads Location :=
  Reads.record {}
    [("uri", Reads.part (fun l v => { l with uri := v }) Reads.text),
      ("range", Reads.part (fun l v => { l with range := v }) Range.read)]

end Location

/-! ### Members that may be left out -/

/-- A member, unless its text is empty. -/
def textMember (key : String) (s : Bytes) : List (String × Json) :=
  if s.isEmpty then [] else [(key, Json.text s)]

/-- A member, unless its number is zero. -/
def numberMember (key : String) (x : Double) : List (String × Json) :=
  if x.isZero then [] else [(key, Json.ofDouble x)]

/-- A member, unless it is false. -/
def boolMember (key : String) (b : Bool) : List (String × Json) :=
  if b then [(key, .bool true)] else []

/-- A member, unless it is absent. -/
def optionMember (key : String) (value : Option Json) : List (String × Json) :=
  match value with
  | some j => [(key, j)]
  | none => []

/-- A member, unless the list is absent or empty. -/
def listMember {α : Type} (key : String) (json : α → Json) (items : Option (List α)) :
    List (String × Json) :=
  match items with
  | some (a :: as) => [(key, .array ((a :: as).map json))]
  | _ => []

/-- A list, or `null` if it is absent. -/
def listOrNull {α : Type} (json : α → Json) : Option (List α) → Json
  | some items => .array (items.map json)
  | none => .null

end ReplBridge.Protocol
