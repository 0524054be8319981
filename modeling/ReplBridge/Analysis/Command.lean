import ReplBridge.Text.Decimal

/-!
**The commands of the compiler.**

Each question about a document is one line for the compiler's prompt: the name of an analysis, the
path as a string literal, and where it matters the line (from one) and the column (from zero).
-/

set_option autoImplicit false

namespace ReplBridge.Analysis

/-- How one byte is spelled in a string literal. -/
def spellByte (b : UInt8) : Bytes :=
  if b == 0x5C then [0x5C, 0x5C]
  else if b == 0x22 then [0x5C, 0x22]
  else if b == 0x0A then [0x5C, 0x6E]
  else if b == 0x0D then [0x5C, 0x72]
  else if b == 0x09 then [0x5C, 0x74]
  else [b]

/-- **A text as a string literal**, which never spans lines. -/
def quote (s : Bytes) : Bytes := [0x22] ++ s.flatMap spellByte ++ [0x22]

/-- The byte that an escaped byte stands for. -/
def escaped? (b : UInt8) : Option UInt8 :=
  if b == 0x5C || b == 0x22 then some b
  else if b == 0x6E then some 0x0A
  else if b == 0x72 then some 0x0D
  else if b == 0x74 then some 0x09
  else none

/-- The bytes of a literal up to its closing quote, and what stands after it. -/
def readBody : Bytes → Option (Bytes × Bytes)
  | [] => none
  | 0x22 :: rest => some ([], rest)
  | 0x5C :: b :: rest =>
    match escaped? b, readBody rest with
    | some c, some (s, after) => some (c :: s, after)
    | _, _ => none
  | b :: rest =>
    if b == 0x5C then none
    else (readBody rest).map fun (s, after) => (b :: s, after)

/-- The text of the string literal that a text begins with, and what stands after it. -/
def readLiteral : Bytes → Option (Bytes × Bytes)
  | 0x22 :: rest => readBody rest
  | _ => none

/-- A question about a document: what stands at a place, where that is defined, what the document
defines, what may be written in it, and what is wrong with it. -/
inductive Query where
  | hover (path : Bytes) (line column : Int)
  | definition (path : Bytes) (line column : Int)
  | symbols (path : Bytes)
  | completion (path : Bytes)
  | validate (path : Bytes)
  deriving DecidableEq, Repr

def placeCommand (name : String) (path : Bytes) (line column : Int) : Bytes :=
  utf8 "(Analysis." ++ utf8 name ++ [0x20] ++ quote path ++ [0x20] ++ Decimal.ofInt line ++ [0x20]
    ++ Decimal.ofInt column ++ utf8 ")"

/-- A command about a whole document. -/
def documentCommand (name : String) (path : Bytes) : Bytes :=
  utf8 "(Analysis." ++ utf8 name ++ [0x20] ++ quote path ++ utf8 ")"

/-- **The command of a question.** -/
def Query.command : Query → Bytes
  | .hover path line column => placeCommand "text-document/hover" path line column
  | .definition path line column => placeCommand "text-document/definition" path line column
  | .symbols path => documentCommand "text-document/document-symbol" path
  | .completion path => documentCommand "text-document/completion" path
  | .validate path => documentCommand "validate" path

/-- The command that ends the compiler. -/
def quitCommand : Bytes := utf8 "(quit)"

end ReplBridge.Analysis
