import ReplBridge.Document.Uri
import ReplBridge.Protocol.Diagnostic
import ReplBridge.Text.Blank

/-!
**Error reports in plain text.**

Older compilers report errors in plain text: blocks divided by `<--->`, of which those that begin
with `[ERROR]` name a place as `path:line:column`, followed by a message.  Each such block is one
publication with one diagnostic, of one character.  Blocks of any other shape are passed over.
-/

set_option autoImplicit false

namespace ReplBridge.Analysis

open Protocol (Position Diagnostic Publication)

/-- A place as the compiler names it: the line counts from one, the column from zero. -/
structure Place where
  path : Bytes
  /-- The line, at least one. -/
  line : Int
  /-- The column, at least zero. -/
  column : Int
  deriving DecidableEq, Repr

/-- Reads `path:line:column`. -/
def Place.parse? (s : Bytes) : Option Place :=
  let colon := fun b : UInt8 => b == 0x3A
  match Bytes.cutLast? colon s with
  | none => none
  | some (rest, columnText) =>
    match (Decimal.int64? columnText).filter (0 ≤ ·), Bytes.cutLast? colon rest with
    | some column, some (path, lineText) =>
      match (Decimal.int64? lineText).filter (1 ≤ ·) with
      | some line => if path.isEmpty then none else some { path, line, column }
      | none => none
    | _, _ => none

/-- An error that the compiler reports. -/
structure Fault where
  place : Place
  message : Bytes
  deriving DecidableEq, Repr

/-- What divides the blocks of a report. -/
def separator : Bytes := utf8 "<--->"

/-- What a block that reports an error begins with. -/
def head : Bytes := utf8 "[ERROR]"

/-- A space, a tab or a line feed. -/
def isGap (b : UInt8) : Bool := b == 0x20 || b == 0x09 || b == 0x0A

/-- Reads a block of a report. -/
def Fault.parse? (block : Bytes) : Option Fault :=
  let block := Blank.trim (Bytes.replace [0x0D, 0x0A] [0x0A] block)
  match Bytes.after? head block with
  | none => none
  | some rest =>
    let (place, message) := (rest.dropWhile isGap).span (!isGap ·)
    (Place.parse? place).map fun place => { place, message := Blank.trim (message.drop 1) }

/-- An integer as a number of 32 bits, from which higher bits are dropped. -/
def toWord (n : Int) : UInt32 := UInt32.ofNat (n % 4294967296).toNat

/-- A reported error as a publication. -/
def Fault.publication (cwd : Bytes) (f : Fault) : Publication :=
  let start : Position := { line := toWord (f.place.line - 1), character := toWord f.place.column }
  let stop : Position := { start with character := start.character + 1 }
  { uri := Uri.ofPath cwd f.place.path
    diagnostics := some
      [{ range := { start, stop }
         severity := (Double.ofLiteral? (utf8 "1")).getD {}
         source := utf8 "carp"
         message := f.message }] }

/-- **The publications of a report**, one for each error, in order. -/
def report (cwd text : Bytes) : List Publication :=
  ((Bytes.split separator text).filterMap Fault.parse?).map (Fault.publication cwd)

end ReplBridge.Analysis
