import ReplBridge.Json.Printer
import ReplBridge.Text.Blank

/-!
**Frames: what the output of one command says.**

The compiler answers in free text.  Among its lines those that are a JSON object or array carry
the answer, and all others are noise.  An object whose `diagnostics` member is an array is a
publication of diagnostics wherever it stands; the first other value is the primary answer.
-/

set_option autoImplicit false

namespace ReplBridge.Repl

/-- The lines of a text that are not blank, without the carriage returns that end them. -/
def lines (text : Bytes) : List Bytes :=
  ((Bytes.split [Bytes.newline] text).map
    (Bytes.dropEndWhile (· == Bytes.carriageReturn))).filter (!Blank.isBlank ·)

/-- What one line of output is: the diagnostics of a document, any other JSON object or array, or
neither. -/
inductive Line where
  | publication (text : Bytes)
  | answer (text : Bytes)
  | noise
  deriving DecidableEq, Repr

/-- Whether a tree is shaped like a publication of diagnostics. -/
def isPublication (j : Json) : Bool :=
  match j.member? (utf8 "diagnostics") with
  | some value => value.isArray
  | none => false

/-- What a line says, white space around it aside. -/
def Line.read (line : Bytes) : Line :=
  let text := Blank.trim line
  match Json.parse? text with
  | none => .noise
  | some j =>
    if isPublication j then .publication text
    else if j.isObject || j.isArray then .answer text
    else .noise

/-- The classified output of one command. -/
structure Frame where
  /-- The output itself. -/
  text : Bytes
  /-- The direct answer to the command. -/
  primary : Option Bytes := none
  /-- The publications, in order. -/
  diagnostics : List Bytes := []
  /-- The number of lines that are neither. -/
  discarded : Nat := 0
  deriving DecidableEq, Repr

/-- One more line.  The first answer is the primary one, and those after it count as discarded. -/
def Frame.add (f : Frame) : Line → Frame
  | .noise => { f with discarded := f.discarded + 1 }
  | .publication text => { f with diagnostics := f.diagnostics ++ [text] }
  | .answer text =>
    match f.primary with
    | none => { f with primary := some text }
    | some _ => { f with discarded := f.discarded + 1 }

/-- **The classified output of one command**, line by line. -/
def classify (text : Bytes) : Frame :=
  (lines text).foldl (fun frame line => frame.add (Line.read line)) { text }

/-! ### Frames as JSON -/

/-- How deep a written text may nest. -/
def maxNesting : Nat := 10000

/-- The tree of a value that is to be written inside `outer` arrays and objects, unless the whole
would nest too deep. -/
def writable? (outer : Nat) (value : Bytes) : Option Json :=
  (Json.parse? value).filter (Json.nestsWithin (maxNesting - outer))

/-- The frame as a JSON tree; the count of discarded lines is left out when it is zero. -/
def Frame.json? (f : Frame) : Option Json := do
  let primary ← match f.primary with
    | none => some .null
    | some p => writable? 1 p
  let diagnostics ← f.diagnostics.mapM (writable? 2)
  return Json.record
    ([("response", primary), ("diagnostics", .array diagnostics)]
      ++ if f.discarded = 0 then [] else [("discarded", Json.nat f.discarded)])

/-- **The frame as one JSON object without white space**, unless a value nests too deep. -/
def Frame.render? (f : Frame) : Option Bytes := f.json?.map Json.compact

end ReplBridge.Repl
