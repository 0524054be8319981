import ReplBridge.Analysis.Command
import ReplBridge.Analysis.Report
import ReplBridge.Protocol.Answer
import ReplBridge.Repl.Frame

/-!
**What a frame answers to a question.**

The primary value of a frame is the answer, if it has the shape the question asks for; the
publications of the frame come with it.  An answer or a publication of another shape is dropped.
Definitions may come as one location or as a list of them, completions as a list or inside an
object.
-/

set_option autoImplicit false

namespace ReplBridge.Analysis

open Protocol
open Json (Reads)

/-- An answer, if there is one of the right shape, and the publications that came with it. -/
structure Response (α : Type) where
  result : Option α := none
  diagnostics : List Publication := []
  deriving Repr

/-- A publication of a frame, whose list is never absent. -/
def publication? (raw : Bytes) : Option Publication :=
  (Json.decode? Publication.read raw).map fun p => { p with diagnostics := some p.items }

/-- The answer of a frame, its primary value read by `read`. -/
def respond {α : Type} (read : Bytes → Option α) (frame : Repl.Frame) : Response α :=
  { result := frame.primary.bind read
    diagnostics := frame.diagnostics.filterMap publication? }

/-- Whether a text begins with an opening bracket, white space aside. -/
def startsArray (raw : Bytes) : Bool := (Blank.trim raw).head? == some 0x5B

/-- A list of values; `null` is a list too, an empty one. -/
def many? {α : Type} (item : Reads α) (raw : Bytes) : Option (List α) :=
  (Json.decode? (Reads.list item) raw).map (·.getD [])

/-- **One value or a list of them.** -/
def oneOrMany? {α : Type} (item : Reads α) (raw : Bytes) : Option (List α) :=
  if startsArray raw then many? item raw
  else (Json.decode? item raw).map fun a => [a]

/-- **A list of completion items**, alone or inside an object. -/
def completionItems? (raw : Bytes) : Option (List CompletionItem) :=
  if startsArray raw then many? CompletionItem.read raw
  else (Json.decode? CompletionList.read raw).bind (·.items)

/-- What stands at a place. -/
def hover (frame : Repl.Frame) : Response Hover := respond (Json.decode? Hover.read) frame

def definitions (frame : Repl.Frame) : Response (List Location) :=
  respond (oneOrMany? Location.read) frame

/-- What a document defines. -/
def symbols (frame : Repl.Frame) : Response (List SymbolInformation) :=
  respond (many? SymbolInformation.read) frame

/-- What may be written in a document. -/
def completions (frame : Repl.Frame) : Response (List CompletionItem) :=
  respond completionItems? frame

/-- What is wrong with a document.  When the frame holds neither an answer nor publications, its
text is read as a report of errors. -/
def validation (cwd : Bytes) (frame : Repl.Frame) : Response (List Publication) :=
  let response := respond (many? Publication.read) frame
  match response.result, response.diagnostics with
  | none, [] => { response with diagnostics := report cwd frame.text }
  | _, _ => response

/-- **All the publications that a validation carries**, those of the answer first. -/
def publications (response : Response (List Publication)) : List Publication :=
  response.result.getD [] ++ response.diagnostics

def Response.json {α : Type} (item : α → Json) (response : Response α) : Json :=
  Json.record
    [("response", (response.result.map item).getD .null),
      ("diagnostics", .array (response.diagnostics.map Publication.json))]

end ReplBridge.Analysis
