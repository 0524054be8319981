import ReplBridge.Analysis.Response
import ReplBridge.Document.Uri

/-!
**What an editor asks about documents.**

The parameters of a request name a document and often a place in it.  Other parameters have to be
of the right shape and are not used.  A question becomes a query to the compiler, and what the
compiler answers becomes the result of the request, in which documents are named by their
addresses.
-/

set_option autoImplicit false

namespace ReplBridge.Editor

open Protocol
open Json (Reads)

/-! ### Parameters -/

/-- The document and the place that parameters name. -/
structure Target where
  uri : Bytes := []
  position : Position := {}
  deriving DecidableEq, Repr

namespace Target

/-- The fields of parameters. -/
abbrev Fields := Reads.Fields Target

/-- A field that is passed over if it is of the right shape. -/
def unused {β : Type} (key : String) (r : Reads β) : Fields := [(key, Reads.checked r)]

/-- Reads a token by which progress would be reported: a number of 32 bits or a string. -/
def readToken : Reads Unit :=
  Reads.plain () fun
    | .number literal => (Reads.signed 32 [.number literal]).map fun _ => ()
    | .string _ => some ()
    | _ => none

/-- The address of a document. -/
def uriField : Fields :=
  [("uri", Reads.part (fun t v => { t with uri := v }) Reads.text)]

/-- A document, named by its address. -/
def document : Fields := [("textDocument", Reads.fields uriField)]

/-- A document, named by its address, with its text. -/
def documentItem : Fields :=
  [("textDocument", Reads.fields
    (uriField ++ unused "languageId" Reads.text ++ unused "version" (Reads.signed 32)
      ++ unused "text" Reads.text))]

def place : Fields :=
  [("position", Reads.part (fun t v => { t with position := v }) Position.read)]

/-- A token for the progress of the work. -/
def workToken : Fields := unused "workDoneToken" readToken

def partsToken : Fields := unused "partialResultToken" readToken

/-- How a completion was asked for. -/
def trigger : Fields :=
  unused "context" (Reads.optional (Reads.record ()
    [("triggerCharacter", Reads.checked Reads.text),
      ("triggerKind", Reads.checked Reads.double)]))

/-- The target that parameters name. -/
def read? (fields : Fields) (params : Option Json) : Option Target :=
  match params with
  | some j => Json.interpret? (Reads.record {} fields) j
  | none => none

end Target

/-! ### Questions -/

/-- What can be asked about a document: what stands at a place, where that is defined, what the
document defines, and what may be written at a place. -/
inductive Question where
  | hover
  | definition
  | symbols
  | completion
  deriving DecidableEq, Repr

namespace Question

def fields : Question → Target.Fields
  | .hover => Target.document ++ Target.place ++ Target.workToken
  | .definition => Target.document ++ Target.place ++ Target.workToken ++ Target.partsToken
  | .symbols => Target.document ++ Target.workToken ++ Target.partsToken
  | .completion =>
    Target.document ++ Target.place ++ Target.workToken ++ Target.partsToken ++ Target.trigger

/-- The query to the compiler about a target. -/
def queryOf (q : Question) (t : Target) : Analysis.Query :=
  let path := Uri.toPath t.uri
  let (line, column) := t.position.toCompiler
  match q with
  | .hover => .hover path line column
  | .definition => .definition path line column
  | .symbols => .symbols path
  | .completion => .completion path

/-- **The query that a question comes to**, unless its parameters are of the wrong shape. -/
def query? (q : Question) (params : Option Json) : Option Analysis.Query :=
  (Target.read? q.fields params).map q.queryOf

/-- A location whose document is named by its address. -/
def settleLocation (cwd : Bytes) (l : Location) : Location :=
  { l with uri := Uri.normalize cwd l.uri }

/-- A symbol whose document is named by its address. -/
def settleSymbol (cwd : Bytes) (s : SymbolInformation) : SymbolInformation :=
  { s with location := settleLocation cwd s.location }

/-- A response as the result of a request. -/
def result {α : Type} (json : α → Json) (r : Analysis.Response α) : Json × List Publication :=
  ((r.result.map json).getD .null, r.diagnostics)

/-- **The result of a request**, and the publications that the frame carries. -/
def response (cwd : Bytes) (q : Question) (frame : Repl.Frame) : Json × List Publication :=
  match q with
  | .hover => result Hover.json (Analysis.hover frame)
  | .definition =>
    result (fun ls => .array (ls.map fun l => (settleLocation cwd l).json))
      (Analysis.definitions frame)
  | .symbols =>
    result (fun ss => .array (ss.map fun s => (settleSymbol cwd s).json)) (Analysis.symbols frame)
  | .completion =>
    result (fun cs => .array (cs.map CompletionItem.json)) (Analysis.completions frame)

end Question

/-! ### Methods -/

/-- What can be asked of the server: what it can do (`introduce`), which the editor knows after that
(`initialized`); to prepare for the end (`shutdown`), and to end (`exit`); or a question about a
document.  Besides it hears of documents, where a change matters only when it is saved. -/
inductive Method where
  | introduce
  | initialized
  | shutdown
  | exit
  | ask (q : Question)
  | didOpen
  | didSave
  | didClose
  | didChange
  | unknown
  deriving DecidableEq, Repr

def Method.names : List (String × Method) :=
  [("initialize", .introduce), ("initialized", .initialized), ("shutdown", .shutdown),
    ("exit", .exit), ("textDocument/hover", .ask .hover),
    ("textDocument/definition", .ask .definition),
    ("textDocument/documentSymbol", .ask .symbols),
    ("textDocument/completion", .ask .completion), ("textDocument/didOpen", .didOpen),
    ("textDocument/didSave", .didSave), ("textDocument/didClose", .didClose),
    ("textDocument/didChange", .didChange)]

def Method.ofName (name : Bytes) : Method :=
  ((Method.names.find? fun (n, _) => utf8 n == name).map (·.2)).getD .unknown

/-- The parameters of a notification about a document. -/
def Method.documentFields : Method → Target.Fields
  | .didOpen => Target.documentItem
  | .didSave => Target.unused "text" Reads.text ++ Target.document
  | _ => Target.document

end ReplBridge.Editor
