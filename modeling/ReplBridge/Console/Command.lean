import ReplBridge.Analysis.Response
import ReplBridge.Repl.Failure
import ReplBridge.Text.Quoted

/-!
**What a line at the console means.**

A line that does not begin with a colon goes to the compiler as it is.  The others are the
console's own commands: questions about documents, a list of the commands, and the end.

Main definitions:

* `Console.Place`, `Console.Place.read` — the arguments that name a place in a document;
* `Console.Fault` — what can be wrong, and how it is told;
* `Console.Action`, `Console.Action.read` — what a line means;
* `Console.Action.display` — how an answer of the compiler is printed.
-/

set_option autoImplicit false

namespace ReplBridge.Console

/-! ### Places -/

/-- A place in a document; lines count from one, columns from zero. -/
structure Place where
  path : Bytes
  line : Int
  column : Int
  deriving DecidableEq, Repr

/-- Why arguments name no place: they are not three, the line is no number from one on, or the
column is none from zero on. -/
inductive PlaceFault where
  | count
  | line (arg : Bytes)
  | column (arg : Bytes)
  deriving DecidableEq, Repr

/-- The wording of what is wrong with a place. -/
def PlaceFault.message : PlaceFault → Bytes
  | .count => utf8 "expected FILE LINE COLUMN"
  | .line arg => utf8 "invalid line " ++ Quoted.quote arg
  | .column arg => utf8 "invalid column " ++ Quoted.quote arg

/-- The number that an argument spells, if it is at least `least`. -/
def numberFrom? (least : Int) (arg : Bytes) : Option Int :=
  (Decimal.int64? arg).filter (least ≤ ·)

/-- **The place that arguments name.** -/
def Place.read : List Bytes → Except PlaceFault Place
  | [path, lineArg, columnArg] =>
    match numberFrom? 1 lineArg, numberFrom? 0 columnArg with
    | none, _ => .error (.line lineArg)
    | some _, none => .error (.column columnArg)
    | some line, some column => .ok { path, line, column }
  | _ => .error .count

/-! ### What can be wrong -/

/-- What can be wrong at the console.  A command needs one file, or a place; a value of an answer,
or the whole of it, nests too deep to be printed. -/
inductive Fault where
  | compiler (cause : Repl.Failure)
  | unknown (name : Bytes)
  | file (name : Bytes)
  | place (name : Bytes) (cause : PlaceFault)
  | deepValue
  | deepAnswer
  | longLine
  deriving DecidableEq, Repr

namespace Fault

/-- **The wording of what is wrong.** -/
def message : Fault → Bytes
  | .compiler cause => cause.message
  | .unknown name => utf8 "unknown command " ++ name ++ utf8 " (try :help)"
  | .file name => name ++ utf8 ": expected FILE"
  | .place name cause => name ++ utf8 ": " ++ cause.message
  | .deepValue => utf8 "json: error calling MarshalJSON for type *jsontext.Value: exceeded max depth"
  | .deepAnswer => utf8 "exceeded max depth"
  | .longLine => utf8 "bufio.Scanner: token too long"

/-- Whether it is a failure of the compiler of some kind. -/
def wraps (kind : Repl.Kind) : Fault → Bool
  | .compiler cause => cause.wraps kind
  | _ => false

end Fault

/-! ### Lines -/

/-- What a line means: nothing, a command for the compiler, a question about a document, the list of
commands, the end, or nothing that can be done. -/
inductive Action where
  | none
  | execute (command : Bytes)
  | query (q : Analysis.Query)
  | help
  | quit
  | wrong (fault : Fault)
  deriving DecidableEq, Repr

/-- The list of commands. -/
def helpText : Bytes :=
  Bytes.join [Bytes.newline] (List.map utf8
    ["commands:",
      "  :hover FILE LINE COLUMN   type and docs at a position (LINE is 1-based)",
      "  :def FILE LINE COLUMN     definition of the symbol at a position",
      "  :symbols FILE             symbols defined in FILE",
      "  :complete FILE            completion candidates for FILE",
      "  :validate FILE            check FILE and print its diagnostics",
      "  :quit                     quit the REPL and exit",
      "anything else is sent to carp as-is"])

namespace Action

def aboutPlace (name : Bytes) (args : List Bytes) (q : Bytes → Int → Int → Analysis.Query) :
    Action :=
  match Place.read args with
  | .ok p => .query (q p.path p.line p.column)
  | .error cause => .wrong (.place name cause)

/-- A question about a document. -/
def aboutFile (name : Bytes) (args : List Bytes) (q : Bytes → Analysis.Query) : Action :=
  match args with
  | [path] => .query (q path)
  | _ => .wrong (.file name)

/-- What one of the console's own commands means. -/
def ofCommand (name : Bytes) (args : List Bytes) : Action :=
  if name == utf8 ":quit" || name == utf8 ":q" then .quit
  else if name == utf8 ":help" || name == utf8 ":h" then .help
  else if name == utf8 ":hover" then aboutPlace name args .hover
  else if name == utf8 ":def" then aboutPlace name args .definition
  else if name == utf8 ":symbols" then aboutFile name args .symbols
  else if name == utf8 ":complete" then aboutFile name args .completion
  else if name == utf8 ":validate" then aboutFile name args .validate
  else .wrong (.unknown name)

/-- **What a line means.**  White space around it does not count. -/
def read (line : Bytes) : Action :=
  let line := Blank.trim line
  match line with
  | [] => .none
  | 0x3A :: _ =>
    match Blank.fields line with
    | name :: args => ofCommand name args
    | [] => .none
  | _ => .execute line

/-- The command that the compiler is given. -/
def command? : Action → Option Bytes
  | .execute command => some command
  | .query q => some q.command
  | _ => Option.none

end Action

/-! ### Answers -/

/-- An answer as it is printed, unless it nests too deep. -/
def printed (j : Json) : Except Fault Bytes :=
  if j.nestsWithin Repl.maxNesting then .ok (Json.indented j ++ [Bytes.newline])
  else .error .deepAnswer

/-- A frame as it is printed.  One that holds no values is printed as the text it is. -/
def printedFrame (f : Repl.Frame) : Except Fault Bytes :=
  if f.primary.isNone && f.diagnostics.isEmpty then
    .ok (if f.text.isEmpty then [] else f.text ++ [Bytes.newline])
  else
    match f.json? with
    | some j => printed j
    | none => .error .deepValue

def listJson {α : Type} (item : α → Json) (items : List α) : Json := .array (items.map item)

/-- The answer to a question as it is printed. -/
def printedAnswer (cwd : Bytes) (q : Analysis.Query) (f : Repl.Frame) : Except Fault Bytes :=
  match q with
  | .hover _ _ _ => printed ((Analysis.hover f).json Protocol.Hover.json)
  | .definition _ _ _ =>
    printed ((Analysis.definitions f).json (listJson Protocol.Location.json))
  | .symbols _ => printed ((Analysis.symbols f).json (listJson Protocol.SymbolInformation.json))
  | .completion _ => printed ((Analysis.completions f).json (listJson Protocol.CompletionItem.json))
  | .validate _ => printed ((Analysis.validation cwd f).json (listJson Protocol.Publication.json))

/-- **How an answer of the compiler is printed.** -/
def Action.display (cwd : Bytes) (a : Action) (f : Repl.Frame) : Except Fault Bytes :=
  match a with
  | .query q => printedAnswer cwd q f
  | _ => printedFrame f

end ReplBridge.Console
