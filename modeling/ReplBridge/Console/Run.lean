import ReplBridge.Console.Command
import ReplBridge.Text.Lines

/-!
**A run of the console.**

Lines are handled in order, each to its end before the next is looked at.  What is wrong with one
is printed and does not stop the run, unless the compiler is gone.  At the end of the input, or at
the command for it, the compiler is asked to quit.

The compiler is anything that answers commands and can be asked to quit, with a state of its own.
-/

set_option autoImplicit false

namespace ReplBridge.Console

/-- What answers commands. -/
structure Compiler (σ : Type) where
  /-- Answers a command. -/
  execute : σ → Bytes → Except Repl.Failure Bytes × σ
  /-- Is asked to quit, and may fail to. -/
  quit : σ → Bytes → Option Repl.Failure × σ

/-- How a console is set up. -/
structure Options where
  /-- What is printed before a line is read. -/
  prompt : Bytes := []
  /-- Whether the console was told to stop before it began. -/
  canceled : Bool := false
  /-- The directory that relative paths are relative to. -/
  cwd : Bytes := utf8 "/"
  deriving DecidableEq, Repr

/-- What has happened in a run. -/
structure Run (σ : Type) where
  compiler : σ
  /-- What was printed, in pieces, last first. -/
  pieces : List Bytes := []
  /-- What the compiler was given, last first. -/
  given : List Bytes := []
  /-- What the run ended with. -/
  fault : Option Fault := none

namespace Run

variable {σ : Type}

def output (r : Run σ) : Bytes := r.pieces.reverse.flatten

/-- What the compiler was given, in order. -/
def commands (r : Run σ) : List Bytes := r.given.reverse

def print (r : Run σ) (text : Bytes) : Run σ := { r with pieces := text :: r.pieces }

/-- Gives a command to the compiler. -/
def execute (c : Compiler σ) (r : Run σ) (command : Bytes) : Except Repl.Failure Bytes × Run σ :=
  let (answer, compiler) := c.execute r.compiler command
  (answer, { r with compiler, given := command :: r.given })

/-- Asks the compiler to quit, which ends the run. -/
def quit (c : Compiler σ) (r : Run σ) : Run σ :=
  let (failure, compiler) := c.quit r.compiler Analysis.quitCommand
  { r with compiler, given := Analysis.quitCommand :: r.given, fault := failure.map .compiler }

end Run

variable {σ : Type}

/-- The most bytes that a line may have, and one more. -/
def lineLimit : Nat := 1048576

/-- Whether a run goes on. -/
inductive Verdict (σ : Type) where
  | goesOn (r : Run σ)
  | ended (r : Run σ)

/-- Something is wrong: that is printed, or ends the run if the compiler is gone or the console was
told to stop. -/
def complain (o : Options) (r : Run σ) (fault : Fault) : Verdict σ :=
  if fault.wraps .terminated || o.canceled then .ended { r with fault := some fault }
  else .goesOn (r.print (utf8 "error: " ++ fault.message ++ [Bytes.newline]))

/-- **Handles a line.** -/
def handle (c : Compiler σ) (o : Options) (r : Run σ) (line : Bytes) : Verdict σ :=
  let action := Action.read line
  match action with
  | .none => .goesOn r
  | .quit => .ended (r.quit c)
  | .help => .goesOn (r.print (helpText ++ [Bytes.newline]))
  | .wrong fault => complain o r fault
  | .execute _ | .query _ =>
    match r.execute c (action.command?.getD []) with
    | (.error cause, r) => complain o r (.compiler cause)
    | (.ok text, r) =>
      match action.display o.cwd (Repl.classify text) with
      | .ok shown => .goesOn (r.print shown)
      | .error fault => complain o r fault

/-- The end of the input, or of what can be read of it. -/
def finish (c : Compiler σ) (o : Options) (r : Run σ) (tooLong : Bool) : Run σ :=
  if o.canceled then r
  else if tooLong then { r with fault := some .longLine }
  else r.quit c

/-- Handles lines in order; `tooLong` says whether an unreadable one comes after them. -/
def runLines (c : Compiler σ) (o : Options) (tooLong : Bool) : Run σ → List Bytes → Run σ
  | r, [] => finish c o (r.print o.prompt) tooLong
  | r, line :: rest =>
    match handle c o (r.print o.prompt) line with
    | .ended r => r
    | .goesOn r => runLines c o tooLong r rest

/-- **The run of a console on an input.** -/
def run (c : Compiler σ) (o : Options) (start : σ) (input : Bytes) : Run σ :=
  let (lines, tooLong) := Lines.scan lineLimit input
  runLines c o tooLong { compiler := start } lines

end ReplBridge.Console
