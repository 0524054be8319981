import ReplBridge.Analysis.Launch
import ReplBridge.Config.Environment
import ReplBridge.Disk
import ReplBridge.Text.Quoted

/-!
**Finding and starting programs.**

A program is named by a path, or by a name alone that is looked for in the directories of the
search path.  It is started in a directory, with arguments and variables.

Main definitions:

* `Executable.find` — the path of a program;
* `Executable.Order`, `Executable.Started`, `Executable.start` — what is to be started, and what was;
* `Executable.Fault`, `Executable.Fault.message` — why it could not be started.
-/

set_option autoImplicit false

namespace ReplBridge.Executable

/-! ### Faults -/

/-- Why a file is not run: its path leads nowhere, it is no program, or its content is not that of
one. -/
inductive Cause where
  | disk (cause : Disk.Cause)
  | denied
  | badFormat
  deriving DecidableEq, Repr

def Cause.message : Cause → String
  | .disk cause => cause.message
  | .denied => "permission denied"
  | .badFormat => "exec format error"

/-- Why a program was not found: no directory of the search path has it, its path cannot be looked
at or does not lead to a program, or it was found relative to the working directory, which is not
safe. -/
inductive Absence where
  | notFound (name : Bytes)
  | unreachable (name : Bytes) (cause : Disk.Cause)
  | unusable (name : Bytes) (cause : Cause)
  | relative (name path : Bytes)
  deriving DecidableEq, Repr

def Absence.message : Absence → Bytes
  | .notFound name =>
    utf8 "exec: " ++ Quoted.quote name ++ utf8 ": executable file not found in $PATH"
  | .unreachable name cause =>
    utf8 "exec: " ++ Quoted.quote name ++ utf8 ": stat " ++ name ++ utf8 ": " ++ utf8 cause.message
  | .unusable name cause => utf8 "exec: " ++ Quoted.quote name ++ utf8 ": " ++ utf8 cause.message
  | .relative name _ => utf8 "exec: " ++ Quoted.quote name
      ++ utf8 ": cannot run executable found relative to current directory"

/-- Why a program was not started: it was not found, a variable holds a zero byte, the directory it
is to be started in cannot be entered, or it cannot be run. -/
inductive Obstacle where
  | absent (absence : Absence)
  | badVariable
  | directory (dir : Bytes) (cause : Disk.Cause)
  | unrunnable (path : Bytes) (cause : Cause)
  deriving DecidableEq, Repr

def Obstacle.message : Obstacle → Bytes
  | .absent absence => absence.message
  | .badVariable => utf8 "exec: environment variable contains NUL"
  | .directory dir cause => utf8 "chdir " ++ dir ++ utf8 ": " ++ utf8 cause.message
  | .unrunnable path cause => utf8 "fork/exec " ++ path ++ utf8 ": " ++ utf8 cause.message

/-- Why nothing was started: no program is named, or the one that is was not started, on a terminal
of its own or not. -/
inductive Fault where
  | unnamed
  | notStarted (program : Bytes) (onTerminal : Bool) (obstacle : Obstacle)
  deriving DecidableEq, Repr

/-- **The wording of a fault.** -/
def Fault.message : Fault → Bytes
  | .unnamed => utf8 "executable is required"
  | .notStarted program onTerminal obstacle =>
    utf8 "start " ++ program ++ utf8 (if onTerminal then " on pty: " else ": ") ++ obstacle.message

/-! ### Finding -/

/-- Why a path does not lead to a program, if it does not. -/
def absence? (d : Disk) (name path : Bytes) : Option Absence :=
  match d.entry path with
  | .error cause => some (.unreachable name cause)
  | .ok .directory => some (.unusable name (.disk .isDirectory))
  | .ok (.file _ false) => some (.unusable name .denied)
  | .ok (.file _ true) => none

/-- The directories of the search path; an empty one is the working directory. -/
def searchPath (e : Environment) : List Bytes :=
  let path := e.get "PATH"
  if path.isEmpty then []
  else (Bytes.split [0x3A] path).map fun dir => if dir.isEmpty then utf8 "." else dir

/-- **The path of a program.** -/
def find (e : Environment) (d : Disk) (name : Bytes) : Except Absence Bytes :=
  if name.contains Path.slash then
    match absence? d name name with
    | some absence => .error absence
    | none => .ok name
  else
    let paths := (searchPath e).map fun dir => Path.join dir name
    match paths.find? fun path => (absence? d name path).isNone with
    | none => .error (.notFound name)
    | some path => if Path.isRooted path then .ok path else .error (.relative name path)

/-- Whether a program is looked for: it is if its name is all of its path. -/
def isBare (name : Bytes) : Bool := name == [Path.slash] || !name.contains Path.slash

/-! ### Starting -/

/-- A program that is to be started. -/
structure Order where
  program : Bytes
  args : List Bytes := []
  /-- The directory it is started in; the working directory if empty. -/
  dir : Bytes := []
  /-- The variables that are added to those of the environment. -/
  bindings : List (Bytes × Bytes) := []
  /-- Whether it runs on a terminal of its own. -/
  onTerminal : Bool := false
  deriving Repr

/-- The order that starts a compiler with a sentinel. -/
def Order.ofLaunch (l : Analysis.Launch) (sentinel : Bytes) : Order where
  program := l.withDefaults.executable
  args := l.argv sentinel
  dir := l.dir
  bindings := l.env.getD []
  onTerminal := l.terminal

/-- A program that was started. -/
structure Started where
  /-- The names that lead to it from the root. -/
  names : List Bytes
  args : List Bytes
  environment : Environment
  deriving Repr

/-- What the content of a program begins with. -/
def magic : Bytes := [0x7F, 0x45, 0x4C, 0x46]

/-- The names of a program that can be run. -/
def runnable (d : Disk) (path : Bytes) : Except Cause (List Bytes) :=
  match d.entry path, d.locate path with
  | .error cause, _ | _, .error cause => .error (.disk cause)
  | .ok .directory, _ => .error .denied
  | .ok (.file _ false), _ => .error .denied
  | .ok (.file content true), .ok names =>
    if magic.isPrefixOf content then .ok names else .error .badFormat

/-- The path that a program is started by, and why it was not found. -/
def resolve (e : Environment) (d : Disk) (program : Bytes) : Bytes × Option Absence :=
  if isBare program then
    match find e d program with
    | .ok path => (path, none)
    | .error (.relative name path) => (path, some (.relative name path))
    | .error absence => (program, some absence)
  else (program, none)

/-- Why a directory cannot be entered, if it cannot. -/
def directoryCause? (d : Disk) (dir : Bytes) : Option Disk.Cause :=
  match d.entry dir with
  | .error cause => some cause
  | .ok .directory => none
  | .ok (.file _ _) => some .notDirectory

/-- The variables of a program: those that are added count before those of the environment, and the
directory is one of them if nothing else is. -/
def variablesFor (e : Environment) (o : Order) (cwd : Bytes) : List (Bytes × Bytes) :=
  if o.bindings.isEmpty && !o.dir.isEmpty then (utf8 "PWD", cwd) :: e.bindings
  else o.bindings ++ e.bindings

/-- Why the directory of an order is refused before anything is started: on a pipe, because nothing
is there. -/
def refusal? (d : Disk) (o : Order) : Option Obstacle :=
  if o.dir.isEmpty || o.onTerminal then none
  else match d.entry o.dir with
    | .ok _ => none
    | .error cause => some (.directory o.dir cause)

/-- Why a program that is started cannot be run, if it cannot: a zero byte counts first, then the
directory, then the program itself. -/
def runIn (d : Disk) (o : Order) (cwd path : Bytes) : Except Cause (List Bytes) :=
  if path.contains 0 || o.args.any (·.contains 0) then .error (.disk .invalid)
  else match if o.dir.isEmpty then none else directoryCause? d o.dir with
    | some cause => .error (.disk cause)
    | none => runnable { d with cwd } path

def run (e : Environment) (d : Disk) (o : Order) (path : Bytes) : Except Obstacle Started :=
  let cwd := if o.dir.isEmpty then e.cwd else Path.absolute e.cwd o.dir
  let bindings := variablesFor e o cwd
  if bindings.any fun (name, value) => name.contains 0 || value.contains 0 then .error .badVariable
  else match refusal? d o with
    | some obstacle => .error obstacle
    | none =>
      match runIn d o cwd path with
      | .error cause => .error (.unrunnable path cause)
      | .ok names => .ok { names, args := o.args, environment := { bindings, cwd } }

/-- **Starts a program.** -/
def start (e : Environment) (d : Disk) (o : Order) : Except Fault Started :=
  if o.program.isEmpty then .error .unnamed
  else
    let (path, absence) := resolve e d o.program
    let shown := if o.onTerminal then path else o.program
    let outcome : Except Obstacle Started := match absence with
      | some absence => .error (.absent absence)
      | none => run e d o path
    match outcome with
    | .ok started => .ok started
    | .error obstacle => .error (.notStarted shown o.onTerminal obstacle)

end ReplBridge.Executable
