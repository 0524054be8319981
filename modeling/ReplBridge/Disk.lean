import ReplBridge.Document.Path

/-!
**Files and directories.**

What is on disk is a list of files and directories by the names that lead to them from the root.
Whatever has something below it is a directory.  Names may also be those of a link, which leads on
to other names.

A path is followed name by name: every name but the last has to lead to a directory, and a slash at
the end asks for one too.  A path that does not begin with a slash begins in the working directory.
Names and paths have a greatest length, and a path holds no zero byte.
-/

set_option autoImplicit false

namespace ReplBridge

/-- What a name may lead to: a file with its content, which may be a program, or a directory. -/
inductive Disk.Entry where
  | file (content : Bytes) (isProgram : Bool)
  | directory
  deriving DecidableEq, Repr

/-- Files and directories by the names that lead to them. -/
structure Disk where
  /-- The working directory. -/
  cwd : Bytes := utf8 "/"
  /-- The files and directories; of two with the same names the first counts. -/
  entries : List (List Bytes × Disk.Entry) := []
  /-- The links, with the names they lead to. -/
  links : List (List Bytes × List Bytes) := []
  deriving Repr

namespace Disk

/-! ### Faults -/

/-- Why a path could not be followed.  An `invalid` path holds a zero byte. -/
inductive Cause where
  | missing
  | notDirectory
  | isDirectory
  | tooLong
  | invalid
  deriving DecidableEq, Repr

def Cause.message : Cause → String
  | .missing => "no such file or directory"
  | .notDirectory => "not a directory"
  | .isDirectory => "is a directory"
  | .tooLong => "file name too long"
  | .invalid => "invalid argument"

/-- What was tried. -/
inductive Action where
  | open
  | read
  | mkdir
  deriving DecidableEq, Repr

def Action.message : Action → String
  | .open => "open"
  | .read => "read"
  | .mkdir => "mkdir"

/-- What could not be done to a path, and why. -/
structure Fault where
  action : Action
  /-- The path, as it was given. -/
  path : Bytes
  /-- Why it could not be done. -/
  cause : Cause
  deriving DecidableEq, Repr

/-- **The text of a fault.** -/
def Fault.message (f : Fault) : Bytes :=
  utf8 f.action.message ++ utf8 " " ++ f.path ++ utf8 ": " ++ utf8 f.cause.message

/-! ### Following paths -/

def find? (d : Disk) (names : List Bytes) : Option Entry :=
  match d.entries.lookup names with
  | some e => some e
  | none =>
    if names.isEmpty || d.entries.any (fun e => names.isPrefixOf e.1) then some .directory else none

/-- The names that names lead to: other ones if they are those of a link. -/
def real (d : Disk) (names : List Bytes) : List Bytes := (d.links.lookup names).getD names

/-- The greatest length of a name. -/
def maxName : Nat := 255

/-- The greatest length of a path. -/
def maxPath : Nat := 4095

/-- Follows names from a directory on. -/
def walk (d : Disk) : List Bytes → List Bytes → Except Cause (List Bytes)
  | here, [] => .ok here
  | here, name :: rest =>
    match d.find? here with
    | none => .error .missing
    | some (.file _ _) => .error .notDirectory
    | some .directory =>
      if name.isEmpty || name == utf8 "." then walk d here rest
      else if name == utf8 ".." then walk d here.dropLast rest
      else if maxName < name.length then .error .tooLong
      else walk d (d.real (here ++ [name])) rest

/-- The names that lead to a path from the root. -/
def locate (d : Disk) (path : Bytes) : Except Cause (List Bytes) :=
  if path.isEmpty then .error .missing
  else if path.contains 0 then .error .invalid
  else if maxPath < path.length then .error .tooLong
  else
    let full := if Path.isRooted path then path else d.cwd ++ Path.slash :: path
    d.walk [] (Bytes.split [Path.slash] full)

/-- **What is at a path.** -/
def entry (d : Disk) (path : Bytes) : Except Cause Entry := do
  let names ← d.locate path
  match d.find? names with
  | some e => return e
  | none => .error .missing

/-- **The content of a file.** -/
def read (d : Disk) (path : Bytes) : Except Fault Bytes :=
  match d.entry path with
  | .ok (.file content _) => .ok content
  | .ok .directory => .error ⟨.read, path, .isDirectory⟩
  | .error cause => .error ⟨.open, path, cause⟩

/-- Puts something under its names. -/
def put (d : Disk) (names : List Bytes) (e : Entry) : Disk :=
  { d with entries := (names, e) :: d.entries.filter (·.1 != names) }

/-- **Writes a file**, in place of what it held. -/
def write (d : Disk) (path content : Bytes) : Except Fault Disk :=
  match d.locate path with
  | .error cause => .error ⟨.open, path, cause⟩
  | .ok names =>
    match d.find? names, d.find? names.dropLast with
    | some .directory, _ => .error ⟨.open, path, .isDirectory⟩
    | some (.file _ isProgram), _ => .ok (d.put names (.file content isProgram))
    | none, some .directory => .ok (d.put names (.file content false))
    | none, some (.file _ _) => .error ⟨.open, path, .notDirectory⟩
    | none, none => .error ⟨.open, path, .missing⟩

/-- Makes the directories that lead to a path; `done` is how far it exists. -/
def makeDirsFrom (d : Disk) (done : Bytes) : List Bytes → Except Fault Disk
  | [] => .ok d
  | name :: rest =>
    let path := if done.isEmpty then name
      else if done == [Path.slash] then done ++ name
      else done ++ Path.slash :: name
    if name.isEmpty then makeDirsFrom d (if done.isEmpty then [Path.slash] else done) rest
    else
      match d.entry path with
      | .ok .directory => makeDirsFrom d path rest
      | .ok (.file _ _) => .error ⟨.mkdir, path, .notDirectory⟩
      | .error cause =>
        match cause, d.locate path with
        | .missing, .ok names => makeDirsFrom (d.put names .directory) path rest
        | cause, _ => .error ⟨.mkdir, path, cause⟩

/-- **Makes a directory**, with those that lead to it. -/
def makeDirs (d : Disk) (path : Bytes) : Except Fault Disk :=
  d.makeDirsFrom [] (Bytes.split [Path.slash] path)

end Disk

end ReplBridge
