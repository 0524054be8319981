import ReplBridge.Bridge.Dialog

/-!
**A compiler that follows a script.**

For rehearsals the compiler may be played from a script: it greets, answers the lines that the
script knows as the script says, leaves when it is asked to quit, and repeats any other line.
-/

set_option autoImplicit false

namespace ReplBridge.Bridge

/-- Something about how the compiler was started: its arguments, its directory, or a variable of its
environment. -/
inductive Reveal where
  | arguments
  | directory
  | binding (name : Bytes)
  deriving DecidableEq, Repr

/-- What the compiler does about a line. -/
structure Reply where
  complaint : Bytes := []
  output : Bytes := []
  /-- What it tells about how it was started. -/
  reveals : Option Reveal := none
  /-- The code with which it leaves, if it does. -/
  leaves : Option Int := none
  /-- Whether it prints no prompt. -/
  hangs : Bool := false
  deriving DecidableEq, Repr

/-- A script. -/
structure Script where
  /-- What the compiler greets with. -/
  banner : Bytes := []
  /-- The lines that the script knows. -/
  replies : List (Bytes × Reply) := []
  deriving DecidableEq, Repr

/-- What stands for the sentinel among the arguments. -/
def sentinelMark : Bytes := utf8 "<sentinel>"

def jsonLine (members : List (String × Json)) : Bytes :=
  Json.compact (Json.record members) ++ [0x0A]

/-- What the compiler tells about how it was started. -/
def Reveal.text (sentinel : Bytes) (started : Executable.Started) : Reveal → Bytes
  | .arguments => jsonLine [("argv", .array (started.args.map fun arg =>
      Json.text (if arg == sentinel then sentinelMark else arg)))]
  | .directory => jsonLine [("cwd", Json.text started.environment.cwd)]
  | .binding name =>
    let value := started.environment.bindings.lookup name
    jsonLine [("env", Json.text (value.getD [])), ("set", .bool value.isSome)]

/-- What a reply makes the compiler do. -/
def Reply.deeds (sentinel : Bytes) (started : Executable.Started) (r : Reply) : List Deed :=
  let said := r.output ++ match r.reveals with
    | some reveal => reveal.text sentinel started
    | none => []
  (if r.complaint.isEmpty then [] else [.complains r.complaint]) ++
    match r.leaves with
    | some code => [.writes said, .leaves code]
    | none => [.writes (if r.hangs then said else said ++ sentinel)]

namespace Script

/-- What a line makes the compiler do. -/
def deeds (s : Script) (sentinel : Bytes) (started : Executable.Started) (line : Bytes) :
    List Deed :=
  match s.replies.lookup line with
  | some reply => reply.deeds sentinel started
  | none =>
    if line == Analysis.quitCommand then [.leaves 0]
    else Reply.deeds sentinel started { output := jsonLine [("echo", Json.text line)] }

/-- **The compiler that follows a script**, with a sentinel for its prompt. -/
def host (s : Script) (sentinel : Bytes) : Host Executable.Started where
  start started := ([.writes (s.banner ++ sentinel)], started)
  read started line := (s.deeds sentinel started line, started)

end Script

end ReplBridge.Bridge
