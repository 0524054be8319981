import ReplBridge.Config.Writer
import ReplBridge.Program.Run

/-!
**The command line.**

The program looks at the part of the disk that a command line is about, runs on it, and writes what
the run says.  It starts no other programs: files found in the search path have no content here, so
that a compiler is one that cannot be run, and requests are refused with that reason.
-/

set_option autoImplicit false

namespace ReplBridge.Main

/-- A text for the system; bytes that are no characters are replaced. -/
def systemText (s : Bytes) : String := String.ofList ((Utf8.pieces s).map Utf8.Piece.char)

def pathOf (names : List Bytes) : String :=
  "/" ++ systemText (Bytes.join [Path.slash] names)

def namesOf (cwd path : Bytes) : List Bytes :=
  (Bytes.split [Path.slash] (Path.absolute cwd path)).filter (!·.isEmpty)

/-- What is at a path; the content of a file only if it is asked for. -/
def look (names : List Bytes) (withContent : Bool) : IO (List (List Bytes × Disk.Entry)) := do
  try
    let real ← IO.FS.realPath (pathOf names)
    if ← real.isDir then return [(names, .directory)]
    else if !(← real.pathExists) then return []
    else if withContent then return [(names, .file (← IO.FS.readBinFile real).toList false)]
    else return [(names, .file [] true)]
  catch _ => return []

/-- What is on the way to a path, and at it. -/
def lookAlong (names : List Bytes) : IO (List (List Bytes × Disk.Entry)) := do
  let mut found := []
  for k in [1:names.length] do
    found := found ++ (← look (names.take k) false)
  return found ++ (← look names true)

def programsIn (names : List Bytes) : IO (List (List Bytes × Disk.Entry)) := do
  try
    let real ← IO.FS.realPath (pathOf names)
    let entries ← real.readDir
    return entries.toList.map fun e => (names ++ [utf8 e.fileName], .file [] true)
  catch _ => return []

/-- The variables that matter. -/
def readEnvironment (cwd : Bytes) : IO Environment := do
  let mut bindings := []
  for name in ["HOME", "PATH", "CARP_LSP_HOME", "CARP_LSP_CONFIG", "CARP_LSP_EXECUTABLE"] do
    if let some value ← IO.getEnv name then bindings := (utf8 name, utf8 value) :: bindings
  return { bindings, cwd }

/-- The paths that a request is about. -/
def pathsOf (e : Environment) : Program.Request → List Bytes
  | .serve c o | .console c o => [c.configPath, o.transcript]
  | .doctor c => [c.configPath, e.defaultPath]
  | .transcript _ path _ _ => [path]
  | _ => []

/-- The part of the disk that a request is about. -/
def readDisk (e : Environment) (r : Program.Request) : IO Disk := do
  let mut entries := []
  for path in pathsOf e r do
    unless Blank.isBlank path do
      let full := (e.expand (Blank.trim path)).toOption.getD path
      entries := entries ++ (← lookAlong (namesOf e.cwd full))
  for dir in Executable.searchPath e do
    entries := entries ++ (← programsIn (namesOf e.cwd dir))
  return { cwd := e.cwd, entries := entries ++ [(namesOf e.cwd e.cwd, .directory)] }

/-- Writes the files and directories that a run has changed, in the order it changed them. -/
def writeDisk (before after : Disk) : IO Unit := do
  for (names, entry) in after.entries.reverse do
    if before.entries.lookup names != some entry then
      match entry with
      | .directory => IO.FS.createDirAll (pathOf names)
      | .file content _ => IO.FS.writeBinFile (pathOf names) ⟨content.toArray⟩

/-- What stands in for programs that are started, which none are. -/
def host : Bridge.Host Unit where
  start _ := ([.leaves 127], ())
  read _ _ := ([], ())

def put (out : IO.FS.Stream) (s : Bytes) : IO Unit := do
  out.write ⟨s.toArray⟩
  out.flush

/-- Reads all that is left of a stream. -/
partial def readAll (stream : IO.FS.Stream) (before : ByteArray) : IO ByteArray := do
  let chunk ← stream.read 4096
  if chunk.isEmpty then return before else readAll stream (before ++ chunk)

/-- Serves an editor byte by byte, until its bytes are over or the server is done. -/
partial def serve (s : Bridge.Serving Unit) : IO (Bridge.Serving Unit) := do
  let chunk ← (← IO.getStdin).read 1
  let next := if chunk.isEmpty then s.finish host else s.feed host chunk.toList
  put (← IO.getStdout) (next.sentFrom s.server.log.length)
  if chunk.isEmpty || next.server.done then return next else serve next

/-- What a run of a request comes to; only a server writes its output as it goes. -/
def perform (w : Program.World Unit) (args : List Bytes) :
    Program.Request → IO Program.Outcome
  | .serve c o =>
    match Program.openBridge w o with
    | .error _ => return Program.run w args []
    | .ok b => do
      let s ← serve (Program.serving w b)
      let outcome : Program.Outcome := { disk := Program.closeBridge w b s.dialog }
      return (outcome.failIf s.failure?).warned (Program.warning? c)
  | .console _ o =>
    match Program.openBridge w o with
    | .error _ => return Program.run w args []
    | .ok b => do
      let input ← if b.startFault.isSome then pure [] else
        (·.toList) <$> readAll (← IO.getStdin) .empty
      return Program.run w args [input]
  | _ => return Program.run w args []

/-- A run of the program: its code. -/
def runProgram (args : List Bytes) : IO UInt32 := do
  let environment ← readEnvironment (utf8 (← IO.currentDir).toString)
  let request := Program.Request.read environment args
  let disk ← match request with
    | .ok r => readDisk environment r
    | .error _ => pure {}
  let world : Program.World Unit :=
    { environment
      disk
      executable := utf8 (← IO.appPath).toString
      host
      randomId := (← IO.getRandomBytes 16).toList
      randomSentinel := (← IO.getRandomBytes Repl.Identity.sentinelLength.toUSize).toList
      clock := fun _ => {} }
  let outcome ← match request with
    | .ok r => perform world args r
    | .error _ => pure (Program.run world args [])
  put (← IO.getStdout) outcome.output
  writeDisk disk outcome.disk
  for notice in outcome.notices do
    put (← IO.getStderr) (notice ++ [Bytes.newline])
  return UInt32.ofNat outcome.code

end ReplBridge.Main

def main (args : List String) : IO UInt32 := ReplBridge.Main.runProgram (args.map ReplBridge.utf8)
