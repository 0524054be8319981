import ReplBridge.Bridge.Serving
import ReplBridge.Log.Level
import ReplBridge.Program.Doctor
import ReplBridge.Repl.Identity
import ReplBridge.Transcript.Print

/-!
**A run of the program.**

A run takes a command line and an input in a world: the environment, the disk, whatever plays the
programs that are started, random bytes, and a clock.  It comes to a code, to what is said to the
person who started it, to an output, and to the disk as it is after it.

Main definitions:

* `Program.World`, `Program.Outcome` — what a run takes, and what it comes to;
* `Program.openBridge`, `Program.closeBridge` — the dialog of a run with a compiler;
* `Program.run` — the run.
-/

set_option autoImplicit false

namespace ReplBridge.Program

open Bridge (Dialog Host Serving)

/-- What a run takes from the world. -/
structure World (σ : Type) where
  environment : Environment
  disk : Disk
  /-- The path of the program itself. -/
  executable : Bytes
  /-- Whatever plays the programs that are started. -/
  host : Host σ
  /-- Sixteen random bytes, for the name of a session. -/
  randomId : Bytes
  /-- Twenty random bytes, for a sentinel. -/
  randomSentinel : Bytes
  /-- The time of day at a time of the session. -/
  clock : Nat → Time.Stamp

/-- What a run comes to. -/
structure Outcome where
  /-- The code with which the program exits. -/
  code : Nat := 0
  /-- What is said to the person who started it. -/
  notices : List Bytes := []
  output : Bytes := []
  disk : Disk
  deriving Repr

namespace Outcome

def fail (o : Outcome) (message : Bytes) : Outcome :=
  { o with code := 1, notices := o.notices ++ [message] }

/-- The run fails if there is a reason for it. -/
def failIf (o : Outcome) : Option Bytes → Outcome
  | some message => o.fail message
  | none => o

/-- What is said before anything else. -/
def warned (o : Outcome) (warning : Option Bytes) : Outcome :=
  { o with notices := warning.toList ++ o.notices }

end Outcome

variable {σ : Type}

/-! ### The dialog of a run -/

/-- A dialog, and what has to be known to end it. -/
structure Opened (σ : Type) where
  dialog : Dialog σ
  /-- Where the transcript goes; empty if there is none. -/
  transcript : Bytes
  disk : Disk
  /-- Why the compiler was not started. -/
  startFault : Option Bytes

/-- Makes room for a transcript, if there is to be one. -/
def openTranscript (d : Disk) (path : Bytes) : Except Bytes Disk :=
  if path.isEmpty then .ok d
  else match Transcript.create d path with
    | .ok (_, d) => .ok d
    | .error fault => .error (utf8 "transcript: " ++ fault.message)

/-- Why the state cannot be asked for at an address, if it is to be. -/
def healthFault? (address : Bytes) : Option Bytes :=
  if address.isEmpty then none
  else match Health.listen address with
    | .ok _ => none
    | .error fault => some (utf8 "health: " ++ fault.message)

/-- **Begins the dialog of a run.**  What goes wrong before the compiler is started ends the run, on
the disk as it is then. -/
def openBridge (w : World σ) (o : Overrides) : Except (Bytes × Disk) (Opened σ) :=
  match Settings.resolve w.environment w.disk o with
  | .error fault => .error (fault.message, w.disk)
  | .ok settings =>
    match openTranscript w.disk settings.transcript with
    | .error message => .error (message, w.disk)
    | .ok disk =>
      match healthFault? settings.healthAddr with
      | some message => .error (message, disk)
      | none =>
        let identity := Repl.Identity.ofBytes [] [] w.randomId w.randomSentinel
        let launch := settings.profile.launch
        let started := Executable.start w.environment disk
          (.ofLaunch launch identity.sentinel)
        let options : Repl.Options :=
          { sentinel := identity.sentinel
            launcher := Dialog.launcher w.host launch.terminal started
            commandTimeout := settings.commandTimeout
            exitGrace := settings.exitGrace }
        let writer := Transcript.Writer.new Transcript.stored identity.id
        let dialog : Dialog σ :=
          { session := .new options
            onTerminal := launch.terminal
            transcript := if settings.transcript.isEmpty then none else some writer
            clock := w.clock }
        .ok {
          dialog := dialog.start w.host started
          transcript := settings.transcript
          disk
          startFault := dialog.session.startFailure?.map Repl.Failure.message }

/-- **Ends the dialog of a run**: the disk after it. -/
def closeBridge (w : World σ) (b : Opened σ) (d : Dialog σ) : Disk :=
  match (d.close w.host).transcript with
  | none => b.disk
  | some writer => (b.disk.write b.transcript writer.written).toOption.getD b.disk

/-! ### Commands -/

def runConsole (w : World σ) (o : Overrides) (input : Bytes) : Outcome :=
  match openBridge w o with
  | .error (message, disk) => Outcome.fail { disk } message
  | .ok b =>
    match b.startFault with
    | some message => Outcome.fail { disk := closeBridge w b b.dialog } message
    | none =>
      let r := Console.run (Bridge.compiler w.host) { cwd := w.environment.cwd } b.dialog input
      Outcome.failIf { output := r.output, disk := closeBridge w b r.compiler }
        (r.fault.map Console.Fault.message)

/-- The server of a run, before the editor has sent anything. -/
def serving (w : World σ) (b : Opened σ) : Serving σ where
  server := { options := { version, cwd := w.environment.cwd } }
  dialog := b.dialog

def runServe (w : World σ) (o : Overrides) (portions : List Bytes) : Outcome :=
  match openBridge w o with
  | .error (message, disk) => Outcome.fail { disk } message
  | .ok b =>
    let s := (portions.foldl (Serving.feed w.host) (serving w b)).finish w.host
    Outcome.failIf { output := s.sent, disk := closeBridge w b s.dialog } s.failure?

def runTranscript (d : Disk) (path dir : Bytes) (asJson : Bool) : Outcome :=
  match d.read path with
  | .error fault => Outcome.fail { disk := d } fault.message
  | .ok content =>
    match Transcript.read Transcript.stored content with
    | (_, some fault) => Outcome.fail { disk := d } fault.message
    | (entries, none) =>
      let (output, fault) := Transcript.print entries dir asJson
      Outcome.failIf { output, disk := d } (fault.map Transcript.PrintFault.message)

/-- What is said about the level of the log. -/
def warning? (c : Common) : Option Bytes := (Log.choose c.logLevel c.verbose).2

/-- **The run of the program**, with the portions in which its input arrives. -/
def run (w : World σ) (args : List Bytes) (portions : List Bytes) : Outcome :=
  match Request.read w.environment args with
  | .error fault => Outcome.fail { disk := w.disk } fault.message
  | .ok .version =>
    { output := programName ++ utf8 " version " ++ version ++ [0x0A], disk := w.disk }
  | .ok .help => { disk := w.disk }
  | .ok (.serve c o) => (runServe w o portions).warned (warning? c)
  | .ok (.console c o) => (runConsole w o portions.flatten).warned (warning? c)
  | .ok (.doctor c) =>
    Outcome.warned
      { output := Doctor.report w.environment w.disk w.executable c, disk := w.disk } (warning? c)
  | .ok (.transcript c path dir asJson) =>
    (runTranscript w.disk path dir asJson).warned (warning? c)

end ReplBridge.Program
