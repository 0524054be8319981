import ReplBridge.Console.Run
import ReplBridge.Health.Monitor
import ReplBridge.Program.Executable
import ReplBridge.Repl.Ending
import ReplBridge.Repl.Session.Event
import ReplBridge.Repl.Session.View
import ReplBridge.Transcript.Writer

/-!
**A session and the subprocess it talks to.**

A session says what happens to it from outside and what it does.  Here both sides are put together:
whatever plays the subprocess reads each line the session writes and answers with deeds, which
happen to the session in turn.  Beside them stand a transcript, which records what is said, and a
monitor, which is told of the phases of the session.

Whoever asks for a command waits for it.  While nothing else can happen, time passes up to the next
deadline.

Main definitions:

* `Bridge.Deed`, `Bridge.Host` — what a subprocess does, and whatever plays it;
* `Bridge.Dialog` — a session with its subprocess, transcript and monitor;
* `Dialog.start`, `Dialog.execute`, `Dialog.quit`, `Dialog.close` — from its beginning to its end;
* `Bridge.compiler` — a dialog as the compiler of a console.
-/

set_option autoImplicit false

namespace ReplBridge.Bridge

/-! ### The subprocess -/

/-- What a subprocess does. -/
inductive Deed where
  | writes (text : Bytes)
  | complains (text : Bytes)
  | leaves (code : Int)
  deriving DecidableEq, Repr

/-- Whatever plays a subprocess, with a state of its own. -/
structure Host (σ : Type) where
  /-- What it does when it is started. -/
  start : Executable.Started → List Deed × σ
  /-- What it does about a line it reads. -/
  read : σ → Bytes → List Deed × σ
  /-- Its process number. -/
  pid : Nat := 1

/-- What a deed is for the session; on a terminal complaints come with the output. -/
def Deed.event (onTerminal : Bool) : Deed → Repl.Event
  | .writes text => .output text
  | .complains text => if onTerminal then .output text else .complaint text
  | .leaves code => .exit (Repl.Ending.exited code).failure?

/-! ### The dialog -/

/-- A session with its subprocess, transcript and monitor. -/
structure Dialog (σ : Type) where
  session : Repl.Session
  /-- The subprocess, once it was started. -/
  subprocess : Option σ := none
  /-- Whether the subprocess runs on a terminal of its own. -/
  onTerminal : Bool := false
  /-- How many lines the subprocess has read. -/
  heard : Nat := 0
  /-- How much of what the session did was recorded. -/
  noted : Nat := 0
  transcript : Option (Transcript.Writer Transcript.Stored) := none
  monitor : Health.Monitor Health.Table := .new Health.tables []
  /-- The time of day at a time of the session. -/
  clock : Nat → Time.Stamp

namespace Dialog

variable {σ : Type}

/-- Something the session did is recorded. -/
def noteEffect (d : Dialog σ) : Repl.Effect → Dialog σ
  | .recorded direction seq text =>
    let dir := match direction with
      | .input => Transcript.Direction.command
      | .output => .frame
    { d with transcript := d.transcript.map fun w =>
        w.record Transcript.stored (d.clock d.session.now) dir seq text }
  | .became state => { d with monitor := d.monitor.observe Health.tables (some state.phase) }
  | _ => d

/-- All that the session did is recorded. -/
def note (d : Dialog σ) : Dialog σ :=
  let effects := d.session.log.drop d.noted
  effects.foldl noteEffect { d with noted := d.session.log.length }

/-- Something happens to the session. -/
def event (d : Dialog σ) (e : Repl.Event) : Dialog σ :=
  note { d with session := d.session.step e }

/-- The subprocess does something. -/
def act (d : Dialog σ) (deeds : List Deed) : Dialog σ :=
  deeds.foldl (fun d deed => d.event (deed.event d.onTerminal)) d

/-- The subprocess reads what the session has written, at most so many lines. -/
def converse (host : Host σ) : Nat → Dialog σ → Dialog σ
  | 0, d => d
  | fuel + 1, d =>
    match d.subprocess, (Repl.written d.session.log)[d.heard]? with
    | some subprocess, some line =>
      let (deeds, subprocess) := host.read subprocess (Bytes.dropEndWhile (· == 0x0A) line)
      let d := { d with subprocess := some subprocess, heard := d.heard + 1 }
      converse host fuel (d.act deeds)
    | _, _ => d

/-- Something happens, and all that follows from it. -/
def step (host : Host σ) (d : Dialog σ) (e : Repl.Event) : Dialog σ :=
  let d := d.event e
  converse host (d.session.calls.length + 1) d

/-- Waits for a result; time passes up to the next deadline as long as there is none.  If nothing
could bring one, there is none. -/
def await {α : Type} (host : Host σ) (result? : Repl.Session → Option α) :
    Nat → Dialog σ → Option α × Dialog σ
  | 0, d => (result? d.session, d)
  | fuel + 1, d =>
    match result? d.session with
    | some r => (some r, d)
    | none =>
      match d.session.nextDeadline? with
      | none => (none, d)
      | some time => await host result? fuel (d.step host (.pass (time - d.session.now)))

/-- Something happens that a client waits for. -/
def request {α : Type} (host : Host σ) (d : Dialog σ) (e : Repl.Event)
    (result? : Repl.Client → Option α) : Option α × Dialog σ :=
  let client := d.session.clients.length
  let d := d.step host e
  await host (fun s => s.clients[client]?.bind result?) d.session.deadlines d

/-! ### From beginning to end -/

/-- What starts the subprocess, as far as the session knows. -/
def launcher (host : Host σ) (onTerminal : Bool) :
    Except Executable.Fault Executable.Started → Repl.Launcher
  | .error fault => .fails (.other fault.message)
  | .ok _ => .spawns { pid := host.pid, hasStderr := !onTerminal, leavesAtEnd := true }

/-- **Begins a dialog**, with what came of starting the subprocess. -/
def start (host : Host σ) (d : Dialog σ)
    (started : Except Executable.Fault Executable.Started) : Dialog σ :=
  let d := (d.event .start).event .launch
  match started with
  | .error _ => d
  | .ok started =>
    let (deeds, subprocess) := host.start started
    { d with subprocess := some subprocess }.act deeds

/-- **Has a command executed.**  One that nothing ends is given up. -/
def execute (host : Host σ) (d : Dialog σ) (command : Bytes) :
    Except Repl.Failure Bytes × Dialog σ :=
  let (outcome, d) := d.request host (.execute command 0) fun
    | .executed outcome => some outcome
    | _ => none
  match outcome with
  | some (.answered frame) => (.ok frame.text, d)
  | some (.failed cause) => (.error cause, d)
  | none => (.error (.plain .canceled), d)

/-- **Asks the subprocess to quit**, and waits for it up to a limit; for ever if it is 0. -/
def quit (host : Host σ) (d : Dialog σ) (command : Bytes) (limit : Nat) :
    Option Repl.Failure × Dialog σ :=
  let (result, d) := d.request host (.quit command limit) fun
    | .hasQuit result => some result
    | _ => none
  (result.getD (some (.plain .canceled)), d)

/-- **Ends a dialog**, and with it the monitor and the transcript. -/
def close (host : Host σ) (d : Dialog σ) : Dialog σ :=
  let (_, d) := d.request host .close fun
    | .hasClosed result => some result
    | _ => none
  { d with
    monitor := d.monitor.stop Health.tables
    transcript := d.transcript.map fun w => (w.close Transcript.stored).1 }

end Dialog

/-- **A dialog as the compiler of a console.** -/
def compiler {σ : Type} (host : Host σ) : Console.Compiler (Dialog σ) where
  execute d command := d.execute host command
  quit d command := d.quit host command 0

end ReplBridge.Bridge
