import ReplBridge.Repl.Failure
import ReplBridge.Repl.Frame
import ReplBridge.Repl.Framer
import ReplBridge.Terminal.Sanitizer

/-!
**A session with an interactive subprocess: its parts.**

Many callers share one subprocess that reads a command a line and answers in free text up to a
sentinel.  A session queues their commands, writes one at a time, and hands each answer to the
caller that is due.  Four parties act on it, and the session holds the state of each:

* the *worker* writes commands and waits for their frames;
* the *pump* reads standard output, cuts it into frames, and offers each until the worker takes it;
* the *stderr reader* collects lines of complaint;
* *clients* wait for a call, or see a quit or a close through to the end of the subprocess.

The subprocess is part of the picture: it is described by how it takes the end of its input and
being killed, and by what it has written and not been read of.  Time is a number that only the
passing of time changes.

Main definitions:

* `Repl.Options`, `Repl.Launcher`, `Repl.Manner` — how a session is set up;
* `Repl.Child`, `Repl.Call`, `Repl.Worker`, `Repl.Pump`, `Repl.Client` — the parties;
* `Repl.Effect` — what an observer sees happen;
* `Repl.Session` — all of it, with the operations several parties use: `Session.finish`,
  `Session.terminate`, `Session.kill`, `Session.closeStdin`.
-/

set_option autoImplicit false

namespace ReplBridge.Repl

/-! ### Setting up -/

/-- How a subprocess behaves. -/
structure Manner where
  /-- Its process number. -/
  pid : Nat := 0
  /-- Whether its complaints come on a stream of their own. -/
  hasStderr : Bool := true
  /-- Whether it leaves when its input ends. -/
  leavesAtEnd : Bool := false
  /-- Whether being killed ends it. -/
  heedsKill : Bool := true
  killFailure : Option Failure := none
  deriving DecidableEq, Repr

/-- What starts the subprocess: nothing, something that fails, or something that starts one of a
certain manner. -/
inductive Launcher where
  | missing
  | fails (cause : Failure)
  | spawns (manner : Manner)
  deriving DecidableEq, Repr

/-- How a session is set up. -/
structure Options where
  /-- The text that stands for the prompt. -/
  sentinel : Bytes
  /-- What starts the subprocess. -/
  launcher : Launcher := .missing
  /-- How long a command may take; no limit unless positive. -/
  commandTimeout : Duration := 0
  /-- How long the subprocess is given to leave after a quit; `defaultGrace` unless positive. -/
  exitGrace : Duration := 0
  deriving DecidableEq, Repr

/-- How long the subprocess is given to leave when nothing is said about it. -/
def defaultGrace : Nat := 3000000000

/-- The limit on a command, if there is one. -/
def Options.timeLimit (o : Options) : Option Nat :=
  if 0 < o.commandTimeout then some o.commandTimeout.toNat else none

/-- How long the subprocess is given to leave. -/
def Options.grace (o : Options) : Nat :=
  if 0 < o.exitGrace then o.exitGrace.toNat else defaultGrace

/-! ### The parties -/

/-- Where a session stands.  It is starting until the first prompt, and terminated for a reason. -/
inductive State where
  | idle
  | starting
  | ready
  | terminated (reason : Failure)
  deriving DecidableEq, Repr

/-- The subprocess. -/
structure Child where
  stdinClosed : Bool := false
  /-- What writing to it fails with. -/
  stdinFault : Option Failure := none
  /-- How it ended, if it did. -/
  exit : Option (Option Failure) := none
  /-- What it wrote to standard output and was not read yet, by reads. -/
  stdout : List Bytes := []
  /-- Whether nothing more comes on standard output. -/
  stdoutEnded : Bool := false
  /-- What it wrote to standard error and was not read yet, by reads. -/
  stderr : List Bytes := []
  /-- How often its input was closed. -/
  stdinCloses : Nat := 0
  kills : Nat := 0
  deriving DecidableEq, Repr

/-- How a call ended. -/
inductive Outcome where
  | answered (frame : Frame)
  | failed (cause : Failure)
  deriving DecidableEq, Repr

def Outcome.failure? : Outcome → Option Failure
  | .answered _ => none
  | .failed cause => some cause

/-- A command someone asked for. -/
structure Call where
  command : Bytes
  /-- Its number among the accepted calls, from 1; 0 if it was turned away. -/
  seq : Nat
  /-- Whether it is the command that ends the session. -/
  last : Bool := false
  /-- Whether its caller has given up. -/
  abandoned : Bool := false
  /-- How it ended, if it did. -/
  outcome : Option Outcome := none
  deriving DecidableEq, Repr

/-- Who writes commands: not at work, waiting for the text before the first prompt, waiting for a
command, or waiting for the frame of a call until a time. -/
inductive Worker where
  | off
  | greeting
  | idle
  | awaiting (call : Nat) (deadline : Option Nat)
  deriving DecidableEq, Repr

/-- Who reads standard output: it has cut frames that were not taken yet, or has come to the end of
the output with some text after the last frame, or knows besides how the subprocess ended. -/
inductive Pump where
  | reading (sanitizer : Terminal.Sanitizer) (framer : Framer) (offered : List Bytes)
  | drained (tail : Bytes)
  | finished (tail : Bytes) (status : Option Failure)
  deriving DecidableEq, Repr

/-- Who reads standard error. -/
structure Complaints where
  /-- What is kept back of the stream. -/
  sanitizer : Terminal.Sanitizer := {}
  /-- The line so far, last byte first. -/
  line : Bytes := []
  ended : Bool := false
  deriving DecidableEq, Repr

/-- Who waits for something.  One that executes a command waits for its call until a time.

One that quits waits for the outcome of its command (`quitting`), then for the subprocess to leave
by itself (`releasing`) and, once that was killed, for it to be gone (`reaping`); if it found the
session not started, it ends it without more ado (`leaving`).  One that has closed the session kills
the subprocess, if there is one (`shutting`), and waits for it to be gone (`closing`). -/
inductive Client where
  | executing (call : Nat) (deadline : Option Nat)
  | leaving
  | quitting (call : Nat) (deadline : Option Nat)
  | releasing (result : Option Failure) (deadline : Nat)
  | reaping (result : Option Failure)
  | shutting
  | closing (result : Option Failure)
  | executed (outcome : Outcome)
  | hasQuit (result : Option Failure)
  | hasClosed (result : Option Failure)
  deriving DecidableEq, Repr

/-- Which way a recorded text went: to the subprocess or from it. -/
inductive Direction where
  | input
  | output
  deriving DecidableEq, Repr

/-- What an observer sees happen: a line is written to the subprocess, a command or a frame is
recorded, the session changes its state, or the subprocess complains.  The text before the first
prompt is recorded with number 0. -/
inductive Effect where
  | wrote (seq : Nat) (line : Bytes)
  | recorded (direction : Direction) (seq : Nat) (text : Bytes)
  | became (state : State)
  | complained (line : Bytes)
  deriving DecidableEq, Repr

/-! ### The session -/

/-- A session and all who act on it. -/
structure Session where
  /-- How it is set up. -/
  options : Options
  /-- Where it stands. -/
  state : State := .idle
  /-- Whether its end was announced to all who wait for it. -/
  done : Bool := false
  /-- Whether the launcher is at work. -/
  launching : Bool := false
  /-- Whether the subprocess was launched. -/
  launched : Option Manner := none
  child : Child := {}
  /-- All calls, in the order they were submitted. -/
  calls : List Call := []
  /-- The calls that wait to be written, next first. -/
  queue : List Nat := []
  /-- How many calls were accepted. -/
  accepted : Nat := 0
  worker : Worker := .off
  /-- Who reads standard output. -/
  pump : Pump
  /-- Who reads standard error. -/
  complaints : Complaints := {}
  /-- Who waits, in the order they came. -/
  clients : List Client := []
  now : Nat := 0
  log : List Effect := []
  deriving DecidableEq, Repr

namespace Session

/-- A session that was not started. -/
def new (options : Options) : Session :=
  { options, pump := .reading {} { sentinel := options.sentinel } [] }

/-- Adds to the log. -/
def emit (s : Session) (e : Effect) : Session := { s with log := s.log ++ [e] }

/-- The reason for which the session is over. -/
def reason? (s : Session) : Option Failure :=
  match s.state with
  | .terminated reason => some reason
  | _ => none

/-- The reason for which the session is over, once that was announced. -/
def announced? (s : Session) : Option Failure := if s.done then s.reason? else none

/-- The number of the subprocess; 0 before it was launched. -/
def pid (s : Session) : Nat :=
  match s.launched with
  | some manner => manner.pid
  | none => 0

def outcome? (s : Session) (call : Nat) : Option Outcome :=
  match s.calls[call]? with
  | some c => c.outcome
  | none => none

/-- Ends a call; only its first outcome counts. -/
def finish (s : Session) (call : Nat) (outcome : Outcome) : Session :=
  { s with calls := s.calls.modify call fun c =>
      match c.outcome with
      | none => { c with outcome := some outcome }
      | some _ => c }

def giveUp (s : Session) (call : Nat) : Session :=
  { s with calls := s.calls.modify call fun c => { c with abandoned := true } }

/-- Ends the session: every queued call fails.  Only the first reason counts.  The end has still to
be announced. -/
def terminate (s : Session) (reason : Failure) : Session :=
  match s.state with
  | .terminated _ => s
  | _ =>
    let dropped := s.queue.foldl (fun s call => s.finish call (.failed (.ofTermination reason)))
      { s with state := .terminated reason, queue := [] }
    dropped.emit (.became (.terminated reason))

/-- The subprocess ends; only the first end counts. -/
def childExits (s : Session) (status : Option Failure) : Session :=
  match s.child.exit with
  | some _ => s
  | none => { s with child := { s.child with exit := some status, stdoutEnded := true } }

def kill (s : Session) : Session :=
  let s := { s with child := { s.child with kills := s.child.kills + 1 } }
  match s.launched with
  | some manner =>
    if manner.heedsKill then s.childExits (some (.other (utf8 "signal: killed"))) else s
  | none => s

/-- What killing the subprocess reports. -/
def killFailure (s : Session) : Option Failure :=
  match s.launched with
  | some manner => manner.killFailure
  | none => none

/-- Closes the input of the subprocess. -/
def closeStdin (s : Session) : Session :=
  let s := { s with child :=
    { s.child with stdinCloses := s.child.stdinCloses + 1, stdinClosed := true } }
  match s.launched with
  | some manner => if manner.leavesAtEnd then s.childExits none else s
  | none => s

/-- What writing to the subprocess fails with, if it does. -/
def writeFailure? (s : Session) : Option Failure :=
  if s.child.stdinClosed || s.child.exit.isSome then some (.plain .closedPipe)
  else s.child.stdinFault

end Session

end ReplBridge.Repl
