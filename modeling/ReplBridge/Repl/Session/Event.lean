import ReplBridge.Repl.Session.Move

/-!
**What happens to a session from outside.**

Callers start a session, submit commands, give up on them, quit and close; the launcher returns some
time after the start; the subprocess writes, complains and ends; time passes.  After each event the
session settles, so that a run is a list of events and the session after it.

Time passes in jumps from one deadline to the next: at each the party whose time is up acts, and
the session settles before time moves on.

Main definitions:

* `Repl.Event`, `Session.apply` — the events, and what each does at once;
* `Session.advance` — the passing of time;
* `Session.step`, `Session.run` — one event and a list of events, each followed by settling.
-/

set_option autoImplicit false

namespace ReplBridge.Repl

/-- What can happen to a session.  Its launcher returns some time after the start (`launch`).
Whoever executes a command or quits waits up to a limit, and for ever if that is 0.  Writing to the
subprocess fails at once when its input breaks, reading from it fails only after what it wrote. -/
inductive Event where
  | start
  | launch
  | submit (command : Bytes)
  | abandon (call : Nat)
  | execute (command : Bytes) (limit : Nat)
  | quit (command : Bytes) (limit : Nat)
  | close
  | output (text : Bytes)
  | complaint (text : Bytes)
  | exit (status : Option Failure)
  | breakStdin (cause : Failure)
  | breakStdout
  | pass (time : Nat)
  deriving DecidableEq, Repr

/-- The most that is read of standard output at once. -/
def stdoutRead : Nat := 32768

/-- The most that is read of standard error at once. -/
def stderrRead : Nat := 4096

/-- The time until which a client waits. -/
def Client.deadline? : Client → Option Nat
  | .executing _ deadline => deadline
  | .quitting _ deadline => deadline
  | .releasing _ deadline => some deadline
  | _ => none

/-- The time until which the worker waits. -/
def Worker.deadline? : Worker → Option Nat
  | .awaiting _ deadline => deadline
  | _ => none

namespace Session

def startFailure? (s : Session) : Option Failure :=
  match s.state, s.options.launcher with
  | .idle, .missing => some .noLauncher
  | .idle, .fails cause => some cause
  | .idle, .spawns _ => none
  | _, _ => some (.plain .alreadyStarted)

/-- Sets the launcher to work, once. -/
def start (s : Session) : Session :=
  match s.state with
  | .idle => { s with state := .starting, launching := true }.emit (.became .starting)
  | _ => s

/-- The launcher returns.  A launch that fails ends the session; one that succeeds puts the parties
to work, whatever became of the session meanwhile. -/
def launch (s : Session) : Session :=
  if s.launching then
    let s := { s with launching := false }
    match s.options.launcher with
    | .missing => s.terminate .noLauncher
    | .fails cause => s.terminate (.spawn cause)
    | .spawns manner =>
      { s with
        launched := some manner
        worker := .greeting
        complaints := { s.complaints with ended := !manner.hasStderr } }
  else s

/-- Queues a command, or turns it away when the session is over. -/
def submit (s : Session) (command : Bytes) (last : Bool) : Session :=
  match s.state with
  | .terminated reason =>
    { s with calls := s.calls ++
      [{ command, last, seq := 0, outcome := some (.failed (.ofTermination reason)) }] }
  | _ =>
    { s with
      accepted := s.accepted + 1
      calls := s.calls ++ [{ command, last, seq := s.accepted + 1 }]
      queue := s.queue ++ [s.calls.length] }

/-- The time at which a limit is reached; never if the limit is 0. -/
def deadline (s : Session) (limit : Nat) : Option Nat :=
  if limit = 0 then none else some (s.now + limit)

/-- Someone more waits. -/
def join (s : Session) (c : Client) : Session := { s with clients := s.clients ++ [c] }

/-- Someone quits.  A session that was not started has nothing to be asked. -/
def quit (s : Session) (command : Bytes) (limit : Nat) : Session :=
  match s.state with
  | .idle => s.join .leaving
  | _ => (s.submit command true).join (.quitting s.calls.length (s.deadline limit))

/-- Someone closes the session: it ends at once, and then the subprocess is killed. -/
def close (s : Session) : Session := (s.terminate (.plain .closed)).join .shutting

/-- What giving up on a call reports: its outcome if it has one. -/
def abandonOutcome (s : Session) (call : Nat) : Outcome :=
  (s.outcome? call).getD (.failed (.plain .canceled))

/-- Someone gives up on a call. -/
def abandon (s : Session) (call : Nat) : Session :=
  match s.outcome? call with
  | some _ => s
  | none => s.giveUp call

/-- The subprocess writes, unless nothing more comes. -/
def write (s : Session) (text : Bytes) : Session :=
  if s.child.stdoutEnded then s
  else { s with child :=
    { s.child with stdout := s.child.stdout ++ Bytes.pieces stdoutRead text } }

/-- The subprocess complains, unless it is gone. -/
def complain (s : Session) (text : Bytes) : Session :=
  if s.child.exit.isSome then s
  else { s with child :=
    { s.child with stderr := s.child.stderr ++ Bytes.pieces stderrRead text } }

/-! ### Time -/

/-- The earlier of two times. -/
def earlier : Option Nat → Option Nat → Option Nat
  | none, b => b
  | a, none => a
  | some a, some b => some (min a b)

/-- The next time at which someone's time is up. -/
def nextDeadline? (s : Session) : Option Nat :=
  s.clients.foldl (fun t c => earlier t (c.deadline?)) s.worker.deadline?

/-- The worker's time is up: the call fails, the session ends, and the subprocess is killed. -/
def expire (s : Session) (call : Nat) : Session :=
  match s.calls[call]? with
  | none => s.stop
  | some c =>
    let reason := Failure.timedOut s.options.commandTimeout c.command
    (((s.finish call (.failed reason)).terminate reason).kill).stop

def expireClient (s : Session) : Client → Session × Client
  | .executing call _ => (s.giveUp call, .executed (.failed (.plain .deadlineExceeded)))
  | .quitting call _ => (s.giveUp call).release (some (.plain .deadlineExceeded))
  | .releasing result _ => (s.kill, .reaping result)
  | c => (s, c)

/-- The first client whose time is up at `time` acts; `before` are those passed over, last
first. -/
def expireFrom? (s : Session) (time : Nat) (before : List Client) : List Client → Option Session
  | [] => none
  | c :: rest =>
    if c.deadline? == some time then
      match s.expireClient c with
      | (s', c') => some { s' with clients := before.reverse ++ c' :: rest }
    else expireFrom? s time (c :: before) rest

/-- Whoever's time is up at `time` acts, the worker first. -/
def expireAt (s : Session) (time : Nat) : Session :=
  match s.worker with
  | .awaiting call deadline =>
    if deadline == some time then s.expire call
    else (s.expireFrom? time [] s.clients).getD s
  | _ => (s.expireFrom? time [] s.clients).getD s

/-- A bound on the number of deadlines that can still be reached. -/
def deadlines (s : Session) : Nat := 1 + total (s.clients.map fun c => 2 * c.rank)

/-- Time passes up to `target`, over at most so many deadlines. -/
def advanceWithin : Nat → Nat → Session → Session
  | 0, target, s => { s with now := target }
  | fuel + 1, target, s =>
    match s.nextDeadline? with
    | some time =>
      if time ≤ target then
        advanceWithin fuel target ({ s with now := max s.now time }.expireAt time).settle
      else { s with now := target }
    | none => { s with now := target }

/-- **Time passes.** -/
def advance (s : Session) (time : Nat) : Session :=
  advanceWithin s.deadlines (s.now + time) s

/-! ### Events -/

/-- What an event does at once. -/
def apply (s : Session) : Event → Session
  | .start => s.start
  | .launch => s.launch
  | .submit command => s.submit command false
  | .abandon call => s.abandon call
  | .execute command limit =>
    (s.submit command false).join (.executing s.calls.length (s.deadline limit))
  | .quit command limit => s.quit command limit
  | .close => s.close
  | .output text => s.write text
  | .complaint text => s.complain text
  | .exit status => s.childExits status
  | .breakStdin cause => { s with child := { s.child with stdinFault := some cause } }
  | .breakStdout => { s with child := { s.child with stdoutEnded := true } }
  | .pass time => s.advance time

/-- **One event**, and all that follows from it. -/
def step (s : Session) (e : Event) : Session := (s.apply e).settle

/-- **A run**: a list of events. -/
def run (s : Session) (events : List Event) : Session := events.foldl step s

end Session

end ReplBridge.Repl
