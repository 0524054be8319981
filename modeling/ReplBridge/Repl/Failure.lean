import ReplBridge.Text.Duration
import ReplBridge.Text.Quoted

/-!
**Why a command got no answer.**

A failure is a cause, possibly inside another one; its wording is one function.  What callers ask
of a failure is which of a few *kinds* it is of, and a failure is of every kind that it or one of
its causes is.
-/

set_option autoImplicit false

namespace ReplBridge.Repl

/-- The kinds of failures that callers tell apart. -/
inductive Kind where
  | terminated
  | timeout
  | quit
  | closed
  | alreadyStarted
  | canceled
  | deadlineExceeded
  | closedPipe
  deriving DecidableEq, Repr

def Kind.message : Kind → String
  | .terminated => "repl session terminated"
  | .timeout => "repl command timed out"
  | .quit => "repl session quit"
  | .closed => "repl session closed"
  | .alreadyStarted => "repl session already started"
  | .canceled => "context canceled"
  | .deadlineExceeded => "context deadline exceeded"
  | .closedPipe => "io: read/write on closed pipe"

/-- Why something could not be done: a kind alone or with a note, the end of the session with its
reason, a command without a prompt in time, a subprocess that could not be started or written to or
is gone, or anything else by its wording. -/
inductive Failure where
  | plain (kind : Kind)
  | noted (kind : Kind) (note : Bytes)
  | terminated (reason : Failure)
  | timedOut (after : Duration) (command : Bytes)
  | noLauncher
  | spawn (cause : Failure)
  | write (cause : Failure)
  | exited
  | exitedWith (cause : Failure)
  | other (message : Bytes)
  deriving DecidableEq, Repr

namespace Failure

/-- **The wording of a failure.** -/
def message : Failure → Bytes
  | .plain kind => utf8 kind.message
  | .noted kind note => utf8 kind.message ++ utf8 ": " ++ note
  | .terminated reason => utf8 Kind.terminated.message ++ utf8 ": " ++ reason.message
  | .timedOut after command =>
    utf8 Kind.timeout.message ++ utf8 ": no prompt after " ++ after.text ++ utf8 " for "
      ++ Quoted.quote command
  | .noLauncher => utf8 "no launcher configured"
  | .spawn cause => utf8 "spawn: " ++ cause.message
  | .write cause => utf8 "write command: " ++ cause.message
  | .exited => utf8 "process exited"
  | .exitedWith cause => utf8 "process exited: " ++ cause.message
  | .other message => message

/-- Whether a failure or one of its causes is of a kind. -/
def wraps (kind : Kind) : Failure → Bool
  | .plain k => k == kind
  | .noted k _ => k == kind
  | .terminated reason => kind == .terminated || reason.wraps kind
  | .timedOut _ _ => kind == .timeout
  | .noLauncher => false
  | .spawn cause => cause.wraps kind
  | .write cause => cause.wraps kind
  | .exited => false
  | .exitedWith cause => cause.wraps kind
  | .other _ => false

/-- What a caller is told when the session ended for `reason`: that it is over, and why unless the
reason says so already. -/
def ofTermination (reason : Failure) : Failure :=
  if reason.wraps .terminated then .plain .terminated else .terminated reason

/-- The reason for which a session ends when its subprocess is gone. -/
def ofExit : Option Failure → Failure
  | none => .exited
  | some cause => .exitedWith cause

end Failure

end ReplBridge.Repl
