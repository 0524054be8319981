import ReplBridge.Repl.Session.Basic

/-!
**What observers see of a session.**

The log of a session holds everything in one order.  Each observer sees the part that is theirs: the
subprocess the lines written to it, the recorder what is said, others the states or the complaints.
-/

set_option autoImplicit false

namespace ReplBridge.Repl

/-- The lines written to the subprocess. -/
def written (log : List Effect) : List Bytes :=
  log.filterMap fun
    | .wrote _ line => some line
    | _ => none

/-- What was recorded: which way it went, its number, and its text. -/
def records (log : List Effect) : List (Direction × Nat × Bytes) :=
  log.filterMap fun
    | .recorded direction seq text => some (direction, seq, text)
    | _ => none

/-- The states that the session entered. -/
def states (log : List Effect) : List State :=
  log.filterMap fun
    | .became state => some state
    | _ => none

def complaintLines (log : List Effect) : List Bytes :=
  log.filterMap fun
    | .complained line => some line
    | _ => none

/-- What a client is told in the end. -/
inductive Result where
  | executed (outcome : Outcome)
  | quit (failure : Option Failure)
  | closed (failure : Option Failure)
  deriving DecidableEq, Repr

/-- What a client was told, if it waits no longer. -/
def Client.result? : Client → Option Result
  | .executed outcome => some (.executed outcome)
  | .hasQuit failure => some (.quit failure)
  | .hasClosed failure => some (.closed failure)
  | _ => none

end ReplBridge.Repl
