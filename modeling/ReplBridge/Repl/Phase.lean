import ReplBridge.Repl.Session.Basic

/-!
**The phases of a session.**

A session is idle, starting, ready and terminated, in this order.  Whoever watches it from outside
knows the phases by number and by name.
-/

set_option autoImplicit false

namespace ReplBridge.Repl

/-- A phase of a session.  It is starting until the first prompt, and then takes commands. -/
inductive Phase where
  | idle
  | starting
  | ready
  | terminated
  deriving DecidableEq, Repr

def State.phase : State → Phase
  | .idle => .idle
  | .starting => .starting
  | .ready => .ready
  | .terminated _ => .terminated

namespace Phase

/-- The number of a phase. -/
def number : Phase → Nat
  | .idle => 0
  | .starting => 1
  | .ready => 2
  | .terminated => 3

def ofNumber? (n : Int) : Option Phase :=
  [idle, starting, ready, terminated].find? fun p => (p.number : Int) == n

def name : Phase → Bytes
  | .idle => utf8 "idle"
  | .starting => utf8 "starting"
  | .ready => utf8 "ready"
  | .terminated => utf8 "terminated"

/-- The name of a phase that may not be known. -/
def label : Option Phase → Bytes
  | some p => p.name
  | none => utf8 "unknown"

end Phase

end ReplBridge.Repl
