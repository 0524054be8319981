import ReplBridge.Repl.Session.Basic

/-!
**What a session is called.**

A session has a name for logs and transcripts, and a sentinel that its subprocess prints as the
prompt.  Where none is given, they are made of random bytes: the name is an identifier of version 4,
the sentinel is long enough not to occur in what the subprocess prints.
-/

set_option autoImplicit false

namespace ReplBridge.Repl

/-- What a session is called. -/
structure Identity where
  id : Bytes
  sentinel : Bytes
  deriving DecidableEq, Repr

namespace Identity

/-- Random bytes marked as those of an identifier of version 4. -/
def marked (random : Bytes) : Bytes :=
  (random.modify 6 fun b => b % 16 + 0x40).modify 8 fun b => b % 64 + 0x80

/-- The name that sixteen random bytes make. -/
def nameOf (random : Bytes) : Bytes :=
  let h := Bytes.hex (marked random)
  Bytes.join [0x2D]
    [h.take 8, (h.drop 8).take 4, (h.drop 12).take 4, (h.drop 16).take 4, h.drop 20]

/-- How many random bytes a sentinel has. -/
def sentinelLength : Nat := 20

/-- The sentinel that random bytes make. -/
def sentinelOf (random : Bytes) : Bytes := utf8 "--" ++ Bytes.hex random ++ utf8 "--"

/-- **What a session is called**, with random bytes for what is not given. -/
def ofBytes (id sentinel randomId randomSentinel : Bytes) : Identity :=
  { id := if id.isEmpty then nameOf randomId else id
    sentinel := if sentinel.isEmpty then sentinelOf randomSentinel else sentinel }

end Identity

end ReplBridge.Repl
