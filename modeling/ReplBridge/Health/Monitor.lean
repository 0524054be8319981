import ReplBridge.Health.Address
import ReplBridge.Log.Record
import ReplBridge.Repl.Phase

/-!
**What is told about a session.**

A monitor tells whoever asks whether the session is taking commands, for the whole program and for
one named service.  It is told of each phase the session enters, and tells nothing good once it was
stopped.  What it tells it keeps in a register of services, with a status for each name.
-/

set_option autoImplicit false

namespace ReplBridge.Health

open Repl (Phase)

/-- What is told about a service. -/
inductive Status where
  | serving
  | notServing
  deriving DecidableEq, Repr

def Status.text : Status → Bytes
  | .serving => utf8 "SERVING"
  | .notServing => utf8 "NOT_SERVING"

/-- The status for a phase; a phase that is not known is none in which there is a service. -/
def Status.ofPhase (phase : Option Phase) : Status :=
  if phase = some .ready then .serving else .notServing

/-- The service that is told about when no name is given. -/
def defaultService : Bytes := utf8 "carp.repl"

/-- The address that is listened on when none is given. -/
def defaultAddress : Bytes := utf8 "127.0.0.1:0"

/-! ### Services -/

/-- A register of services that can be asked about each of them by name. -/
structure Services (S : Type) where
  /-- The register at the beginning. -/
  fresh : S
  /-- Sets the status of a service, which may be new. -/
  set : S → Bytes → Status → S
  /-- Ends all services for good. -/
  shutdown : S → S
  /-- What is told about a service, if it is known. -/
  check : S → Bytes → Option Status

/-- A register as a table. -/
structure Table where
  /-- The services that are known, the last one that was set first. -/
  entries : List (Bytes × Status)
  /-- Whether they ended for good. -/
  shut : Bool := false
  deriving DecidableEq, Repr

/-- **Registers as tables.**  At the beginning the whole program, which has the empty name, is known
and there. -/
def tables : Services Table where
  fresh := { entries := [([], .serving)] }
  set t name status :=
    if t.shut then t
    else { t with entries := (name, status) :: t.entries.filter (·.1 != name) }
  shutdown t := { entries := t.entries.map fun e => (e.1, .notServing), shut := true }
  check t name := t.entries.lookup name

/-! ### Monitors -/

/-- A monitor over a register of services. -/
structure Monitor (S : Type) where
  name : Bytes
  services : S
  deriving DecidableEq, Repr

namespace Monitor

variable {S : Type}

/-- Tells of a status, for the whole program and for the service. -/
def tell (v : Services S) (m : Monitor S) (status : Status) : Monitor S :=
  { m with services := v.set (v.set m.services [] status) m.name status }

/-- A monitor of a service; of `defaultService` if the name is empty. -/
def new (v : Services S) (service : Bytes) : Monitor S :=
  let name := if service.isEmpty then defaultService else service
  tell v { name, services := v.fresh } .notServing

/-- **What is told about a service**; the whole program has the empty name. -/
def status? (v : Services S) (m : Monitor S) (service : Bytes) : Option Status :=
  v.check m.services service

/-- **The session enters a phase.** -/
def observe (v : Services S) (m : Monitor S) (phase : Option Phase) : Monitor S :=
  m.tell v (.ofPhase phase)

def stop (v : Services S) (m : Monitor S) : Monitor S :=
  { m with services := v.shutdown m.services }

end Monitor

/-- What is logged about a phase, and the reason for it. -/
def notice (phase : Option Phase) (reason : Option Bytes) : Log.Record where
  level := Log.Level.debug
  message := utf8 "health status changed"
  attributes :=
    [(utf8 "state", .text (Phase.label phase)),
      (utf8 "status", .text (Status.ofPhase phase).text)]
    ++ match reason with
      | some r => [(utf8 "reason", .text r)]
      | none => []

end ReplBridge.Health
