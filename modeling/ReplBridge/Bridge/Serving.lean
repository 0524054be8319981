import ReplBridge.Bridge.Dialog
import ReplBridge.Editor.Intake

/-!
**An editor served with a dialog.**

The bytes of the editor make requests; what the server asks of the compiler is asked in the dialog,
and the answer goes back to the server before the next request is looked at.
-/

set_option autoImplicit false

namespace ReplBridge.Bridge

/-- A server, its dialog, and the reading of what the editor sends. -/
structure Serving (σ : Type) where
  server : Editor.Server
  dialog : Dialog σ
  /-- How far the reading of the editor's bytes has come. -/
  intake : Editor.Intake := {}
  /-- How many questions of the server were passed on. -/
  passed : Nat := 0

namespace Serving

variable {σ : Type}

/-- What the server asks of the compiler: a command, or to quit. -/
def asks (s : Editor.Server) : List (Option Bytes) :=
  s.log.filterMap fun
    | .asked command => some (some command)
    | .askedToQuit => some none
    | _ => none

/-- Passes on what the server asks, at most so many times. -/
def passOn (host : Host σ) : Nat → Serving σ → Serving σ
  | 0, s => s
  | fuel + 1, s =>
    match (asks s.server)[s.passed]? with
    | none => s
    | some (some command) =>
      let (answer, dialog) := s.dialog.execute host command
      passOn host fuel
        { s with dialog, passed := s.passed + 1, server := s.server.step (.answered answer) }
    | some none =>
      let (_, dialog) := s.dialog.quit host Analysis.quitCommand s.server.options.limit
      passOn host fuel { s with dialog, passed := s.passed + 1, server := s.server.step .hasQuit }

/-- Something happens to the server, and all that follows from it. -/
def step (host : Host σ) (s : Serving σ) (e : Editor.Event) : Serving σ :=
  let s := { s with server := s.server.step e }
  passOn host (s.server.queue.length + 3) s

/-- **Bytes of the editor arrive.** -/
def feed (host : Host σ) (s : Serving σ) (bytes : Bytes) : Serving σ :=
  let (events, intake) := s.intake.feed bytes
  events.foldl (step host) { s with intake }

/-- **The bytes of the editor are over.** -/
def finish (host : Host σ) (s : Serving σ) : Serving σ := step host s s.intake.finish

/-- The messages that the server sent, from a place of its log on. -/
def sentFrom (s : Serving σ) (place : Nat) : Bytes :=
  (s.server.log.drop place).flatMap fun
    | .sent m => Wire.frame (Json.compact m.json)
    | _ => []

def sent (s : Serving σ) : Bytes := s.sentFrom 0

/-- Why the server failed, if it did. -/
def failure? (s : Serving σ) : Option Bytes := s.server.failure?

end Serving

end ReplBridge.Bridge
