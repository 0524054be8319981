import ReplBridge.Repl.Session.Event
import ReplBridge.Repl.Session.View

/-!
**Plays: the parties of a session in any order.**

`Session.run` lets a session settle after every event, and settling has an order of its own: the
worker before the readers, the readers before the clients.  Nothing that is promised about a session
may rest on that order.  A *play* is therefore a list of acts in which anyone may come next: an
event from outside at any moment, whether the session is at rest or not; the announcement of its end;
a move of the worker, of a reader or of any client; a timer that goes off at its time or late.  An act that its party cannot
make changes nothing.

A play also determines what the subprocess has printed, in the portions in which it is read, and
from these the frames that can be cut at the sentinel.

Main definitions:

* `Repl.Act`, `Session.perform`, `Session.play` — the acts, and the session after them;
* `Session.printed` — the portions of standard output that come up in a play;
* `Repl.Scan`, `Repl.frames`, `Repl.remainder` — what portions of output are cut into: the frames,
  and the text after the last one once the output has ended;
* `Repl.writes`, `Repl.answers` — the commands that a log shows as written, and the texts it shows
  as received, each with its number.
-/

set_option autoImplicit false

namespace ReplBridge.Repl

/-! ### Acts -/

/-- What can happen next.  Something happens from outside, where time that passes moves the clock
and nobody acts; the end is announced; one of the parties moves; or the time of the command in
flight, or of a client, is up. -/
inductive Act where
  | event (e : Event)
  | announce
  | worker
  | pump
  | complaints
  | client (i : Nat)
  | timer
  | clientTimer (i : Nat)
  deriving DecidableEq, Repr

namespace Session

/-- The client at place `i` moves, if it can. -/
def clientAct (s : Session) (i : Nat) : Session :=
  match s.clients[i]? with
  | none => s
  | some c =>
    match s.clientStep? c with
    | none => s
    | some (s', c') => { s' with clients := s.clients.set i c' }

/-- The command in flight has had its time. -/
def timerAct (s : Session) : Session :=
  match s.worker with
  | .awaiting call (some deadline) => if deadline ≤ s.now then s.expire call else s
  | _ => s

/-- The client at place `i` has had its time. -/
def clientTimerAct (s : Session) (i : Nat) : Session :=
  match s.clients[i]? with
  | none => s
  | some c =>
    match c.deadline? with
    | none => s
    | some deadline =>
      if deadline ≤ s.now then
        { (s.expireClient c).1 with clients := s.clients.set i (s.expireClient c).2 }
      else s

/-- **The session after an act.** -/
def perform (s : Session) : Act → Session
  | .event (.pass time) => { s with now := s.now + time }
  | .event e => s.apply e
  | .announce => s.announce?.getD s
  | .worker => s.workerMove?.getD s
  | .pump => s.pumpMove?.getD s
  | .complaints => s.complaintsMove?.getD s
  | .client i => s.clientAct i
  | .timer => s.timerAct
  | .clientTimer i => s.clientTimerAct i

/-- **The session after a play.** -/
def play (s : Session) (acts : List Act) : Session := acts.foldl perform s

@[simp] theorem play_nil (s : Session) : s.play [] = s := rfl

@[simp] theorem play_cons (s : Session) (a : Act) (acts : List Act) :
    s.play (a :: acts) = (s.perform a).play acts := rfl

@[simp] theorem play_append (s : Session) (acts more : List Act) :
    s.play (acts ++ more) = (s.play acts).play more := by
  simp [play]

/-- What comes to hold in a play comes to hold in one of its acts. -/
theorem exists_act {P : Session → Prop} {s : Session} {acts : List Act} (h : ¬ P s)
    (h' : P (s.play acts)) :
    ∃ before a rest, acts = before ++ a :: rest ∧ ¬ P (s.play before) ∧
      P ((s.play before).perform a) := by
  induction acts generalizing s with
  | nil => exact absurd h' h
  | cons a acts ih =>
      by_cases hnow : P (s.perform a)
      · exact ⟨[], a, acts, rfl, h, hnow⟩
      · obtain ⟨before, b, rest, rfl, hnot, hthen⟩ := ih hnow h'
        exact ⟨a :: before, b, rest, rfl, hnot, hthen⟩

/-! ### What is printed -/

/-- The portions of standard output that come up with an act. -/
def reads (s : Session) : Act → List Bytes
  | .event (.output text) =>
    if s.child.stdoutEnded then [] else Bytes.pieces stdoutRead text
  | _ => []

/-- **The portions of standard output that come up in a play**, read or not. -/
def printed (s : Session) : List Act → List Bytes
  | [] => []
  | a :: acts => s.reads a ++ (s.perform a).printed acts

@[simp] theorem printed_nil (s : Session) : s.printed [] = [] := rfl

@[simp] theorem printed_cons (s : Session) (a : Act) (acts : List Act) :
    s.printed (a :: acts) = s.reads a ++ (s.perform a).printed acts := rfl

theorem printed_append (s : Session) (acts more : List Act) :
    s.printed (acts ++ more) = s.printed acts ++ (s.play acts).printed more := by
  induction acts generalizing s with
  | nil => rfl
  | cons a acts ih => simp [ih]

end Session

/-! ### What portions of output are cut into -/

/-- A reader of standard output, with all frames it has cut. -/
structure Scan where
  /-- What is kept back of the stream. -/
  sanitizer : Terminal.Sanitizer
  /-- What cuts the text that is shown. -/
  framer : Framer
  frames : List Bytes

namespace Scan

/-- Nothing was read yet. -/
def fresh (sentinel : Bytes) : Scan := ⟨{}, { sentinel }, []⟩

def read (r : Scan) (chunk : Bytes) : Scan :=
  let (sanitizer, shown) := r.sanitizer.write chunk
  let (framer, frames) := r.framer.feed shown
  ⟨sanitizer, framer, r.frames ++ frames⟩

/-- Several portions are read. -/
def readAll (r : Scan) (chunks : List Bytes) : Scan := chunks.foldl read r

@[simp] theorem readAll_nil (r : Scan) : r.readAll [] = r := rfl

@[simp] theorem readAll_append (r : Scan) (chunks more : List Bytes) :
    r.readAll (chunks ++ more) = (r.readAll chunks).readAll more := by
  simp [readAll]

@[simp] theorem readAll_singleton (r : Scan) (chunk : Bytes) : r.readAll [chunk] = r.read chunk :=
  rfl

theorem frames_prefix_readAll (r : Scan) (chunks : List Bytes) :
    r.frames <+: (r.readAll chunks).frames := by
  induction chunks generalizing r with
  | nil => exact List.prefix_rfl
  | cons chunk chunks ih => exact (List.prefix_append _ _).trans (ih (r.read chunk))

end Scan

/-- **The frames that portions of output are cut into.** -/
def frames (sentinel : Bytes) (chunks : List Bytes) : List Bytes :=
  ((Scan.fresh sentinel).readAll chunks).frames

/-- **The text after the last frame** once the output has ended. -/
def remainder (sentinel : Bytes) (chunks : List Bytes) : Bytes :=
  let r := (Scan.fresh sentinel).readAll chunks
  (r.framer.feed r.sanitizer.flush).1.pending

/-- More output keeps the frames there were. -/
theorem frames_prefix_append (sentinel : Bytes) (chunks more : List Bytes) :
    frames sentinel chunks <+: frames sentinel (chunks ++ more) := by
  rw [frames, frames, Scan.readAll_append]
  exact Scan.frames_prefix_readAll _ _

/-! ### What a log shows of commands and frames -/

/-- The commands that were written, with their numbers, in the order of writing. -/
def writes (log : List Effect) : List (Nat × Bytes) :=
  log.filterMap fun
    | .wrote seq line => some (seq, line)
    | _ => none

/-- The texts that were received, with the numbers they were received for, in order. -/
def answers (log : List Effect) : List (Nat × Bytes) :=
  log.filterMap fun
    | .recorded .output seq text => some (seq, text)
    | _ => none

@[simp] theorem writes_nil : writes [] = [] := rfl

@[simp] theorem writes_append (log more : List Effect) :
    writes (log ++ more) = writes log ++ writes more := by
  simp [writes]

@[simp] theorem answers_nil : answers [] = [] := rfl

@[simp] theorem answers_append (log more : List Effect) :
    answers (log ++ more) = answers log ++ answers more := by
  simp [answers]

@[simp] theorem writes_cons_wrote (seq : Nat) (line : Bytes) (log : List Effect) :
    writes (.wrote seq line :: log) = (seq, line) :: writes log := rfl

@[simp] theorem writes_cons_recorded (direction : Direction) (seq : Nat) (text : Bytes)
    (log : List Effect) : writes (.recorded direction seq text :: log) = writes log := rfl

@[simp] theorem writes_cons_became (state : State) (log : List Effect) :
    writes (.became state :: log) = writes log := rfl

@[simp] theorem answers_cons_wrote (seq : Nat) (line : Bytes) (log : List Effect) :
    answers (.wrote seq line :: log) = answers log := rfl

@[simp] theorem answers_cons_input (seq : Nat) (text : Bytes) (log : List Effect) :
    answers (.recorded .input seq text :: log) = answers log := rfl

@[simp] theorem answers_cons_output (seq : Nat) (text : Bytes) (log : List Effect) :
    answers (.recorded .output seq text :: log) = (seq, text) :: answers log := rfl

@[simp] theorem answers_cons_became (state : State) (log : List Effect) :
    answers (.became state :: log) = answers log := rfl

@[simp] theorem writes_complained (lines : List Bytes) : writes (lines.map .complained) = [] := by
  induction lines with
  | nil => rfl
  | cons line lines ih => exact ih

@[simp] theorem answers_complained (lines : List Bytes) : answers (lines.map .complained) = [] := by
  induction lines with
  | nil => rfl
  | cons line lines ih => exact ih

end ReplBridge.Repl
