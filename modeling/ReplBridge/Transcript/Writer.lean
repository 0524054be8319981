import ReplBridge.Disk
import ReplBridge.Text.Blank
import ReplBridge.Transcript.Reader

/-!
**Writing a transcript.**

What is recorded goes through an encoder, which may hold it back until the transcript is flushed or
closed.  After a failure, and after the transcript was closed, nothing is recorded any more.
-/

set_option autoImplicit false

namespace ReplBridge.Transcript

/-- Why nothing is recorded: the sink does not take it, or the transcript was closed. -/
inductive Refusal where
  | sink (message : Bytes)
  | closed
  deriving DecidableEq, Repr

def Refusal.message : Refusal → Bytes
  | .sink message => message
  | .closed => utf8 "transcript closed"

/-- A transcript that is being written, with an encoder. -/
structure Writer (E : Type) where
  session : Bytes := []
  /-- How what it is written to fails, if it does. -/
  sinkFailure : Option Bytes := none
  encoder : E
  written : Bytes := []
  /-- Why nothing is recorded any more. -/
  refusal : Option Refusal := none
  closed : Bool := false
  deriving Repr

namespace Writer

variable {E : Type}

def new (codec : Codec E) (session : Bytes) : Writer E := { session, encoder := codec.fresh }

/-- Writes what an encoder gave out, and says why that failed; the encoder then keeps it. -/
def deliver (w : Writer E) (encoder : E) (out : Bytes) : Writer E × Option Refusal :=
  if out.isEmpty then ({ w with encoder }, none)
  else match w.sinkFailure with
    | some message => (w, some (.sink message))
    | none => ({ w with encoder, written := w.written ++ out }, none)

/-- **Records something.** -/
def record (codec : Codec E) (w : Writer E) (time : Time.Stamp) (dir : Direction) (seq : Nat)
    (text : Bytes) : Writer E :=
  if w.refusal.isSome then w
  else
    let e : Entry := { time, session := w.session, seq, dir := dir.name, text }
    match codec.write w.encoder e.line with
    | (encoder, out) =>
      match w.deliver encoder out with
      | (after, refusal) => { after with refusal }

/-- **Writes what waits**, and says why that failed. -/
def flush (codec : Codec E) (w : Writer E) : Writer E × Option Refusal :=
  match w.refusal with
  | some refusal => (w, some refusal)
  | none =>
    match codec.flush w.encoder with
    | (encoder, out) =>
      match w.deliver encoder out with
      | (after, refusal) => ({ after with refusal }, refusal)

/-- **Ends the transcript**, and says why that failed.  A second time does nothing. -/
def close (codec : Codec E) (w : Writer E) : Writer E × Option Refusal :=
  if w.closed then (w, none)
  else
    match w.deliver w.encoder (codec.close w.encoder) with
    | (after, failure) =>
      ({ after with closed := true, refusal := w.refusal.or (some .closed) },
        failure.or w.refusal)

end Writer

/-- Why no transcript was made: no path is given, or the path could not be used. -/
inductive CreateFault where
  | pathRequired
  | disk (fault : Disk.Fault)
  deriving DecidableEq, Repr

def CreateFault.message : CreateFault → Bytes
  | .pathRequired => utf8 "transcript path is required"
  | .disk fault => fault.message

/-- **Makes an empty file for a transcript**, with the directories that lead to it; gives the path
without space around it. -/
def create (disk : Disk) (path : Bytes) : Except CreateFault (Bytes × Disk) :=
  let path := Blank.trim path
  if path.isEmpty then .error .pathRequired
  else
    match disk.makeDirs (Path.parent path) with
    | .error fault => .error (.disk fault)
    | .ok disk =>
      match disk.write path [] with
      | .error fault => .error (.disk fault)
      | .ok disk => .ok (path, disk)

end ReplBridge.Transcript
