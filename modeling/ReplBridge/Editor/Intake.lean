import ReplBridge.Editor.Server

/-!
**How the bytes of an editor become events.**

Bytes arrive in portions of any size.  They are taken up in blocks of at most `blockSize` bytes,
only when a message needs more of them; of a long body, what is missing is taken up at once.  When
the editor asks for the end, no more bytes are taken up, but those that already were are still read:
the messages among them are handled, and the stream is over when they are used up.
-/

set_option autoImplicit false

namespace ReplBridge.Editor

def blockSize : Nat := 4096

/-- Where in a message the reading stands: in a header, which gave a length or not, after some bytes
of a line that fill whole blocks; or in a body, of which some bytes are missing, after others. -/
inductive Stage where
  | header (length : Option Nat) (line : Bytes)
  | body (missing : Nat) (data : Bytes)
  deriving Repr

/-- How far the reading has come. -/
structure Intake where
  /-- Where in a message it stands. -/
  stage : Stage := .header none []
  /-- The bytes that were taken up and not used yet. -/
  block : Bytes := []
  /-- Whether no more bytes are taken up. -/
  closed : Bool := false
  /-- Whether nothing more is read. -/
  stopped : Bool := false
  deriving Repr

namespace Intake

/-- The reading is over. -/
def stop (i : Intake) : Intake := { i with block := [], stopped := true }

/-- What a step of the reading comes to: more bytes are needed; it goes on with the bytes that were
not taken up, perhaps after an event; or it is over. -/
inductive Step where
  | waits
  | goesOn (event : Option Event) (i : Intake) (source : Bytes)
  | ends (event : Event)

/-- A line of a header is whole. -/
def line (i : Intake) (length : Option Nat) (text source : Bytes) : Step :=
  match Wire.Line.read text with
  | .last =>
    match length with
    | some n => .goesOn none { i with stage := .body n [] } source
    | none => .ends (.garbage Wire.Fault.noLength.message)
  | .length n => .goesOn none { i with stage := .header (some n) [] } source
  | .other => .goesOn none { i with stage := .header length [] } source
  | .bad fault => .ends (.garbage fault.message)

def body (i : Intake) (data source : Bytes) : Step :=
  let i := { i with stage := .header none [] }
  match Incoming.read data with
  | .error .empty => .ends .ended
  | .error defect => .ends (.garbage defect.message)
  | .ok .response => .goesOn none i source
  | .ok (.request r) =>
    if Method.ofName r.method == .exit then .goesOn (some (.request r)) { i with closed := true } []
    else .goesOn (some (.request r)) i source

/-- One step of the reading; `source` is what was not taken up yet. -/
def step (i : Intake) (source : Bytes) : Step :=
  match i.stage with
  | .header length before =>
    match Bytes.cut? [0x0A] i.block with
    | some (now, rest) => { i with block := rest }.line length (before ++ now) source
    | none =>
      if source.isEmpty then .waits
      else if blockSize ≤ i.block.length then
        .goesOn none { i with stage := .header length (before ++ i.block), block := [] } source
      else
        let room := blockSize - i.block.length
        .goesOn none { i with block := i.block ++ source.take room } (source.drop room)
  | .body missing data =>
    if missing = 0 then i.body data source
    else if !i.block.isEmpty then
      let more := i.block.take missing
      .goesOn none
        { i with stage := .body (missing - more.length) (data ++ more), block := i.block.drop missing }
        source
    else if source.isEmpty then .waits
    else if blockSize ≤ missing then
      let more := source.take missing
      .goesOn none { i with stage := .body (missing - more.length) (data ++ more) }
        (source.drop missing)
    else .goesOn none { i with block := source.take blockSize } (source.drop blockSize)

/-- Steps of the reading, at most so many. -/
def run : Nat → Intake → Bytes → List Event × Intake
  | 0, i, _ => ([], i)
  | fuel + 1, i, source =>
    match i.step source with
    | .waits => if i.closed then ([.ended], i.stop) else ([], i)
    | .ends event => ([event], i.stop)
    | .goesOn event i source =>
      let (events, i) := run fuel i source
      (event.toList ++ events, i)

/-- **A portion of bytes arrives**: the events it amounts to. -/
def feed (i : Intake) (source : Bytes) : List Event × Intake :=
  if i.stopped then ([], i) else run (4 * (i.block.length + source.length) + 4) i source

/-- **The stream ends.**  It may do so anywhere but inside a body. -/
def finish (i : Intake) : Event :=
  match i.stage with
  | .body _ (_ :: _) => .garbage (utf8 "read full of data: unexpected EOF")
  | _ => .ended

end Intake

end ReplBridge.Editor
