import ReplBridge.Text.Blank
import ReplBridge.Text.Quoted
import ReplBridge.Text.Table
import ReplBridge.Transcript.Entry

/-!
**Printing a transcript.**

The entries are printed as a table, or as lines of JSON; all of them, or those of one direction.
-/

set_option autoImplicit false

namespace ReplBridge.Transcript

/-- Why not everything was printed: there is no such direction, or a clock is a day or more ahead of
universal time, or behind. -/
inductive PrintFault where
  | badDirection (name : Bytes)
  | badZone
  deriving DecidableEq, Repr

def PrintFault.message : PrintFault → Bytes
  | .badDirection name =>
    utf8 "invalid --dir " ++ Quoted.quote name ++ utf8 " (expected in|out)"
  | .badZone => utf8 ("json: error calling MarshalJSON for type *time.Time: "
      ++ "timezone hour outside of range [0,23]")

/-- The entries of a direction; of all directions if it is empty. -/
def select (dir : Bytes) (entries : List Entry) : List Entry :=
  entries.filter fun e => dir.isEmpty || e.dir == dir

/-- Whether the clock of an entry is less than a day away from universal time. -/
def zoneOk (e : Entry) : Bool := e.time.ahead.natAbs < 24 * 60

/-- Entries as lines of JSON, up to one that cannot be written. -/
def jsonLines (entries : List Entry) : Bytes × Option PrintFault :=
  let ok := entries.takeWhile zoneOk
  (ok.flatMap Entry.line, if ok.length < entries.length then some .badZone else none)

/-- The text of an entry on one line. -/
def oneLine (text : Bytes) : Bytes :=
  Bytes.replace [0x0A] (utf8 "\\n") (Bytes.dropEndWhile (· == 0x0A) text)

def row (e : Entry) : Bytes :=
  Bytes.join [0x09] [e.time.text, utf8 (toString e.seq), e.dir, oneLine e.text] ++ [0x0A]

def table (entries : List Entry) : Bytes :=
  Table.layout (utf8 "TIME\tSEQ\tDIR\tTEXT\n" ++ entries.flatMap row)

/-- **The text that is printed for entries**, and why it is not all. -/
def print (entries : List Entry) (dir : Bytes) (asJson : Bool) : Bytes × Option PrintFault :=
  let dir := Blank.trim dir
  if !(dir.isEmpty || dir == Direction.command.name || dir == Direction.frame.name) then
    ([], some (.badDirection dir))
  else if asJson then jsonLines (select dir entries)
  else (table (select dir entries), none)

end ReplBridge.Transcript
