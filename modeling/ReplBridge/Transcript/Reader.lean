import ReplBridge.Text.Lines
import ReplBridge.Transcript.Codec
import ReplBridge.Transcript.Entry

/-!
**Reading a transcript.**

The entries are read line by line; empty lines do not count.  Reading ends at the first line that is
no entry, with the entries before it.
-/

set_option autoImplicit false

namespace ReplBridge.Transcript

/-- Why a transcript could not be read to its end: the packed file is at fault, or a line, which is
no entry or too long.  The number of a bad entry counts the entries. -/
inductive Fault where
  | packed (message : Bytes)
  | badEntry (number : Nat)
  | tooLong
  deriving DecidableEq, Repr

/-- The wording of a fault, up to what exactly is wrong with an entry. -/
def Fault.message : Fault → Bytes
  | .packed message => message
  | .badEntry number => utf8 "decode entry " ++ utf8 (toString number) ++ utf8 ": invalid entry"
  | .tooLong => utf8 "bufio.Scanner: token too long"

/-- The length that a line must not reach. -/
def lineLimit : Nat := 16 * 1024 * 1024

def entry? (line : Bytes) : Option Entry := Json.decode? Entry.read line

/-- The entries of some lines, the ones before them last first. -/
def entriesOf : List Entry → List Bytes → List Entry × Option Fault
  | done, [] => (done.reverse, none)
  | done, line :: rest =>
    if line.isEmpty then entriesOf done rest
    else match entry? line with
      | some e => entriesOf (e :: done) rest
      | none => (done.reverse, some (.badEntry (done.length + 1)))

/-- **The entries of a text.** -/
def readLines (s : Bytes) : List Entry × Option Fault :=
  match Lines.scan lineLimit s with
  | (lines, tooLong) =>
    match entriesOf [] lines with
    | (entries, fault) => (entries, fault.or (if tooLong then some .tooLong else none))

/-- **The entries of a file.** -/
def read {E : Type} (codec : Codec E) (s : Bytes) : List Entry × Option Fault :=
  match codec.decode s with
  | (content, message) =>
    match readLines content with
    | (entries, fault) => (entries, fault.or (message.map .packed))

end ReplBridge.Transcript
