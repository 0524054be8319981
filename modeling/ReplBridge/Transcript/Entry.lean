import ReplBridge.Json.Read
import ReplBridge.Time.Stamp

/-!
**The entries of a transcript.**

An entry says when something was said in a session, in which direction, and what.  It is written as
one line of JSON.
-/

set_option autoImplicit false

namespace ReplBridge.Transcript

open Json (Reads)

/-- Which way something was said: a command to the compiler, or a frame from it. -/
inductive Direction where
  | command
  | frame
  deriving DecidableEq, Repr

def Direction.name : Direction → Bytes
  | .command => utf8 "in"
  | .frame => utf8 "out"

/-- What was said. -/
structure Entry where
  time : Time.Stamp := {}
  session : Bytes := []
  /-- The number of the command. -/
  seq : Nat := 0
  /-- Which way, by the name of the direction. -/
  dir : Bytes := []
  text : Bytes := []
  deriving DecidableEq, Repr

namespace Entry

/-- An entry as JSON; an empty session is left out. -/
def json (e : Entry) : Json :=
  Json.record ([("time", Json.text e.time.text)]
    ++ (if e.session.isEmpty then [] else [("session", Json.text e.session)])
    ++ [("seq", Json.nat e.seq), ("dir", Json.text e.dir), ("text", Json.text e.text)])

def line (e : Entry) : Bytes := Json.compact e.json ++ [0x0A]

def readStamp : Reads Time.Stamp :=
  Reads.plain {} fun
    | .string raw => Time.Stamp.read? {} (Json.unescape raw)
    | _ => none

def read : Reads Entry :=
  Reads.record {}
    [("time", Reads.part (fun e v => { e with time := v }) readStamp),
      ("session", Reads.part (fun e v => { e with session := v }) Reads.text),
      ("seq", Reads.part (fun e v => { e with seq := v }) (Reads.natBelow 64)),
      ("dir", Reads.part (fun e v => { e with dir := v }) Reads.text),
      ("text", Reads.part (fun e v => { e with text := v }) Reads.text)]

end Entry

end ReplBridge.Transcript
