import ReplBridge.Text.Blank
import ReplBridge.Text.Decimal
import ReplBridge.Text.Quoted

/-!
**How grave a log record is.**

Levels are numbers, and four of them have names; a level between two of these is written as the
lower name and a difference.
-/

set_option autoImplicit false

namespace ReplBridge.Log

/-- A level; the greater, the graver. -/
abbrev Level := Int

namespace Level

/-- For those who look for mistakes. -/
def debug : Level := -4

/-- For those who watch. -/
def info : Level := 0

/-- For what may go wrong. -/
def warn : Level := 4

/-- For what went wrong. -/
def error : Level := 8

def relative (name : String) (difference : Int) : Bytes :=
  utf8 name ++
    if difference = 0 then []
    else if difference < 0 then Decimal.ofInt difference
    else utf8 "+" ++ Decimal.ofInt difference

/-- **How a level is written.** -/
def text (l : Level) : Bytes :=
  if l < info then relative "DEBUG" (l - debug)
  else if l < warn then relative "INFO" (l - info)
  else if l < error then relative "WARN" (l - warn)
  else relative "ERROR" (l - error)

/-- The small form of a letter that is compared with names: of the letters of the alphabet, the
dotted capital, and the sign for kelvin. -/
def small : Utf8.Piece → Bytes
  | .stray b => [b]
  | .scalar c =>
    if c == 'İ' then utf8 "i"
    else if c == 'K' then utf8 "k"
    else (Utf8.encode c).map Bytes.lower

def names : List (String × Level) :=
  [("debug", debug), ("info", info), ("", info), ("warn", warn), ("warning", warn),
    ("error", error)]

/-- **The level of a name**, in any case and with space around it. -/
def parse? (name : Bytes) : Option Level :=
  let word := (Utf8.pieces (Blank.trim name)).flatMap small
  (names.find? fun e => utf8 e.1 == word).map (·.2)

end Level

/-- What is said about a name that is no level. -/
def unknownLevel (name : Bytes) : Bytes :=
  utf8 "unknown --log-level=" ++ Quoted.quote name
    ++ utf8 " (expected debug|info|warn|error); defaulting to info"

/-- **The least level that is logged**, and what is said about a bad name.  A log that is to be
verbose has no use for the name. -/
def choose (name : Bytes) (verbose : Bool) : Level × Option Bytes :=
  if verbose then (Level.debug, none)
  else match Level.parse? name with
    | some l => (l, none)
    | none => (Level.info, some (unknownLevel name))

end ReplBridge.Log
