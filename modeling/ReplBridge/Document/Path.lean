import ReplBridge.Text.Bytes

/-!
**File paths.**

Paths are texts divided by slashes.  A path is *clean* when it has no empty segment, no `.` and no
`..` that could be resolved; making a path absolute also cleans it.
-/

set_option autoImplicit false

namespace ReplBridge.Path

def slash : UInt8 := 0x2F

/-- One more segment of a path, in front of which `done` stand, last first. -/
def push (rooted : Bool) (done : List Bytes) (segment : Bytes) : List Bytes :=
  if segment.isEmpty || segment == utf8 "." then done
  else if segment == utf8 ".." then
    match done with
    | [] => if rooted then [] else [segment]
    | last :: before => if last == utf8 ".." then segment :: done else before
  else segment :: done

/-- Whether a path starts at the root. -/
def isRooted : Bytes → Bool
  | 0x2F :: _ => true
  | _ => false

/-- **The shortest path that means the same** by its spelling alone. -/
def clean (path : Bytes) : Bytes :=
  let rooted := isRooted path
  let segments := ((Bytes.split [slash] path).foldl (push rooted) []).reverse
  let joined := Bytes.join [slash] segments
  if rooted then slash :: joined
  else if joined.isEmpty then utf8 "."
  else joined

/-- A path below a directory, cleaned; empty parts do not count. -/
def join (dir path : Bytes) : Bytes :=
  if dir.isEmpty then (if path.isEmpty then [] else clean path)
  else if path.isEmpty then clean dir
  else clean (dir ++ [slash] ++ path)

/-- A path seen from a working directory. -/
def absolute (cwd path : Bytes) : Bytes :=
  if isRooted path then clean path else join cwd path

/-- Everything up to the last slash of a path, cleaned. -/
def parent (path : Bytes) : Bytes :=
  match Bytes.cutLast? (· == slash) path with
  | none => utf8 "."
  | some (before, _) => clean (before ++ [slash])

/-- A byte that is a letter of Latin-1. -/
def isLatinLetter (b : UInt8) : Bool :=
  Bytes.isLetter b || b == 0xAA || b == 0xB5 || b == 0xBA || Bytes.within 0xC0 0xD6 b
    || Bytes.within 0xD8 0xF6 b || 0xF8 ≤ b

/-- A path that begins with a drive letter and goes on after its colon. -/
def isDrive : Bytes → Bool
  | letter :: 0x3A :: _ :: _ :: _ => isLatinLetter letter
  | _ => false

end ReplBridge.Path
