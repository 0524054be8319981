import ReplBridge.Json.Printer
import ReplBridge.Text.Double

/-!
**What JSON numbers and free values mean.**

A number means the nearest number of limited precision.  Some members may hold any JSON value.  Such
a value is kept for what it means, not for how it is spelled: numbers have limited precision, of
repeated keys the last counts, and the order of keys is by their bytes.
-/

set_option autoImplicit false

namespace ReplBridge.Json

/-- A number tree for a number of limited precision. -/
def ofDouble (x : Double) : Json := .number x.text

/-! ### Free values -/

/-- Puts a member into an object that is sorted by the meaning of its keys, in place of one with
the same key. -/
def putMember (key : Bytes) (value : Json) : List (Bytes × Json) → List (Bytes × Json)
  | [] => [(key, value)]
  | (k, v) :: rest =>
    if key == k then (key, value) :: rest
    else if key < k then (key, value) :: (k, v) :: rest
    else (k, v) :: putMember key value rest

mutual

/-- **What a value means**, in its one canonical spelling; `none` if a number in it is too large. -/
def canonical? : Json → Option Json
  | .null => some .null
  | .bool b => some (.bool b)
  | .number literal => (Double.ofLiteral? literal).map ofDouble
  | .string raw => some (text (unescape raw))
  | .array items => (canonicalItems? items).map .array
  | .object members =>
    (canonicalMembers? [] members).map fun ms => .object (ms.map fun (k, v) => (rawOf k, v))
termination_by structural j => j

/-- What the items of an array mean. -/
def canonicalItems? : List Json → Option (List Json)
  | [] => some []
  | item :: rest =>
    match canonical? item, canonicalItems? rest with
    | some item, some rest => some (item :: rest)
    | _, _ => none
termination_by structural items => items

/-- What the members of an object mean, added to those before them. -/
def canonicalMembers? (before : List (Bytes × Json)) :
    List (Bytes × Json) → Option (List (Bytes × Json))
  | [] => some before
  | (key, value) :: rest =>
    match canonical? value with
    | some value => canonicalMembers? (putMember (unescape key) value before) rest
    | none => none
termination_by structural members => members

end

end ReplBridge.Json
