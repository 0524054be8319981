import ReplBridge.Json.Printer
import ReplBridge.Json.Reader
import ReplBridge.Text.Quoted

/-!
**The value that a body begins with.**

Of the body of a message only the first value counts; what stands behind it is not looked at.  When
there is no value, the complaint says what was expected, what was found instead, and the text from
there on, or from the beginning of the string or number that is broken.  A body that merely ends too
early, or whose fault could not be told from an early end, is unfinished.

Main definitions:

* `Body.First`, `Body.first` — what a body begins with;
* `Body.complaint?` — what is wrong with a text that the reader refuses;
* `Body.members` — the members of an object, each with the text from its value on.
-/

set_option autoImplicit false

namespace ReplBridge.Body

open Json (Reader Container)

/-! ### Complaints -/

/-- The beginning of a text, as far as a complaint shows it. -/
def beginning (text : Bytes) : Bytes :=
  if (text.drop 31).isEmpty then text else text.take 32 ++ utf8 "..."

/-- A complaint about a text. -/
def complain (what : Bytes) (text : Bytes) : Bytes :=
  utf8 "json: " ++ what ++ utf8 ": " ++ beginning text

/-- A byte as the character with its number, between quotes. -/
def shown (b : UInt8) : Bytes := [0x27] ++ Utf8.encode (Char.ofNat b.toNat) ++ [0x27]

/-- Whether a text has fewer than so many bytes. -/
def isShorter (n : Nat) (text : Bytes) : Bool := (text.drop (n - 1)).isEmpty

/-- A complaint about the place where a key should begin. -/
def keyComplaint? (text : Bytes) : Option Bytes :=
  if isShorter 2 text then none
  else some (complain (utf8 "expected '\"' at the beginning of a string value") text)

/-- A complaint about the four digits of an escape. -/
def digitsComplaint? (digits : Bytes) : Option Bytes :=
  if isShorter 5 digits then none
  else
    match digits with
    | b :: _ =>
      if (Bytes.hexValue? b).isSome then some (complain (utf8 "invalid unicode code point") digits)
      else
        let cause := complain (utf8 "expected hexadecimal digit but found " ++ shown b)
          (digits.take 4)
        some (complain (utf8 "parsing unicode code point: " ++ cause) digits)
    | [] => none

/-- A complaint about a string; `raw` is what was read of it, last first. -/
def stringComplaint? (raw : Bytes) (escape : Json.Escape) (text : Bytes) : Option Bytes :=
  let whole := raw.reverse ++ text
  if !whole.contains 0x22 then none
  else
    match escape, text with
    | .digits owed, _ => digitsComplaint? ((raw.take (3 - owed)).reverse ++ text)
    | _, b :: _ =>
      some (complain (utf8 "invalid character " ++ shown b ++ utf8 " in string escape code")
        (0x22 :: whole))
    | _, [] => none

/-- A complaint about a literal, of which `left` was still to come. -/
def literalComplaint? (left : Bytes) (meaning : Json) (text : Bytes) : Option Bytes :=
  let word : Bytes := match meaning with
    | .bool b => Json.ofBool b
    | _ => utf8 "null"
  let whole := word.take (word.length - left.length) ++ text
  if isShorter word.length whole then none
  else some (complain (utf8 "expected '" ++ word ++ utf8 "' but found invalid token") whole)

/-- A complaint about a number; `raw` is what was read of it, last first. -/
def numberComplaint? (raw : Bytes) (part : Json.NumberPart) (b : UInt8) (text : Bytes) :
    Option Bytes :=
  let whole := raw.reverse ++ text
  match part with
  | .minus => some (complain (utf8 "expected digit but got " ++ shown b) whole)
  | .point => some (complain (utf8 "expected digit but found " ++ shown b) whole)
  | _ => none

/-- A complaint about what stands after a value in a container. -/
def nextComplaint (stack : List Container) (b : UInt8) (text : Bytes) : Bytes :=
  let place := match stack with
    | .array _ :: _ => utf8 "array element"
    | _ => utf8 "object field value"
  complain (utf8 "expected ',' after " ++ place ++ utf8 " but found " ++ shown b) text

/-- A complaint about the place where a value should begin. -/
def valueComplaint (stack : List Container) (b : UInt8) (text : Bytes) : Bytes :=
  match stack, b with
  | .array _ :: _, 0x5D => complain (utf8 "unexpected trailing comma after array element") text
  | _, _ =>
    complain (utf8 "invalid character " ++ shown b ++ utf8 " looking for beginning of value") text

/-- **What is wrong with a text that the reader refuses**, `b` being its first byte.  There is no
complaint if more text could have helped. -/
def complaint? (r : Reader) (b : UInt8) (rest : Bytes) : Option Bytes :=
  let text := b :: rest
  match r.mode with
  | .value => some (valueComplaint r.stack b text)
  | .firstItem => some (valueComplaint [] b text)
  | .key =>
    if b == 0x7D then some (complain (utf8 "unexpected trailing comma after object field") text)
    else keyComplaint? text
  | .firstKey => keyComplaint? text
  | .colon =>
    some (complain (utf8 "expected ':' after object field key but found " ++ shown b) text)
  | .next => some (nextComplaint r.stack b text)
  | .string _ raw escape => stringComplaint? raw escape text
  | .literal left meaning => literalComplaint? left meaning text
  | .number part raw =>
    if part.isEnd then some (nextComplaint r.stack b text) else numberComplaint? raw part b text
  | .done _ => none

/-! ### The first value -/

/-- What a body begins with: nothing, if it is all white space; a value, by its tree and its text,
with what stands behind it; what could still become a value; or what cannot become one, and why. -/
inductive First where
  | nothing
  | value (tree : Json) (text rest : Bytes)
  | unfinished
  | bad (complaint : Bytes)
  deriving Repr

/-- Reads on up to the end of a value; `taken` is what was read of it, last first. -/
def firstFrom (r : Reader) (taken : Bytes) : Bytes → First
  | [] =>
    match r.value? with
    | some j => .value j taken.reverse []
    | none => .unfinished
  | b :: rest =>
    match r.stack, r.mode with
    | [], .done j => .value j taken.reverse (b :: rest)
    | _, _ =>
      match r.value?, r.step b with
      | some j, none => .value j taken.reverse (b :: rest)
      | some j, some { mode := .done _, .. } => .value j taken.reverse (b :: rest)
      | _, some r => firstFrom r (b :: taken) rest
      | none, none =>
        match complaint? r b rest with
        | some complaint => .bad complaint
        | none => .unfinished

/-- **What a body begins with.** -/
def first (body : Bytes) : First :=
  match body.dropWhile Json.isSpace with
  | [] => .nothing
  | text => firstFrom {} [] text

/-! ### Members -/

/-- A member of an object, with the text it was read from. -/
structure Member where
  key : Bytes
  value : Json
  text : Bytes
  /-- The text from the value on. -/
  onward : Bytes
  deriving Repr

/-- The members that a text holds after the opening brace or after another member; `fuel` bounds
their number. -/
def membersWithin : Nat → Bytes → List Member
  | 0, _ => []
  | fuel + 1, text =>
    match first (text.dropWhile fun b => b == 0x2C || Json.isSpace b) with
    | .value (.string key) _ rest =>
      let onward := rest.dropWhile fun b => b == 0x3A || Json.isSpace b
      match first onward with
      | .value value text rest =>
        { key := Json.unescape key, value, text, onward } :: membersWithin fuel rest
      | _ => []
    | _ => []

/-- **The members of an object**, given by a text that begins with it. -/
def members (text : Bytes) : List Member := membersWithin text.length (text.drop 1)

end ReplBridge.Body
