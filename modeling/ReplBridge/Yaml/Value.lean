import ReplBridge.Json.Number
import ReplBridge.Time.Stamp

/-!
**What a plain scalar means.**

A scalar without quotes may mean null, a truth value, a number or a date; its first character says
which of these to try.  Whatever is none of them is text.  Numbers may have underscores between
their digits, and whole numbers may be written in base two, eight and sixteen.

Main definitions:

* `Yaml.Real` — a number with a fraction, or one of the three values beside them;
* `Yaml.Value`, `Yaml.Value.ofPlain` — what a plain scalar means;
* `Yaml.Value.tag` — the tag of a value.
-/

set_option autoImplicit false

namespace ReplBridge.Yaml

/-- A number with a fraction. -/
inductive Real where
  | nan
  | infinite (negative : Bool)
  | finite (x : Double)
  deriving DecidableEq, Repr

/-- What a scalar means.  A whole number has a sign in 63 bits, or none in 64; a time is a date,
maybe with a time of day. -/
inductive Value where
  | null
  | bool (b : Bool)
  | int (n : Int)
  | real (x : Real)
  | time
  | text
  deriving DecidableEq, Repr

namespace Value

def tag : Value → Bytes
  | .null => utf8 "!!null"
  | .bool _ => utf8 "!!bool"
  | .int _ => utf8 "!!int"
  | .real _ => utf8 "!!float"
  | .time => utf8 "!!timestamp"
  | .text => utf8 "!!str"

/-! ### Words -/

/-- A word in small letters, with a capital, and in capitals. -/
def words (value : Value) (spellings : List String) : List (Bytes × Value) :=
  spellings.map fun s => (utf8 s, value)

/-- The words that are no text. -/
def vocabulary : List (Bytes × Value) :=
  words (.bool true) ["true", "True", "TRUE"] ++ words (.bool false) ["false", "False", "FALSE"]
    ++ words .null ["", "~", "null", "Null", "NULL"] ++ words (.real .nan) [".nan", ".NaN", ".NAN"]
    ++ words (.real (.infinite false)) [".inf", ".Inf", ".INF", "+.inf", "+.Inf", "+.INF"]
    ++ words (.real (.infinite true)) ["-.inf", "-.Inf", "-.INF"]

/-! ### Whole numbers -/

/-- The value of digits in a base, of which there may be none. -/
def digitsIn? (base : Nat) (digits : Bytes) : Option Nat :=
  digits.foldl (fun n b => match n, Bytes.hexValue? b with
    | some n, some d => if d < base then some (base * n + d) else none
    | _, _ => none) (some 0)

def isLetter (c : Char) (b : UInt8) : Bool := Bytes.lower b == Bytes.ascii c

/-- The value of digits whose beginning says the base. -/
def natural? (s : Bytes) : Option Nat :=
  match s with
  | [] => none
  | 0x30 :: mark :: d :: rest =>
    if isLetter 'b' mark then digitsIn? 2 (d :: rest)
    else if isLetter 'o' mark then digitsIn? 8 (d :: rest)
    else if isLetter 'x' mark then digitsIn? 16 (d :: rest)
    else digitsIn? 8 (mark :: d :: rest)
  | 0x30 :: rest => digitsIn? 8 rest
  | _ => digitsIn? 10 s

/-- A text without its sign. -/
def unsigned (s : Bytes) : Bool × Bytes :=
  match s with
  | 0x2D :: rest => (true, rest)
  | 0x2B :: rest => (false, rest)
  | _ => (false, s)

/-- A number with a sign, if it fits into 64 bits. -/
def signed? (read : Bytes → Option Nat) (s : Bytes) : Option Int :=
  let (negative, digits) := unsigned s
  if digits.isEmpty then none
  else (read digits).bind fun n =>
    let n : Int := if negative then -(n : Int) else n
    if Decimal.fits 64 n then some n else none

/-- A number without a sign, if it fits into 64 bits. -/
def unsigned? (read : Bytes → Option Nat) (s : Bytes) : Option Int :=
  (read s).bind fun n => if n < Decimal.twoTo 64 then some (n : Int) else none

/-- A number whose sign stands behind the mark of its base. -/
def innerSigned? (s : Bytes) : Option Int :=
  match Bytes.after? (utf8 "0b") s, Bytes.after? (utf8 "0o") s with
  | some rest, _ => signed? (digitsIn? 2) rest
  | none, some rest => signed? (digitsIn? 8) rest
  | none, none => none

/-- A whole number without underscores. -/
def whole? (s : Bytes) : Option Int := (signed? natural? s).or (unsigned? natural? s)

/-! ### Numbers with a fraction -/

def isExponent (s : Bytes) : Bool :=
  match s with
  | [] => true
  | e :: rest =>
    let digits := (unsigned rest).2
    isLetter 'e' e && !digits.isEmpty && digits.all Bytes.isDigit

/-- Whether a text is a decimal number. -/
def isDecimal (s : Bytes) : Bool :=
  let s := (unsigned s).2
  let (whole, rest) := s.span Bytes.isDigit
  match rest with
  | 0x2E :: rest =>
    let (fraction, rest) := rest.span Bytes.isDigit
    !(whole.isEmpty && fraction.isEmpty) && isExponent rest
  | _ => !whole.isEmpty && isExponent rest

/-- The number that a decimal means, unless it is too large. -/
def real? (s : Bytes) : Option Value :=
  if isDecimal s then
    let s := match s with
      | 0x2B :: rest => rest
      | _ => s
    (Double.ofLiteral? s).map fun x => .real (.finite x)
  else none

/-- Whether every underscore stands between digits; `after` says whether a digit is before. -/
def underscoresOk : Bool → Bytes → Bool
  | _, [] => true
  | after, b :: rest =>
    if b == 0x5F then after && (rest.head?.map Bytes.isDigit).getD false && underscoresOk false rest
    else underscoresOk (Bytes.isDigit b) rest

/-- A text without its underscores. -/
def plain (s : Bytes) : Bytes := s.filter (· != 0x5F)

/-! ### Dates -/

/-- The ways to write a date with a time. -/
def layouts : List Time.Layout :=
  [{ short := true }, { short := true, divider := .byte 0x74 },
    { short := true, divider := .spaces, zoned := false }]

/-- Whether a text is a date, maybe with a time. -/
def isTime (s : Bytes) : Bool :=
  (s.takeWhile Bytes.isDigit).length = 4
    && (layouts.any (fun l => (Time.Stamp.read? l s).isSome)
      || (Time.date? true s).map Prod.snd == some [])

/-! ### Scalars -/

/-- The number that a text means, if it means one. -/
def number? (s : Bytes) : Option Value :=
  let s := plain s
  (((whole? s).map Value.int).or (real? s)).or ((innerSigned? s).map .int)

/-- The first characters of the words. -/
def startsWord (b : UInt8) : Bool := (utf8 "yYnNtTfFoO~").contains b

/-- **What a plain scalar means**; `dated` says whether it may be a date. -/
def ofPlain (dated : Bool) (s : Bytes) : Value :=
  match s with
  | [] => .null
  | b :: _ =>
    let sign := b == 0x2B || b == 0x2D
    if startsWord b then (vocabulary.lookup s).getD .text
    else if b == 0x2E then
      ((vocabulary.lookup s).or (if underscoresOk false s then real? (plain s) else none)).getD .text
    else if Bytes.isDigit b || sign then
      match vocabulary.lookup s with
      | some v => v
      | none => if dated && isTime s then .time else (number? s).getD .text
    else .text

end Value

end ReplBridge.Yaml
