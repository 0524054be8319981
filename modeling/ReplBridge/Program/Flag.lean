import ReplBridge.Text.Interval
import ReplBridge.Text.Quoted

/-!
**The flags of a command line.**

A flag is given by its name after two dashes, with its value behind an equals sign or as the next
argument.  A switch needs no value.  Some switches have a letter, which is given after one dash, and
several letters may follow each other.  Two dashes alone end the flags; all that is no flag is an
operand.

Main definitions:

* `Flag`, `Flag.Value` — a flag, and what it is set to;
* `Flag.Fault`, `Flag.Fault.message` — what may be wrong with flags;
* `Flag.parse` — the flags and operands of a command line;
* `Flag.operands`, `Flag.without` — operands by a first look, which knows only which flags take the
  next argument.
-/

set_option autoImplicit false

namespace ReplBridge

/-- What the value of a flag is: a truth value, which is true if it is not given, any text, or a
length of time. -/
inductive Flag.Kind where
  | switch
  | text
  | duration
  deriving DecidableEq, Repr

/-- A flag. -/
structure Flag where
  name : String
  kind : Flag.Kind
  letter : Option UInt8 := none
  deriving DecidableEq, Repr

namespace Flag

/-- What a flag is set to. -/
inductive Value where
  | switch (b : Bool)
  | text (s : Bytes)
  | duration (d : Duration)
  deriving DecidableEq, Repr

/-! ### Faults -/

/-- What may be wrong with flags: an argument is none, no flag has the name or the letter, or a
value is missing or not one of the flag. -/
inductive Fault where
  | badSyntax (arg : Bytes)
  | unknown (name : Bytes)
  | unknownLetter (letter : UInt8) (letters : Bytes)
  | missingValue (arg : Bytes)
  | badValue (value : Bytes) (flag : Flag) (why : Bytes)
  deriving DecidableEq, Repr

def quotedLetter (b : UInt8) : Bytes :=
  let inner := if b == 0x27 then [0x5C, 0x27]
    else if b == 0x22 then [0x22]
    else Quoted.show1 (.scalar (Char.ofNat b.toNat))
  [0x27] ++ inner ++ [0x27]

/-- How a flag is shown: its letter, if it has one, and its name. -/
def shown (f : Flag) : Bytes :=
  (match f.letter with
    | some l => [0x2D, l] ++ utf8 ", "
    | none => []) ++ utf8 "--" ++ utf8 f.name

/-- **The wording of a fault.** -/
def Fault.message : Fault → Bytes
  | .badSyntax arg => utf8 "bad flag syntax: " ++ arg
  | .unknown name => utf8 "unknown flag: --" ++ name
  | .unknownLetter letter letters =>
    utf8 "unknown shorthand flag: " ++ quotedLetter letter ++ utf8 " in -" ++ letters
  | .missingValue arg => utf8 "flag needs an argument: " ++ arg
  | .badValue value flag why =>
    utf8 "invalid argument " ++ Quoted.quote value ++ utf8 " for " ++ Quoted.quote flag.shown
      ++ utf8 " flag: " ++ why

/-! ### Values -/

def trueWords : List Bytes := ["1", "t", "T", "TRUE", "true", "True"].map utf8

def falseWords : List Bytes := ["0", "f", "F", "FALSE", "false", "False"].map utf8

/-- The value that a text gives to a flag. -/
def value (f : Flag) (s : Bytes) : Except Fault Value :=
  match f.kind with
  | .text => .ok (.text s)
  | .switch =>
    if trueWords.contains s then .ok (.switch true)
    else if falseWords.contains s then .ok (.switch false)
    else .error (.badValue s f (utf8 "strconv.ParseBool: parsing " ++ Quoted.quote s
      ++ utf8 ": invalid syntax"))
  | .duration =>
    match Duration.parse s with
    | .ok d => .ok (.duration d)
    | .error why => .error (.badValue s f (why.message s))

def named? (flags : List Flag) (name : Bytes) : Option Flag :=
  flags.find? fun f => utf8 f.name == name

def lettered? (flags : List Flag) (letter : UInt8) : Option Flag :=
  flags.find? fun f => f.letter == some letter

/-! ### Parsing -/

/-- What was read of a command line. -/
structure Reading where
  /-- What flags are set to; what was set last comes first. -/
  values : List (String × Value) := []
  /-- The operands, last one first. -/
  rest : List Bytes := []
  deriving Repr

namespace Reading

def set (r : Reading) (f : Flag) (s : Bytes) : Except Fault Reading :=
  (f.value s).map fun v => { r with values := (f.name, v) :: r.values }

def operands (r : Reading) : List Bytes := r.rest.reverse

def switch (r : Reading) (name : String) (default : Bool := false) : Bool :=
  match r.values.lookup name with
  | some (.switch b) => b
  | _ => default

/-- What a flag with a text is set to. -/
def text (r : Reading) (name : String) (default : Bytes := []) : Bytes :=
  match r.values.lookup name with
  | some (.text s) => s
  | _ => default

/-- What a flag with a length of time is set to. -/
def duration (r : Reading) (name : String) : Duration :=
  match r.values.lookup name with
  | some (.duration d) => d
  | _ => 0

end Reading

/-- What letters begin with that are meant for somebody else. -/
def foreign : Bytes := utf8 "test."

/-- Sets switches by their letters; a value may follow the last one. -/
def setLetters (flags : List Flag) (r : Reading) : Bytes → Except Fault Reading
  | [] => .ok r
  | letter :: more =>
    if foreign.isPrefixOf (letter :: more) then .ok r
    else match lettered? flags letter, more with
      | none, _ => .error (.unknownLetter letter (letter :: more))
      | some f, 0x3D :: c :: cs => r.set f (c :: cs)
      | some f, _ =>
        match r.set f (utf8 "true") with
        | .error fault => .error fault
        | .ok r => setLetters flags r more

/-- A flag by its name: the name, and the value behind an equals sign. -/
def nameAndValue (s : Bytes) : Bytes × Option Bytes :=
  match Bytes.cut? [0x3D] s with
  | some (name, value) => (name, some value)
  | none => (s, none)

/-- What an argument is: an operand, the end of the flags, a flag by its name, or switches by their
letters. -/
inductive Argument where
  | operand
  | dashes
  | long (body : Bytes)
  | short (letters : Bytes)
  deriving DecidableEq, Repr

/-- What an argument is; a dash alone is an operand. -/
def Argument.ofText : Bytes → Argument
  | 0x2D :: 0x2D :: [] => .dashes
  | 0x2D :: 0x2D :: body => .long body
  | 0x2D :: c :: cs => .short (c :: cs)
  | _ => .operand

/-- **Reads a command line.** -/
def parse (flags : List Flag) (r : Reading) : List Bytes → Except Fault Reading
  | [] => .ok r
  | arg :: more =>
    match Argument.ofText arg with
    | .operand => parse flags { r with rest := arg :: r.rest } more
    | .dashes => .ok { r with rest := more.reverseAux r.rest }
    | .short letters =>
      match setLetters flags r letters with
      | .error fault => .error fault
      | .ok r => parse flags r more
    | .long body =>
      if body.head? == some 0x2D || body.head? == some 0x3D then .error (.badSyntax arg)
      else match named? flags (nameAndValue body).1 with
        | none => .error (.unknown (nameAndValue body).1)
        | some f =>
          match (nameAndValue body).2 with
          | some v =>
            match r.set f v with
            | .error fault => .error fault
            | .ok r => parse flags r more
          | none =>
            if f.kind = .switch then
              match r.set f (utf8 "true") with
              | .error fault => .error fault
              | .ok r => parse flags r more
            else match more with
              | [] => .error (.missingValue arg)
              | v :: later =>
                match r.set f v with
                | .error fault => .error fault
                | .ok r => parse flags r later
termination_by args => args.length

/-! ### A first look -/

/-- Whether a flag takes the next argument, as far as can be told: one that is not known does. -/
def takesNext (flags : List Flag) (arg : Bytes) : Bool :=
  let isSwitch : Option Flag → Bool := fun f => f.any (·.kind = .switch)
  match Argument.ofText arg with
  | .long body => !body.contains 0x3D && !isSwitch (named? flags body)
  | .short [l] => l != 0x3D && !isSwitch (lettered? flags l)
  | _ => false

/-- Whether an argument begins with a dash. -/
def isDashed (arg : Bytes) : Bool := arg.head? == some 0x2D

/-- **The operands, by a first look**; a flag that would take the last argument ends it. -/
def operands (flags : List Flag) : List Bytes → List Bytes
  | [] => []
  | arg :: more =>
    if Argument.ofText arg = .dashes then []
    else if takesNext flags arg then
      match more with
      | [] | [_] => []
      | _ :: later => operands flags later
    else if arg.isEmpty || isDashed arg then operands flags more
    else arg :: operands flags more
termination_by args => args.length

/-- The arguments without the first operand that is `x`. -/
def without (flags : List Flag) (x : Bytes) : List Bytes → List Bytes
  | [] => []
  | arg :: more =>
    if Argument.ofText arg = .dashes then arg :: more
    else if takesNext flags arg then
      match more with
      | [] => [arg]
      | v :: later => arg :: v :: without flags x later
    else if !isDashed arg && arg == x then more
    else arg :: without flags x more
termination_by args => args.length

end Flag

end ReplBridge
