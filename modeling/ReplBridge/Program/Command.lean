import ReplBridge.Config.Settings
import ReplBridge.Program.Flag

/-!
**The commands of the program.**

The program has commands, and serves an editor if none is given.  Some flags are those of every
command, others belong to some.  Which command is meant is found by a first look at the operands;
then its flags are read, and its operands have to be as many as it takes.

Main definitions:

* `Program.Command` — the commands, with their flags and operands;
* `Program.UsageFault`, `Program.UsageFault.message` — what may be wrong with a command line;
* `Program.Request`, `Program.Request.read` — what a command line asks for.
-/

set_option autoImplicit false

namespace ReplBridge.Program

def programName : Bytes := utf8 "carp-lsp"

def version : Bytes := utf8 "dev"

/-! ### Commands -/

/-- The commands.  Without one an editor is served. -/
inductive Command where
  | none
  | serve
  | console
  | doctor
  | transcript
  | help
  | completion
  deriving DecidableEq, Repr

namespace Command

def name : Command → Bytes
  | .none => []
  | .serve => utf8 "serve"
  | .console => utf8 "repl"
  | .doctor => utf8 "doctor"
  | .transcript => utf8 "transcript"
  | .help => utf8 "help"
  | .completion => utf8 "completion"

def all : List Command := [serve, console, doctor, transcript, help, completion]

def named? (name : Bytes) : Option Command := all.find? fun c => c.name == name

/-- The program and the name of a command. -/
def path (c : Command) : Bytes :=
  if c = .none then programName else programName ++ utf8 " " ++ c.name

def commonFlags : List Flag :=
  [⟨"config", .text, .none⟩, ⟨"profile", .text, .none⟩, ⟨"log-level", .text, .none⟩,
    ⟨"verbose", .switch, .none⟩, ⟨"log-json", .switch, .none⟩]

/-- The flags of the commands that start a compiler. -/
def sessionFlags : List Flag :=
  [⟨"executable", .text, .none⟩, ⟨"pty", .switch, .none⟩, ⟨"command-timeout", .duration, .none⟩,
    ⟨"transcript", .text, .none⟩, ⟨"health-addr", .text, .none⟩, ⟨"stdio", .switch, .none⟩]

/-- The flags of a command that a first look knows. -/
def flags (c : Command) : List Flag :=
  commonFlags ++ match c with
    | .none | .serve | .console => sessionFlags
    | .transcript => [⟨"json", .switch, .none⟩, ⟨"dir", .text, .none⟩]
    | .doctor | .help | .completion => []

def allFlags (c : Command) : List Flag :=
  c.flags ++ [⟨"help", .switch, some 0x68⟩]
    ++ if c = .none then [⟨"version", .switch, some 0x76⟩] else []

end Command

/-! ### Faults -/

/-- What may be wrong with a command line: there is no such command, though some have names like it;
a flag is at fault; or the command takes no operands, or another number of them. -/
inductive UsageFault where
  | unknownCommand (name : Bytes) (similar : List Bytes)
  | flag (fault : Flag.Fault)
  | unexpected (command : Command) (operand : Bytes)
  | wrongCount (wanted given : Nat)
  deriving DecidableEq, Repr

/-- What stands behind a message when there are names like the one given. -/
def suggestion (similar : List Bytes) : Bytes :=
  if similar.isEmpty then []
  else utf8 "\n\nDid you mean this?\n" ++ similar.flatMap fun name => 0x09 :: name ++ [0x0A]

/-- **The wording of a fault.** -/
def UsageFault.message : UsageFault → Bytes
  | .unknownCommand name similar =>
    utf8 "unknown command " ++ Quoted.quote name ++ utf8 " for " ++ Quoted.quote programName
      ++ suggestion similar
  | .flag fault => fault.message
  | .unexpected command operand =>
    utf8 "unknown command " ++ Quoted.quote operand ++ utf8 " for " ++ Quoted.quote command.path
  | .wrongCount wanted given =>
    utf8 "accepts " ++ Decimal.ofNat wanted ++ utf8 " arg(s), received " ++ Decimal.ofNat given

/-! ### Names like another -/

/-- The next row of distances: `above` is the row above from here on, `diagonal` the distance up and
to the left, `left` the one to the left, and `c` the byte of the row. -/
def distanceRow (c : UInt8) : Nat → Nat → Bytes → List Nat → List Nat
  | diagonal, left, b :: bs, up :: above =>
    let here := if b == c then diagonal else 1 + min diagonal (min left up)
    here :: distanceRow c up here bs above
  | _, _, _, _ => []

/-- How many bytes have to be put in, left out or replaced to make one text of the other. -/
def distance (s t : Bytes) : Nat :=
  let start := List.range (t.length + 1)
  let last := s.foldl (fun row c =>
    let first := row.headD 0
    (first + 1) :: distanceRow c first (first + 1) t row.tail) start
  last.getLastD 0

/-- How far a name may be away to be like another. -/
def closeness : Nat := 2

/-- Whether a name is like what was typed. -/
def isSimilar (typed name : Bytes) : Bool :=
  let typed := typed.map Bytes.lower
  distance typed name ≤ closeness || typed.isPrefixOf name

/-- The names of commands that are like what was typed. -/
def similarNames (typed : Bytes) : List Bytes :=
  (Command.all.filter (· != .help)).map Command.name |>.filter (isSimilar typed)

/-! ### Requests -/

/-- What every command is told. -/
structure Common where
  /-- Where the configuration is. -/
  configPath : Bytes
  profileName : Bytes
  /-- The name of the least level that is logged. -/
  logLevel : Bytes
  /-- Whether everything is logged. -/
  verbose : Bool
  /-- Whether logs are written as JSON. -/
  logJson : Bool
  deriving Repr

/-- What a command line asks for.  Of a transcript it says where it is, which direction is shown,
and whether as JSON. -/
inductive Request where
  | version
  | help
  | serve (common : Common) (overrides : Overrides)
  | console (common : Common) (overrides : Overrides)
  | doctor (common : Common)
  | transcript (common : Common) (path dir : Bytes) (asJson : Bool)
  deriving Repr

/-- What every command is told by flags. -/
def Common.ofFlags (e : Environment) (r : Flag.Reading) : Common where
  configPath := r.text "config" e.defaultPath
  profileName := r.text "profile"
  logLevel := r.text "log-level" (utf8 "info")
  verbose := r.switch "verbose"
  logJson := r.switch "log-json"

/-- What the commands that start a compiler are told by flags. -/
def overridesOf (c : Common) (r : Flag.Reading) : Overrides where
  configPath := c.configPath
  profileName := c.profileName
  executable := r.text "executable"
  terminal := r.switch "pty"
  commandTimeout := r.duration "command-timeout"
  transcript := r.text "transcript"
  healthAddr := r.text "health-addr"

/-- The command that is meant, and the arguments without its name. -/
def findCommand (args : List Bytes) : Except UsageFault (Command × List Bytes) :=
  match Flag.operands Command.none.flags args with
  | [] => .ok (.none, args)
  | first :: _ =>
    match Command.named? first with
    | some c => .ok (c, Flag.without Command.none.flags first args)
    | none => .error (.unknownCommand first (similarNames first))

/-- The request of a command whose flags were read. -/
def requestOf (e : Environment) (c : Command) (r : Flag.Reading) : Except UsageFault Request :=
  let common := Common.ofFlags e r
  if r.switch "help" then .ok .help
  else match c, r.operands with
    | .none, _ =>
      if r.switch "version" then .ok .version else .ok (.serve common (overridesOf common r))
    | .serve, [] => .ok (.serve common (overridesOf common r))
    | .console, [] => .ok (.console common (overridesOf common r))
    | .doctor, _ => .ok (.doctor common)
    | .transcript, [path] => .ok (.transcript common path (r.text "dir") (r.switch "json"))
    | .transcript, operands => .error (.wrongCount 1 operands.length)
    | .help, _ | .completion, _ => .ok .help
    | c, operand :: _ => .error (.unexpected c operand)

/-- **What a command line asks for.** -/
def Request.read (e : Environment) (args : List Bytes) : Except UsageFault Request :=
  match findCommand args with
  | .error fault => .error fault
  | .ok (c, args) =>
    match Flag.parse c.allFlags {} args with
    | .error fault => .error (.flag fault)
    | .ok r => requestOf e c r

end ReplBridge.Program
