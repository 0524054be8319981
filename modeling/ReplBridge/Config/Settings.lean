import ReplBridge.Config.Environment
import ReplBridge.Config.Reader
import ReplBridge.Text.Duration

/-!
**The settings of a session.**

What the command line says comes first, then the selected profile, then the environment, then the
defaults.
-/

set_option autoImplicit false

namespace ReplBridge

/-- **The configuration at a path**, if there is one; a blank path names none. -/
def Config.load (e : Environment) (disk : Disk) (path : Bytes) :
    Except Config.Fault (Option Config) := do
  let path := Blank.trim path
  if path.isEmpty then return none
  else
    let full ← e.expand path
    match disk.read full with
    | .ok content => return some (← Config.read content)
    | .error fault =>
      if fault.cause = .missing then return none else .error (.disk fault)

/-- What the command line says; empty, zero and false say nothing. -/
structure Overrides where
  /-- Where the configuration is. -/
  configPath : Bytes := []
  profileName : Bytes := []
  executable : Bytes := []
  /-- Whether it runs on a terminal of its own. -/
  terminal : Bool := false
  /-- How long a command may take. -/
  commandTimeout : Duration := 0
  /-- Where what is said is written down. -/
  transcript : Bytes := []
  /-- Where the state can be asked for. -/
  healthAddr : Bytes := []
  deriving Repr

/-- All that a session has to know. -/
structure Settings where
  /-- Where the configuration is. -/
  configPath : Bytes := []
  profileName : Bytes
  config : Option Config
  /-- The profile, with everything that starts the compiler filled in. -/
  profile : Profile
  /-- How long a command may take; zero is without end. -/
  commandTimeout : Duration
  /-- How long the compiler may take to quit. -/
  exitGrace : Duration
  /-- Where what is said is written down. -/
  transcript : Bytes
  /-- Where the state can be asked for. -/
  healthAddr : Bytes
  deriving Repr

namespace Settings

/-- The first of two texts that is not blank, without space around it. -/
def firstNonBlank (a b : Bytes) : Bytes :=
  let a := Blank.trim a
  if a.isEmpty then Blank.trim b else a

def firstNonEmpty (texts : List Bytes) : Bytes := (texts.find? (!·.isEmpty)).getD []

/-- A number of seconds as a duration of 64 bits. -/
def seconds (n : Int) : Duration := Decimal.wrap64 (Duration.ofSeconds n)

/-- The time the compiler has to quit unless the profile says otherwise. -/
def defaultGrace : Duration := Duration.ofSeconds 3

/-- How a profile starts the compiler, with everything filled in. -/
def filled (e : Environment) (o : Overrides) (p : Profile) : Profile :=
  { p with
    executable := firstNonEmpty [o.executable, p.executable,
      Blank.trim (e.get "CARP_LSP_EXECUTABLE"), Analysis.defaultExecutable]
    promptFlag := firstNonEmpty [p.promptFlag, Analysis.defaultPromptFlag]
    terminal := p.terminal || o.terminal }

def directory (e : Environment) (name dir : Bytes) : Except Config.Fault Bytes :=
  if dir.isEmpty then .ok []
  else match e.expand dir with
    | .ok dir => .ok dir
    | .error cause => .error (.profileDir name cause)

/-- How long a command may take. -/
def timeout (o : Overrides) (p : Profile) : Duration :=
  if o.commandTimeout = 0 && 0 < p.commandTimeoutSeconds then seconds p.commandTimeoutSeconds
  else o.commandTimeout

/-- How long the compiler may take to quit. -/
def grace (p : Profile) : Duration :=
  if 0 < p.exitGraceSeconds then seconds p.exitGraceSeconds else defaultGrace

/-- The settings for what the command line says and a configuration that was read. -/
def ofConfig (e : Environment) (config : Option Config) (o : Overrides) :
    Except Config.Fault Settings := do
  let (name, found) := Config.resolve config o.profileName
  let p ← found
  let dir ← directory e name p.dir
  if timeout o p < 0 then .error .negativeTimeout
  else
    return {
      configPath := o.configPath
      profileName := name
      config
      profile := { filled e o p with dir }
      commandTimeout := timeout o p
      exitGrace := grace p
      transcript := firstNonBlank o.transcript p.transcript
      healthAddr := firstNonBlank o.healthAddr p.healthAddr }

/-- **The settings for what the command line says.** -/
def resolve (e : Environment) (disk : Disk) (o : Overrides) : Except Config.Fault Settings := do
  let config ← if o.configPath.isEmpty then pure none else Config.load e disk o.configPath
  ofConfig e config o

end Settings

end ReplBridge
