import ReplBridge.Analysis.Launch
import ReplBridge.Config.Fault
import ReplBridge.Text.Blank

/-!
**Profiles.**

A profile says how to start the compiler and how to treat it.  A configuration holds profiles by
their names and says which of them is current.  Two profiles are known without any configuration,
and one of the same name in a configuration stands in their place.
-/

set_option autoImplicit false

namespace ReplBridge

/-- How to start the compiler and how to treat it. -/
structure Profile where
  executable : Bytes := []
  /-- The arguments before the prompt flag. -/
  args : Option (List Bytes) := none
  promptFlag : Bytes := []
  /-- The arguments after the sentinel. -/
  extraArgs : Option (List Bytes) := none
  /-- The directory it is started in. -/
  dir : Bytes := []
  /-- What is added to its environment. -/
  env : Option (List (Bytes × Bytes)) := none
  /-- Whether it runs on a terminal of its own. -/
  terminal : Bool := false
  /-- How long a command may take, in seconds. -/
  commandTimeoutSeconds : Int := 0
  /-- How long it may take to quit, in seconds. -/
  exitGraceSeconds : Int := 0
  /-- Where what is said is written down. -/
  transcript : Bytes := []
  /-- Where the state can be asked for. -/
  healthAddr : Bytes := []
  deriving DecidableEq, Repr

/-- Profiles by their names; a name may stand for none. -/
structure Config where
  /-- The name of the profile that is used unless another is named. -/
  currentProfile : Bytes := []
  profiles : List (Bytes × Option Profile) := []
  deriving DecidableEq, Repr

namespace Profile

/-- The profile that starts the compiler in a given way. -/
def ofLaunch (l : Analysis.Launch) : Profile where
  executable := l.executable
  args := some l.args
  promptFlag := l.promptFlag
  extraArgs := some l.extraArgs
  dir := l.dir
  env := l.env
  terminal := l.terminal

/-- How a profile starts the compiler. -/
def launch (p : Profile) : Analysis.Launch where
  executable := p.executable
  args := p.args.getD []
  promptFlag := p.promptFlag
  extraArgs := p.extraArgs.getD []
  dir := p.dir
  env := p.env
  terminal := p.terminal

/-- The name that is used when none is given. -/
def defaultName : Bytes := utf8 "default"

/-- The profiles that are known without a configuration.  The program of the first is left open, so
that the environment can name it. -/
def builtin : List (Bytes × Profile) :=
  [(defaultName, { promptFlag := Analysis.defaultPromptFlag }),
    (utf8 "dev", ofLaunch .development)]

end Profile

namespace Config

/-- The name that is meant: the one given, or the current one, or the default. -/
def profileName (config : Option Config) (given : Bytes) : Bytes :=
  let given := Blank.trim given
  let current := (config.map Config.currentProfile).getD []
  if !given.isEmpty then given else if !current.isEmpty then current else Profile.defaultName

/-- The profile of a configuration with a name. -/
def profile? (config : Option Config) (name : Bytes) : Option Profile :=
  ((config.map Config.profiles).getD []).lookup name |>.join

/-- The profile that a name stands for. -/
def find? (config : Option Config) (name : Bytes) : Option Profile :=
  (profile? config name).or (Profile.builtin.lookup name)

/-- **The profile that a name stands for**, and the name it is known by. -/
def resolve (config : Option Config) (given : Bytes) : Bytes × Except Fault Profile :=
  let name := profileName config given
  match find? config name with
  | some p => (name, .ok p)
  | none => (name, .error (.profileNotFound name))

/-- Without the texts that stand before themselves. -/
def distinct : List Bytes → List Bytes
  | [] => []
  | a :: rest => a :: (distinct rest).filter (· != a)

/-- **The names that stand for a profile**, in the order of their bytes. -/
def names (config : Option Config) : List Bytes :=
  let own := ((config.map Config.profiles).getD []).map Prod.fst
  Bytes.sort (distinct (Profile.builtin.map Prod.fst ++ own))

end Config

end ReplBridge
