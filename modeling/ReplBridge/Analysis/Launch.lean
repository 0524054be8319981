import ReplBridge.Text.Bytes

/-!
**How the compiler is started.**

The sentinel is passed to the compiler as its prompt, with a flag in front of it; the profile of
the user says what stands before and after these.
-/

set_option autoImplicit false

namespace ReplBridge.Analysis

/-- How to start the compiler. -/
structure Launch where
  /-- The program; `defaultExecutable` if empty. -/
  executable : Bytes := []
  /-- The arguments before the prompt flag. -/
  args : List Bytes := []
  /-- The flag that sets the prompt; `defaultPromptFlag` if empty. -/
  promptFlag : Bytes := []
  /-- The arguments after the sentinel. -/
  extraArgs : List Bytes := []
  /-- The directory it is started in. -/
  dir : Bytes := []
  /-- What is added to its environment. -/
  env : Option (List (Bytes × Bytes)) := none
  /-- Whether it runs on a terminal of its own. -/
  terminal : Bool := false
  deriving DecidableEq, Repr

/-- The program that is started when none is named. -/
def defaultExecutable : Bytes := utf8 "carp"

/-- The flag that sets the prompt when none is named. -/
def defaultPromptFlag : Bytes := utf8 "--prompt"

namespace Launch

/-- Running the compiler from a checkout beside the working directory. -/
def development : Launch where
  executable := utf8 "stack"
  args := [utf8 "run", utf8 "--"]
  promptFlag := defaultPromptFlag
  extraArgs := [utf8 "-a"]
  dir := utf8 "../carp"

/-- With the defaults in place of what is not named. -/
def withDefaults (l : Launch) : Launch :=
  { l with
    executable := if l.executable.isEmpty then defaultExecutable else l.executable
    promptFlag := if l.promptFlag.isEmpty then defaultPromptFlag else l.promptFlag }

/-- **The arguments the compiler is started with.** -/
def argv (l : Launch) (sentinel : Bytes) : List Bytes :=
  l.args ++ [l.withDefaults.promptFlag, sentinel] ++ l.extraArgs

end Launch

end ReplBridge.Analysis
