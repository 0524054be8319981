import ReplBridge.Program.Command
import ReplBridge.Program.Executable

/-!
**What may explain trouble.**

The report says which program is running, what the environment says, where the configuration is, and
for every profile how it would start the compiler.
-/

set_option autoImplicit false

namespace ReplBridge.Program.Doctor

/-- A line of the report. -/
def entry (key : String) (value : Bytes) : Bytes := utf8 key ++ [0x3D] ++ value ++ [0x0A]

/-- A truth value. -/
def flag (b : Bool) : Bytes := utf8 (if b then "true" else "false")

/-- Texts in quotes between brackets. -/
def quotedList (texts : List Bytes) : Bytes :=
  [0x5B] ++ Bytes.join [0x20] (texts.map Quoted.quote) ++ [0x5D]

/-- Where the program is found by its name, if at all. -/
def onPath (e : Environment) (d : Disk) : Bytes :=
  match Executable.find e d programName with
  | .ok path => Blank.trim path
  | .error (.relative _ path) => Blank.trim path
  | .error _ => []

/-- Whether two paths lead to different files. -/
def differ (d : Disk) (a b : Bytes) : Bool :=
  match d.locate a, d.locate b with
  | .ok x, .ok y => (d.find? x).isSome && (d.find? y).isSome && x != y
  | _, _ => false

/-- What is said when the program that runs is not the one that is found by its name. -/
def otherProgram : Bytes :=
  utf8 ("warning=you_are_not_running_the_same_carp-lsp_as_on_PATH "
    ++ "(editors usually launch the one on PATH)\n")

/-- Which program is running, and which one is found by its name. -/
def programs (e : Environment) (d : Disk) (executable : Bytes) : Bytes :=
  let executable := Blank.trim executable
  let look := onPath e d
  entry "carp_lsp_executable" executable ++ entry "carp_lsp_version" version
    ++ if look.isEmpty then []
      else entry "carp_lsp_on_path" look
        ++ if differ d executable look then otherProgram else []

def environmentLines (e : Environment) : Bytes :=
  let compiler := Blank.trim (e.get "CARP_LSP_EXECUTABLE")
  entry "PATH" (e.get "PATH")
    ++ if compiler.isEmpty then [] else entry "CARP_LSP_EXECUTABLE" compiler

/-- Where the configuration is looked for. -/
def configPath (e : Environment) (c : Common) : Bytes :=
  let named := Blank.trim (e.get "CARP_LSP_CONFIG")
  if !Blank.isBlank c.configPath then c.configPath
  else if !named.isEmpty then named
  else e.defaultPath

/-- The argument that stands for the sentinel. -/
def sentinelMark : Bytes := utf8 "<sentinel>"

/-- How a profile would start the compiler. -/
def profile (e : Environment) (d : Disk) (path : Bytes) (config : Option Config) (name : Bytes) :
    Bytes :=
  match Settings.ofConfig e config { configPath := path, profileName := name } with
  | .error fault => utf8 "profile=" ++ name ++ utf8 " error=" ++ fault.message ++ [0x0A]
  | .ok s =>
    let launch := s.profile.launch
    let found := match Executable.find e d launch.executable with
      | .ok path => path
      | .error _ => utf8 "missing"
    utf8 "profile=" ++ name ++ utf8 " executable=" ++ launch.executable
      ++ utf8 " resolved=" ++ found
      ++ utf8 " argv=" ++ quotedList (launch.argv sentinelMark)
      ++ utf8 " pty=" ++ flag launch.terminal
      ++ utf8 " command_timeout=" ++ s.commandTimeout.text ++ [0x0A]

/-- The configuration and its profiles. -/
def configuration (e : Environment) (d : Disk) (path : Bytes) : Bytes :=
  entry "config_path" path ++
    match Config.load e d path with
    | .error fault => entry "config_error" fault.message
    | .ok config =>
      entry "config_present" (flag config.isSome)
        ++ (match config with
          | some c => entry "current_profile" (Blank.trim c.currentProfile)
          | none => [])
        ++ (Config.names config).flatMap (profile e d path config)

/-- **The report.** -/
def report (e : Environment) (d : Disk) (executable : Bytes) (c : Common) : Bytes :=
  programs e d executable ++ environmentLines e ++ configuration e d (configPath e c)

end ReplBridge.Program.Doctor
