import ReplBridge.Config.Fault

/-!
**Where a configuration is looked for.**

The environment may name the configuration, or the directory it is in, or the home directory that
directory is in.  A path may begin with a tilde for the home directory.
-/

set_option autoImplicit false

namespace ReplBridge

/-- The variables of the environment, and the working directory. -/
structure Environment where
  bindings : List (Bytes × Bytes) := []
  /-- The working directory. -/
  cwd : Bytes := utf8 "/"
  deriving Repr

namespace Environment

/-- The value of a variable; empty if there is none. -/
def get (e : Environment) (name : String) : Bytes := (e.bindings.lookup (utf8 name)).getD []

def home (e : Environment) : Except Config.Fault Bytes :=
  let home := e.get "HOME"
  if home.isEmpty then .error .homeUnknown else .ok home

/-- **The directory of the configuration.** -/
def defaultDir (e : Environment) : Bytes :=
  let named := e.get "CARP_LSP_HOME"
  if !named.isEmpty then named
  else match e.home with
    | .ok home => Path.join home (utf8 ".carp-lsp")
    | .error _ => utf8 "."

/-- **The path of the configuration.** -/
def defaultPath (e : Environment) : Bytes :=
  let named := e.get "CARP_LSP_CONFIG"
  if !named.isEmpty then named else Path.join e.defaultDir (utf8 "config.yaml")

/-- **The full path for a path.**  One that begins with a slash stays as it is. -/
def expand (e : Environment) (path : Bytes) : Except Config.Fault Bytes :=
  match Bytes.after? (utf8 "~/") path with
  | some rest => e.home.map fun home => Path.join home rest
  | none =>
    if path == utf8 "~" then e.home
    else if Path.isRooted path then .ok path
    else .ok (Path.join e.cwd path)

end Environment

end ReplBridge
