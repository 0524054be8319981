import ReplBridge.Config.Environment
import ReplBridge.Config.Profile
import ReplBridge.Text.Natural
import ReplBridge.Yaml.Writer

/-!
**Writing a configuration.**

The fields of a profile are written in a fixed order, but for those that are empty; tables are
written in the natural order of their keys.
-/

set_option autoImplicit false

namespace ReplBridge

/-- The pairs of a table in the natural order of their keys. -/
def sortPairs {α : Type} (pairs : List (Bytes × α)) : List (Bytes × α) :=
  (Natural.sort (pairs.map Prod.fst)).filterMap fun key =>
    (pairs.lookup key).map fun value => (key, value)

namespace Profile

def textField (name : String) (s : Bytes) : List (Bytes × Yaml.Tree) :=
  if s.isEmpty then [] else [(utf8 name, .text s)]

def listField (name : String) (items : Option (List Bytes)) : List (Bytes × Yaml.Tree) :=
  let items := items.getD []
  if items.isEmpty then [] else [(utf8 name, .list items)]

def numberField (name : String) (n : Int) : List (Bytes × Yaml.Tree) :=
  if n = 0 then [] else [(utf8 name, .word (Decimal.ofInt n))]

def tableField (name : String) (table : Option (List (Bytes × Bytes))) :
    List (Bytes × Yaml.Tree) :=
  let table := table.getD []
  if table.isEmpty then []
  else [(utf8 name, .table ((sortPairs table).map fun (k, v) => (k, .text v)))]

def tree (p : Profile) : Yaml.Tree :=
  .table (textField "executable" p.executable ++ listField "args" p.args
    ++ textField "promptFlag" p.promptFlag ++ listField "extraArgs" p.extraArgs
    ++ textField "dir" p.dir ++ tableField "env" p.env
    ++ (if p.terminal then [(utf8 "pty", .word (utf8 "true"))] else [])
    ++ numberField "commandTimeoutSeconds" p.commandTimeoutSeconds
    ++ numberField "exitGraceSeconds" p.exitGraceSeconds
    ++ textField "transcript" p.transcript ++ textField "healthAddr" p.healthAddr)

end Profile

namespace Config

/-- What is written for a profile, or for none. -/
def profileTree : Option Profile → Yaml.Tree
  | some p => p.tree
  | none => .word (utf8 "null")

/-- **The text of a configuration.** -/
def text (config : Config) : Bytes :=
  Yaml.writeTable [(utf8 "currentProfile", .text config.currentProfile),
    (utf8 "profiles", .table ((sortPairs config.profiles).map fun (k, p) => (k, profileTree p)))]

/-- **Writes a configuration to a path**, and makes the directories that lead there. -/
def save (e : Environment) (disk : Disk) (config : Option Config) (path : Bytes) :
    Except Fault Disk := do
  if Blank.isBlank path then .error .pathRequired
  else
    let full ← e.expand path
    match config with
    | none => .error .absent
    | some config =>
      match disk.makeDirs (Path.parent full) with
      | .error fault => .error (.disk fault)
      | .ok disk =>
        match disk.write full config.text with
        | .error fault => .error (.disk fault)
        | .ok disk => .ok disk

end Config

end ReplBridge
