import ReplBridge.Config.Profile

/-!
**Reading a configuration.**

A configuration is a mapping with the name of the current profile and with the profiles; a profile
is a mapping too.  Keys that mean nothing are passed over.
-/

set_option autoImplicit false

namespace ReplBridge

open Yaml (Context Decode Entries Node)

/-- Puts a pair into a table, in place of one with the same key. -/
def putPair {α : Type} (key : Bytes) (value : α) : List (Bytes × α) → List (Bytes × α)
  | [] => [(key, value)]
  | (k, v) :: rest => if k == key then (key, value) :: rest else (k, v) :: putPair key value rest

namespace Profile

/-- How the pairs of an environment are read.  Null is the empty text; one that is taken over leaves a
name as it is that is there. -/
def envEntries : Entries (List (Bytes × Bytes)) where
  into := utf8 "map[string]string"
  isField _ := false
  put c takenOver name n table := do
    match ← Yaml.text c n with
    | some value => return putPair name value table
    | none =>
      return if takenOver && (table.lookup name).isSome then table else putPair name [] table

/-- Reads an environment, which null makes absent. -/
def readEnv (c : Context) (n : Node) : Decode (Option (Option (List (Bytes × Bytes)))) := do
  let (c, n) ← c.follow n
  match n with
  | .mapping _ pairs => return some (some (← Yaml.entries envEntries c pairs []))
  | .scalar head isPlain text =>
    if ← Yaml.isNull head isPlain text then return some none
    else
      Yaml.mismatch envEntries.into n
      return none
  | _ =>
    Yaml.mismatch envEntries.into n
    return none

def fieldNames : List Bytes :=
  ["executable", "args", "promptFlag", "extraArgs", "dir", "env", "pty", "commandTimeoutSeconds",
    "exitGraceSeconds", "transcript", "healthAddr"].map utf8

def putField (c : Context) (_ : Bool) (name : Bytes) (n : Node) (p : Profile) :
    Decode Profile := do
  if name == utf8 "executable" then
    return { p with executable := (← Yaml.text c n).getD p.executable }
  else if name == utf8 "args" then
    return { p with args := (← Yaml.texts c n).getD p.args }
  else if name == utf8 "promptFlag" then
    return { p with promptFlag := (← Yaml.text c n).getD p.promptFlag }
  else if name == utf8 "extraArgs" then
    return { p with extraArgs := (← Yaml.texts c n).getD p.extraArgs }
  else if name == utf8 "dir" then
    return { p with dir := (← Yaml.text c n).getD p.dir }
  else if name == utf8 "env" then
    return { p with env := (← readEnv c n).getD p.env }
  else if name == utf8 "pty" then
    return { p with terminal := (← Yaml.flag c n).getD p.terminal }
  else if name == utf8 "commandTimeoutSeconds" then
    return { p with commandTimeoutSeconds := (← Yaml.integer c n).getD p.commandTimeoutSeconds }
  else if name == utf8 "exitGraceSeconds" then
    return { p with exitGraceSeconds := (← Yaml.integer c n).getD p.exitGraceSeconds }
  else if name == utf8 "transcript" then
    return { p with transcript := (← Yaml.text c n).getD p.transcript }
  else if name == utf8 "healthAddr" then
    return { p with healthAddr := (← Yaml.text c n).getD p.healthAddr }
  else return p

/-- How the pairs of a profile are read. -/
def entries : Entries Profile where
  into := utf8 "config.Profile"
  isField := fieldNames.contains
  put := putField

/-- Reads a profile, or that there is none; `none` if it does not fit.  A collection that is marked as
null is neither. -/
def readOptional (c : Context) (n : Node) : Decode (Option (Option Profile)) := do
  let (c, n) ← c.follow n
  if n.isMarkedNull then
    Yaml.mismatch (utf8 "*" ++ entries.into) n
    return none
  else
    match n with
    | .mapping _ pairs => return some (some (← Yaml.entries entries c pairs {}))
    | .scalar head isPlain text =>
      if ← Yaml.isNull head isPlain text then return some none
      else
        Yaml.mismatch entries.into n
        return none
    | _ =>
      Yaml.mismatch entries.into n
      return none

end Profile

namespace Config

def profileEntries : Entries (List (Bytes × Option Profile)) where
  into := utf8 "map[string]*config.Profile"
  isField _ := false
  put c _ name n table := do
    match ← Profile.readOptional c n with
    | some p => return putPair name p table
    | none => return table

def readProfiles (c : Context) (n : Node) : Decode (List (Bytes × Option Profile)) := do
  let (c, n) ← c.follow n
  match n with
  | .mapping _ pairs => Yaml.entries profileEntries c pairs []
  | .scalar head isPlain text =>
    if ← Yaml.isNull head isPlain text then return []
    else
      Yaml.mismatch profileEntries.into n
      return []
  | _ =>
    Yaml.mismatch profileEntries.into n
    return []

def putField (c : Context) (_ : Bool) (name : Bytes) (n : Node) (config : Config) :
    Decode Config := do
  if name == utf8 "currentProfile" then
    return { config with currentProfile := (← Yaml.text c n).getD config.currentProfile }
  else if name == utf8 "profiles" then
    return { config with profiles := ← readProfiles c n }
  else return config

/-- How the pairs of a configuration are read. -/
def entries : Entries Config where
  into := utf8 "config.Config"
  isField name := name == utf8 "currentProfile" || name == utf8 "profiles"
  put := putField

/-- Reads a configuration from the root of a tree. -/
def ofNode (root : Node) : Decode Config := do
  let (c, n) ← (Context.ofRoot root).follow root
  match n with
  | .mapping _ pairs => Yaml.entries entries c pairs {}
  | .scalar head isPlain text =>
    if ← Yaml.isNull head isPlain text then return {}
    else
      Yaml.mismatch entries.into n
      return {}
  | _ =>
    Yaml.mismatch entries.into n
    return {}

/-- **Reads a configuration.** -/
def read (s : Bytes) : Except Fault Config :=
  match Yaml.document s with
  | .error fault => .error (.unreadable fault)
  | .ok none => .ok {}
  | .ok (some root) =>
    match (ofNode root).run {} with
    | .error fault => .error (.unreadable fault)
    | .ok (config, account) =>
      if account.complaints.isEmpty then .ok config else .error (.misfit account.complaints)

end Config

end ReplBridge
