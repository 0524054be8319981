import ReplBridge.Disk
import ReplBridge.Yaml.Decode

/-!
**Why there is no configuration.**

Main definitions:

* `Config.Fault`, `Config.Fault.message` — the causes and their wording.
-/

set_option autoImplicit false

namespace ReplBridge.Config

/-- Why a configuration could not be read, written or used.  A text that is `unreadable` is no YAML,
and one with a `misfit` does not have the form of a configuration. -/
inductive Fault where
  | pathRequired
  | absent
  | homeUnknown
  | disk (fault : Disk.Fault)
  | unreadable (fault : Yaml.Fault)
  | misfit (complaints : List Yaml.Complaint)
  | profileNotFound (name : Bytes)
  | profileDir (name : Bytes) (cause : Fault)
  | negativeTimeout
  deriving DecidableEq, Repr

/-- **The wording of a cause.** -/
def Fault.message : Fault → Bytes
  | .pathRequired => utf8 "config path is required"
  | .absent => utf8 "config is nil"
  | .homeUnknown => utf8 "$HOME is not defined"
  | .disk fault => fault.message
  | .unreadable fault => utf8 "parse config: " ++ fault.message
  | .misfit complaints =>
    utf8 "parse config: yaml: unmarshal errors:" ++
      complaints.flatMap fun c => utf8 "\n  " ++ c.message
  | .profileNotFound name => utf8 "profile not found: " ++ name
  | .profileDir name cause => utf8 "profile " ++ name ++ utf8 " dir: " ++ cause.message
  | .negativeTimeout => utf8 "command timeout must not be negative"

end ReplBridge.Config
