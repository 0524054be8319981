import Std.Data.HashMap
import ReplBridge.Text.Base64
import ReplBridge.Text.Quoted
import ReplBridge.Yaml.Node
import ReplBridge.Yaml.Value

/-!
**Reading data out of a YAML tree.**

A tree is read by the type that is wanted.  What does not fit is noted as a complaint and reading
goes on, so that all of them can be told at once; some faults end it at once.  Null fits
everywhere: a list or a table becomes absent by it, and other things stay as they are.

A mapping may take over the pairs of other mappings.  Its own keys come first, then those of the
mappings in order, and a key that was there already is passed over.

Main definitions:

* `Yaml.Complaint`, `Yaml.Complaint.message` — what does not fit;
* `Yaml.Decode` — reading with complaints; a fault ends it;
* `Yaml.text`, `Yaml.integer`, `Yaml.flag`, `Yaml.texts` — reading the simple types;
* `Yaml.entries` — reading a mapping pair by pair.
-/

set_option autoImplicit false

namespace ReplBridge.Yaml

/-! ### Complaints -/

/-- Something that does not fit: a value of another type, a key that stands in its mapping before,
or a field that was set before. -/
inductive Complaint where
  | mismatch (line : Nat) (tag value into : Bytes)
  | repeatedKey (line : Nat) (key : Bytes) (first : Nat)
  | repeatedField (line : Nat) (name into : Bytes)
  deriving DecidableEq, Repr

def sequenceTag : Bytes := utf8 "!!seq"

def mappingTag : Bytes := utf8 "!!map"

/-- The tag of the key that takes over other mappings. -/
def mergeTag : Bytes := utf8 "!!merge"

/-- The mark around the value in a complaint. -/
def backquote : UInt8 := 0x60

/-- A value between its marks. -/
def shown (value : Bytes) : Bytes := utf8 " " ++ backquote :: value ++ [backquote]

/-- A value as a complaint shows it: a long one is cut off. -/
def shownShort (value : Bytes) : Bytes :=
  shown (if 10 < value.length then value.take 7 ++ utf8 "..." else value)

/-- **The text of a complaint.** -/
def Complaint.message : Complaint → Bytes
  | .mismatch line tag value into =>
    let value := if tag == sequenceTag || tag == mappingTag then value else shownShort value
    utf8 "line " ++ Decimal.ofNat line ++ utf8 ": cannot unmarshal " ++ tag ++ value
      ++ utf8 " into " ++ into
  | .repeatedKey line key first =>
    utf8 "line " ++ Decimal.ofNat line ++ utf8 ": mapping key " ++ Quoted.quote key
      ++ utf8 " already defined at line " ++ Decimal.ofNat first
  | .repeatedField line name into =>
    utf8 "line " ++ Decimal.ofNat line ++ utf8 ": field " ++ name
      ++ utf8 " already set in type " ++ into

/-- What is noted while a tree is read. -/
structure Account where
  complaints : List Complaint := []
  /-- How many nodes were read; the document is the first. -/
  visits : Nat := 1
  /-- How many of them were read behind an alias. -/
  aliased : Nat := 0
  deriving Repr

/-- **Whether too many of the nodes were read behind aliases.**  Of up to 400000 nodes it may be 99 in
a hundred; from there on it becomes fewer, down to ten in a hundred of 4000000. -/
def Account.isExcessive (a : Account) : Bool :=
  let (share, whole) :=
    if a.visits ≤ 400000 then (99, 100)
    else if 4000000 ≤ a.visits then (10, 100)
    else (99 * 3600000 - 89 * (a.visits - 400000), 100 * 3600000)
  decide (100 < a.aliased) && decide (1000 < a.visits) && decide (a.visits * share < a.aliased * whole)

/-- Reading with complaints; a fault ends it. -/
abbrev Decode (α : Type) := StateT Account (Except Fault) α

def complainAll (cs : List Complaint) : Decode Unit :=
  modify fun a => { a with complaints := a.complaints ++ cs }

def complain (c : Complaint) : Decode Unit := complainAll [c]

/-- Ends reading. -/
def stop {α : Type} (problem : Bytes) : Decode α := fun _ => .error { problem }

/-- Notes that a node is read. -/
def visit (behindAlias : Bool) : Decode Unit := do
  let a ← get
  let a := { a with
    visits := a.visits + 1
    aliased := if behindAlias then a.aliased + 1 else a.aliased }
  if a.isExcessive then stop (utf8 "document contains excessive aliasing") else set a

/-! ### Scalars -/

/-- A scalar: what it means, its tag, and its text. -/
structure Scalar where
  value : Value
  tag : Bytes
  text : Bytes
  deriving Repr

/-- The tags whose values have to look like it. -/
def checkedTags : List Bytes :=
  ["!!bool", "!!int", "!!float", "!!null", "!!timestamp"].map utf8

/-- A whole number as one with a fraction. -/
def realOf (n : Int) : Real :=
  match Double.ofRatio? (n < 0) n.natAbs 1 with
  | some x => .finite x
  | none => .nan

/-- What a scalar with a checked tag means. -/
def checked (tag text : Bytes) : Except Fault Value :=
  let value := Value.ofPlain (tag == utf8 "!!timestamp") text
  let contradiction : Fault :=
    { problem := utf8 "cannot decode " ++ value.tag ++ shown text ++ utf8 " as a " ++ tag }
  if value.tag == tag then .ok value
  else match value with
    | .int n =>
      if tag == utf8 "!!float" && Decimal.fits 64 n then .ok (.real (realOf n))
      else .error contradiction
    | _ => .error contradiction

/-- **What a scalar is**, unless its tag and its text contradict each other. -/
def scalarOf (head : Head) (isPlain : Bool) (text : Bytes) : Except Fault Scalar :=
  if head.tag.isEmpty then
    if !isPlain then .ok ⟨.text, utf8 "!!str", text⟩
    else if text == utf8 "<<" then .ok ⟨.text, mergeTag, text⟩
    else
      let value := Value.ofPlain true text
      .ok ⟨value, value.tag, text⟩
  else if checkedTags.contains head.tag then
    (checked head.tag text).map fun value => ⟨value, head.tag, text⟩
  else if head.tag == utf8 "!!binary" then
    match Base64.decode? text with
    | some bytes => .ok ⟨.text, head.tag, bytes⟩
    | none => .error { problem := utf8 "!!binary value contains invalid base64 data" }
  else .ok ⟨.text, head.tag, text⟩

/-- Whether a key takes over other mappings. -/
def isMerge : Node → Bool
  | .scalar head isPlain text =>
    text == utf8 "<<" && ((head.tag.isEmpty && isPlain) || head.tag == mergeTag)
  | _ => false

/-! ### Aliases -/

/-- Where reading is: in a tree, behind some aliases. -/
structure Context where
  /-- The nodes that aliases stand for. -/
  anchors : Std.HashMap Nat Node
  /-- The number of nodes of the tree. -/
  size : Nat
  /-- The aliases that led here. -/
  active : List Nat := []

def Context.ofRoot (root : Node) : Context :=
  { anchors := .ofList root.anchored, size := root.size }

/-- What a node stands for, which is read then; an alias must not lead to itself. -/
def Context.follow (c : Context) (n : Node) : Decode (Context × Node) := do
  visit !c.active.isEmpty
  match n with
  | .alias _ name number anchor =>
    let unusable := utf8 "anchor '" ++ name ++ utf8 "' value contains itself"
    if c.active.contains number then stop unusable
    else match c.anchors[anchor]? with
      | some n =>
        visit true
        return ({ c with active := number :: c.active }, n)
      | none => stop unusable
  | n => return (c, n)

/-! ### Mappings -/

/-- What of a key is compared with other keys: its kind and its text. -/
def keyShape : Node → Nat × Bytes
  | .scalar _ _ text => (0, text)
  | .sequence _ _ => (1, [])
  | .mapping _ _ => (2, [])
  | .alias _ name _ _ => (3, name)

/-- The complaints about keys that stand in a mapping twice. -/
def repeatedKeys : List (Node × Node) → List Complaint
  | [] => []
  | (key, _) :: rest =>
    (rest.filter fun other => keyShape other.1 == keyShape key).map (fun other =>
      .repeatedKey other.1.line (keyShape other.1).2 key.line) ++ repeatedKeys rest

/-- Complains about keys that stand in a mapping twice; says whether there are any. -/
def checkKeys (pairs : List (Node × Node)) : Decode Bool := do
  let complaints := repeatedKeys pairs
  complainAll complaints
  return !complaints.isEmpty

/-- The tag a sequence or mapping is shown with. -/
def Head.shownTag (head : Head) (default : Bytes) : Bytes :=
  if head.tag.isEmpty then default else head.tag

/-- Complains that a node is not of a type. -/
def mismatch (into : Bytes) : Node → Decode Unit
  | .scalar head isPlain text => do
    let s ← scalarOf head isPlain text
    complain (.mismatch head.line s.tag text into)
  | .sequence head _ =>
    complain (.mismatch head.line (head.shownTag sequenceTag) [] into)
  | .mapping head pairs => do
    let repeated ← checkKeys pairs
    if !repeated then complain (.mismatch head.line (head.shownTag mappingTag) [] into)
  | .alias _ _ _ _ => pure ()

/-! ### Simple types -/

/-- Reads a scalar; `none` if it is null, or does not fit. -/
def simple {α : Type} (into : Bytes) (take : Scalar → Option α) (c : Context) (n : Node) :
    Decode (Option α) := do
  let (_, n) ← c.follow n
  match n with
  | .scalar head isPlain text =>
    let s ← scalarOf head isPlain text
    if s.value = .null then return none
    else match take s with
      | some a => return some a
      | none =>
        mismatch into n
        return none
  | _ =>
    mismatch into n
    return none

/-- **Reads a text**: every scalar is one. -/
def text : Context → Node → Decode (Option Bytes) :=
  simple (utf8 "string") fun s => some s.text

/-- The whole part of a number; what is out of range becomes the least number. -/
def truncate (x : Double) : Int :=
  let n := if 0 ≤ x.exponent then x.mantissa * Decimal.twoTo x.exponent.toNat
    else x.mantissa / Decimal.twoTo (-x.exponent).toNat
  let n : Int := if x.negative then -(n : Int) else n
  if Decimal.fits 64 n then n else -(Decimal.twoTo 63 : Int)

/-- The integer that a value gives: a fraction is dropped, and too large a number gives none. -/
def integerOf : Value → Option Int
  | .int n => if n < (Decimal.twoTo 63 : Int) then some n else none
  | .real (.finite x) =>
    let n := if 0 ≤ x.exponent then x.mantissa * Decimal.twoTo x.exponent.toNat else 0
    if !x.negative && decide (Decimal.twoTo 63 < n) then none else some (truncate x)
  | .real (.infinite true) => some (-(Decimal.twoTo 63 : Int))
  | _ => none

/-- **Reads an integer.** -/
def integer : Context → Node → Decode (Option Int) :=
  simple (utf8 "int") fun s => integerOf s.value

/-- The truth value that a scalar gives; some words count as well. -/
def flagOf (s : Scalar) : Option Bool :=
  match s.value with
  | .bool b => some b
  | .text =>
    if ["y", "Y", "yes", "Yes", "YES", "on", "On", "ON"].any (s.text == utf8 ·) then some true
    else if ["n", "N", "no", "No", "NO", "off", "Off", "OFF"].any (s.text == utf8 ·) then some false
    else none
  | _ => none

/-- **Reads a truth value.** -/
def flag : Context → Node → Decode (Option Bool) := simple (utf8 "bool") flagOf

def isNull (head : Head) (isPlain : Bool) (text : Bytes) : Except Fault Bool := do
  return (← scalarOf head isPlain text).value = .null

/-- Reads items one after the other, and leaves out those that are null. -/
def textItems (c : Context) : List Node → Decode (List Bytes)
  | [] => return []
  | item :: rest => do
    let first ← text c item
    let others ← textItems c rest
    return first.toList ++ others

/-- **Reads a list of texts**, which null makes absent. -/
def texts (c : Context) (n : Node) : Decode (Option (Option (List Bytes))) := do
  let (c, n) ← c.follow n
  match n with
  | .sequence _ items => return some (some (← textItems c items))
  | .scalar head isPlain text =>
    if ← isNull head isPlain text then return some none
    else
      mismatch (utf8 "[]string") n
      return none
  | _ =>
    mismatch (utf8 "[]string") n
    return none

/-! ### Reading pair by pair -/

/-- How the pairs of a mapping are read into a value. -/
structure Entries (σ : Type) where
  /-- The type, as complaints name it. -/
  into : Bytes
  /-- The names that may be set only once. -/
  isField : Bytes → Bool
  /-- Reads one pair; the flag says whether it is taken over from another mapping. -/
  put : Context → Bool → Bytes → Node → σ → Decode σ

/-- The name of a key that is a text. -/
def textKey (c : Context) (key : Node) : Decode (Option Bytes) := do
  match ← c.follow key with
  | (_, .scalar head isPlain text) =>
    let s ← scalarOf head isPlain text
    return if s.value = .text then some s.text else none
  | _ => return none

/-- The names of the keys that are texts. -/
def textKeys (c : Context) (pairs : List (Node × Node)) : Decode (List Bytes) := do
  return (← pairs.mapM fun pair => textKey c pair.1).reduceOption

/-- The progress of reading a mapping. -/
structure Progress (σ : Type) where
  value : σ
  /-- The names that are taken, while another mapping is taken over. -/
  taken : Option (List Bytes) := none

/-- Reads pairs one after the other, but those that take over other mappings. -/
def putPairs {σ : Type} (e : Entries σ) (c : Context) :
    List Bytes → List (Node × Node) → Progress σ → Decode (Progress σ)
  | _, [], p => return p
  | set, (key, value) :: rest, p => do
    if isMerge key then putPairs e c set rest p
    else
      match ← text c key with
      | none => putPairs e c set rest p
      | some name =>
        if (p.taken.getD []).contains name then putPairs e c set rest p
        else
          let p := { p with taken := p.taken.map (name :: ·) }
          if e.isField name && set.contains name then
            complain (.repeatedField key.line name e.into)
            putPairs e c set rest p
          else
            let v ← e.put c p.taken.isSome name value p.value
            putPairs e c (name :: set) rest { p with value := v }

/-- The nodes that a mapping takes over, by what is said of them. -/
def sources : Node → List Node
  | .sequence _ items => items
  | n => [n]

/-- That something else than a mapping is taken over. -/
def wantsMapping : Bytes := utf8 "map merge requires map or sequence of maps as the value"

/-- Whether a node is a mapping, or stands for one. -/
def Context.isMapping (c : Context) : Node → Bool
  | .mapping _ _ => true
  | .alias _ _ _ anchor =>
    match c.anchors[anchor]? with
    | some (.mapping _ _) => true
    | _ => false
  | _ => false

/-- The mapping that a node stands for, with its place. -/
def Context.mapping (c : Context) (n : Node) : Decode (Context × List (Node × Node)) := do
  if !c.isMapping n then stop wantsMapping
  else
    match ← c.follow n with
    | (c, .mapping _ pairs) => return (c, pairs)
    | _ => stop wantsMapping

/-- Reads the pairs of a mapping, and then what it takes over. -/
def entriesWithin {σ : Type} (e : Entries σ) :
    Nat → Context → List (Node × Node) → Progress σ → Decode (Progress σ)
  | 0, _, _, _ => stop wantsMapping
  | fuel + 1, c, pairs, p => do
    if ← checkKeys pairs then return p
    else
      let outer := p.taken
      let p ← putPairs e c [] pairs p
      match (pairs.filter fun pair => isMerge pair.1).getLast? with
      | none => return p
      | some (_, source) =>
        let taken ← match p.taken with
          | some names => pure names
          | none => textKeys c pairs
        let p ← (sources source).foldlM (fun p n => do
          let (c, pairs) ← c.mapping n
          entriesWithin e fuel c pairs p) { p with taken := some taken }
        return { p with taken := outer.bind fun _ => p.taken }

/-- **Reads a mapping pair by pair** into a value. -/
def entries {σ : Type} (e : Entries σ) (c : Context) (pairs : List (Node × Node)) (start : σ) :
    Decode σ := do
  let n := c.size + 1
  let p ← entriesWithin e (n * n) c pairs { value := start }
  return p.value

end ReplBridge.Yaml
