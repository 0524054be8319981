import ReplBridge.Yaml.Token

/-!
**The tree of a YAML document.**

A node is a scalar, a sequence, a mapping or an alias.  It knows the line it begins on, its tag, and
the number of its anchor; an alias gives the number of the anchor that had its name at that place,
so that a name may be used again later on.

Only the first document of a text is read.  What stands behind it need not even be YAML.

Main definitions:

* `Yaml.Node` — the tree, with `Node.anchored` for what aliases stand for;
* `Yaml.Parse` — the tokens that remain, and the anchors so far;
* `Yaml.node` — reading a tree;
* `Yaml.document` — the tree of a text.
-/

set_option autoImplicit false

namespace ReplBridge.Yaml

/-- What every node has. -/
structure Head where
  /-- The line, from one. -/
  line : Nat
  /-- The tag that was written, in its short form; empty if there is none. -/
  tag : Bytes := []
  anchor : Option Nat := none
  deriving DecidableEq, Repr

/-- A tree.  A scalar is plain or not, a mapping has its pairs in order, and every alias has a
number of its own. -/
inductive Node where
  | scalar (head : Head) (isPlain : Bool) (text : Bytes)
  | sequence (head : Head) (items : List Node)
  | mapping (head : Head) (pairs : List (Node × Node))
  | alias (line : Nat) (name : Bytes) (number anchor : Nat)
  deriving Repr

namespace Node

def line : Node → Nat
  | .scalar head _ _ | .sequence head _ | .mapping head _ => head.line
  | .alias line _ _ _ => line

mutual

/-- The nodes of a tree that have an anchor, with the numbers of their anchors, before others. -/
def anchoredOnto (found : List (Nat × Node)) : Node → List (Nat × Node)
  | .scalar head isPlain text =>
    head.anchor.toList.map (fun k => (k, .scalar head isPlain text)) ++ found
  | .sequence head items =>
    head.anchor.toList.map (fun k => (k, .sequence head items)) ++ anchoredItems found items
  | .mapping head pairs =>
    head.anchor.toList.map (fun k => (k, .mapping head pairs)) ++ anchoredPairs found pairs
  | .alias _ _ _ _ => found
termination_by structural n => n

/-- The nodes of some items that have an anchor, before others. -/
def anchoredItems (found : List (Nat × Node)) : List Node → List (Nat × Node)
  | [] => found
  | item :: rest => anchoredItems (anchoredOnto found item) rest
termination_by structural items => items

/-- The nodes of some pairs that have an anchor, before others. -/
def anchoredPairs (found : List (Nat × Node)) : List (Node × Node) → List (Nat × Node)
  | [] => found
  | (key, value) :: rest => anchoredPairs (anchoredOnto (anchoredOnto found key) value) rest
termination_by structural pairs => pairs

end

/-- **The nodes of a tree that have an anchor**, with the numbers of their anchors. -/
def anchored (n : Node) : List (Nat × Node) := anchoredOnto [] n

mutual

/-- The number of nodes of a tree. -/
def size : Node → Nat
  | .scalar _ _ _ | .alias _ _ _ _ => 1
  | .sequence _ items => 1 + itemsSize items
  | .mapping _ pairs => 1 + pairsSize pairs
termination_by structural n => n

/-- The number of nodes of some trees. -/
def itemsSize : List Node → Nat
  | [] => 0
  | item :: rest => size item + itemsSize rest
termination_by structural items => items

/-- The number of nodes of some pairs. -/
def pairsSize : List (Node × Node) → Nat
  | [] => 0
  | (key, value) :: rest => size key + size value + pairsSize rest
termination_by structural pairs => pairs

end

/-- Whether a node is a collection with the tag of null. -/
def isMarkedNull : Node → Bool
  | .sequence head _ | .mapping head _ => head.tag == utf8 "!!null"
  | _ => false

/-- A null that is not written. -/
def absent (line : Nat) : Node := .scalar { line := line + 1 } true []

end Node

/-! ### Reading tokens -/

/-- The tokens that remain, the fault that stands behind them, and the anchors so far. -/
structure Parse where
  tokens : List Placed
  /-- The fault behind the tokens. -/
  fault : Fault
  /-- The names of the anchors with their numbers, the latest first. -/
  names : List (List Char × Nat) := []
  /-- How many anchors and aliases there are. -/
  count : Nat := 0
  deriving Repr

namespace Parse

/-- The token that comes next. -/
def peek (p : Parse) : Except Fault Placed :=
  match p.tokens with
  | next :: _ => .ok next
  | [] => .error p.fault

/-- Moves over a token. -/
def skip (p : Parse) : Parse := { p with tokens := p.tokens.tail }

/-- Whether a token comes next. -/
def sees (p : Parse) (t : Token) : Bool := (p.tokens.head?.map Placed.token) == some t

/-- Whether one of some tokens comes next. -/
def seesAny (p : Parse) (ts : List Token) : Bool := ts.any p.sees

/-- The line of the token that comes next. -/
def line (p : Parse) : Nat := (p.tokens.head?.map Placed.line).getD 0

/-- A new anchor. -/
def define (p : Parse) (name : List Char) : Parse :=
  { p with names := (name, p.count) :: p.names, count := p.count + 1 }

/-- A fault at the next token, in what begins on a line. -/
def fail {α : Type} (p : Parse) (around : Nat) (problem : String) : Except Fault α :=
  .error (.inTokens around p.line problem)

end Parse

/-- Shorthands for tags. -/
abbrev Handles := List (List Char × Bytes)

/-- What the tags of the standard types begin with. -/
def standardTag : Bytes := utf8 "tag:yaml.org,2002:"

/-- The shorthands that hold everywhere. -/
def defaultHandles : Handles := [(['!'], utf8 "!"), (['!', '!'], standardTag)]

def shortTag (tag : Bytes) : Bytes :=
  match Bytes.after? standardTag tag with
  | some rest => utf8 "!!" ++ rest
  | none => tag

/-- What stands before the content of a node. -/
structure Properties where
  anchor : Option (List Char) := none
  tag : Option (List Char × Bytes) := none
  tagLine : Nat := 0
  deriving Repr

def readAnchor (q : Properties) (p : Parse) : Properties × Parse :=
  match p.tokens with
  | ⟨.anchor name, _⟩ :: _ => ({ q with anchor := some name }, p.skip)
  | _ => (q, p)

def readTag (q : Properties) (p : Parse) : Properties × Parse :=
  match p.tokens with
  | ⟨.tag handle suffix, line⟩ :: _ =>
    ({ q with tag := some (handle, suffix), tagLine := line }, p.skip)
  | _ => (q, p)

/-- Reads an anchor and a tag, in any order. -/
def properties (p : Parse) : Properties × Parse :=
  match p.tokens with
  | ⟨.anchor _, _⟩ :: _ => let (q, p) := readAnchor {} p; readTag q p
  | _ => let (q, p) := readTag {} p; readAnchor q p

/-- The whole of a tag; its shorthand has to be known. -/
def fullTag? (handles : Handles) : Option (List Char × Bytes) → Option Bytes
  | none => some []
  | some ([], suffix) => some suffix
  | some (handle, suffix) => (handles.lookup handle).map (· ++ suffix)

/-- The tag of a node for its full tag; a lone exclamation mark says nothing. -/
def nodeTag (tag : Bytes) : Bytes := if tag == utf8 "!" then [] else shortTag tag

/-- What a tree may begin with. -/
structure Place where
  /-- Whether indented collections may stand here. -/
  block : Bool
  /-- Whether the items of a sequence may stand here without indentation. -/
  bareItems : Bool
  deriving Repr

/-- A node that has an anchor or a tag and nothing else. -/
def emptyNode (head : Head) (tag : Bytes) (p : Parse) : Except Fault (Node × Parse) :=
  if head.anchor.isSome || !tag.isEmpty then .ok (.scalar head true [], p)
  else p.fail (head.line - 1) "did not find expected node content"

/-- That there are more tokens than steps. -/
def exhausted {α : Type} (p : Parse) : Except Fault α := .error p.fault

mutual

def node (handles : Handles) (place : Place) : Nat → Parse → Except Fault (Node × Parse)
  | 0, p => exhausted p
  | fuel + 1, p => do
    let first ← p.peek
    match first.token with
    | .alias name =>
      match p.names.lookup name with
      | some k =>
        return (.alias (first.line + 1) (Utf8.ofChars name) p.count k,
          { p.skip with count := p.count + 1 })
      | none =>
        .error { problem := utf8 "unknown anchor '" ++ Utf8.ofChars name ++ utf8 "' referenced" }
    | _ =>
      let (q, p) := properties p
      let next ← p.peek
      match fullTag? handles q.tag with
      | none => .error (.inTokens first.line q.tagLine "found undefined tag handle")
      | some tag =>
        let head : Head :=
          { line := first.line + 1, tag := nodeTag tag, anchor := q.anchor.map fun _ => p.count }
        let inner := match q.anchor with
          | some name => p.define name
          | none => p
        match next.token with
        | .scalar isPlain text => return (.scalar head isPlain (Utf8.ofChars text), inner.skip)
        | .flowSequence =>
          let (items, p) ← flowItems handles next.line true fuel inner.skip
          return (.sequence head items, p)
        | .flowMapping =>
          let (pairs, p) ← flowPairs handles next.line true fuel inner.skip
          return (.mapping head pairs, p)
        | .blockEntry =>
          if place.bareItems then
            let (items, p) ← bareItems handles fuel inner
            return (.sequence head items, p)
          else emptyNode head tag inner
        | .blockSequence =>
          if place.block then
            let (items, p) ← blockItems handles next.line fuel inner.skip
            return (.sequence head items, p)
          else emptyNode head tag inner
        | .blockMapping =>
          if place.block then
            let (pairs, p) ← blockPairs handles next.line fuel inner.skip
            return (.mapping head pairs, p)
          else emptyNode head tag inner
        | _ => emptyNode head tag inner
termination_by structural fuel => fuel

/-- Reads a node, or takes it for absent if one of some tokens comes next. -/
def nodeUnless (handles : Handles) (place : Place) (stops : List Token) (line : Nat) :
    Nat → Parse → Except Fault (Node × Parse)
  | 0, p => exhausted p
  | fuel + 1, p => do
    let _ ← p.peek
    if p.seesAny stops then return (.absent line, p) else node handles place fuel p
termination_by structural fuel => fuel

/-- Reads the items of an indented sequence that begins on a line. -/
def blockItems (handles : Handles) (start : Nat) : Nat → Parse → Except Fault (List Node × Parse)
  | 0, p => exhausted p
  | fuel + 1, p => do
    let _ ← p.peek
    if p.sees .blockEnd then return ([], p.skip)
    else if p.sees .blockEntry then
      let (item, p) ← nodeUnless handles ⟨true, false⟩ [.blockEntry, .blockEnd] p.line fuel p.skip
      let (items, p) ← blockItems handles start fuel p
      return (item :: items, p)
    else p.fail start "did not find expected '-' indicator"
termination_by structural fuel => fuel

/-- Reads the items of a sequence that is not indented. -/
def bareItems (handles : Handles) : Nat → Parse → Except Fault (List Node × Parse)
  | 0, p => exhausted p
  | fuel + 1, p => do
    let _ ← p.peek
    if p.sees .blockEntry then
      let (item, p) ← nodeUnless handles ⟨true, false⟩ [.blockEntry, .key, .value, .blockEnd]
        p.line fuel p.skip
      let (items, p) ← bareItems handles fuel p
      return (item :: items, p)
    else return ([], p)
termination_by structural fuel => fuel

/-- Reads the value of a key, which is absent if there is no mark of one. -/
def valueUnless (handles : Handles) (place : Place) (stops : List Token) :
    Nat → Parse → Except Fault (Node × Parse)
  | 0, p => exhausted p
  | fuel + 1, p => do
    let next ← p.peek
    if p.sees .value then nodeUnless handles place stops next.line fuel p.skip
    else return (.absent next.line, p)
termination_by structural fuel => fuel

/-- Reads the pairs of an indented mapping that begins on a line. -/
def blockPairs (handles : Handles) (start : Nat) :
    Nat → Parse → Except Fault (List (Node × Node) × Parse)
  | 0, p => exhausted p
  | fuel + 1, p => do
    let stops := [Token.key, .value, .blockEnd]
    let _ ← p.peek
    if p.sees .blockEnd then return ([], p.skip)
    else if p.sees .key then
      let (key, p) ← nodeUnless handles ⟨true, true⟩ stops p.line fuel p.skip
      let (value, p) ← valueUnless handles ⟨true, true⟩ stops fuel p
      let (pairs, p) ← blockPairs handles start fuel p
      return ((key, value) :: pairs, p)
    else p.fail start "did not find expected key"
termination_by structural fuel => fuel

/-- Reads the items of a sequence in brackets that begins on a line. -/
def flowItems (handles : Handles) (start : Nat) (atStart : Bool) :
    Nat → Parse → Except Fault (List Node × Parse)
  | 0, p => exhausted p
  | fuel + 1, p => do
    let _ ← p.peek
    if p.sees .flowSequenceEnd then return ([], p.skip)
    else
      let p ← if atStart then pure p else if p.sees .flowEntry then pure p.skip
        else p.fail start "did not find expected ',' or ']'"
      let _ ← p.peek
      if p.sees .flowSequenceEnd then return ([], p.skip)
      else if p.sees .key then
        let (pair, q) ← flowPair handles fuel p.skip
        let (items, q) ← flowItems handles start false fuel q
        return (.mapping { line := p.line + 1 } [pair] :: items, q)
      else
        let (item, p) ← node handles ⟨false, false⟩ fuel p
        let (items, p) ← flowItems handles start false fuel p
        return (item :: items, p)
termination_by structural fuel => fuel

/-- Reads a pair that is an item of its own.  Where its key is missing, the token there is passed
over. -/
def flowPair (handles : Handles) : Nat → Parse → Except Fault ((Node × Node) × Parse)
  | 0, p => exhausted p
  | fuel + 1, p => do
    let _ ← p.peek
    let (key, p) ←
      if p.seesAny [.value, .flowEntry, .flowSequenceEnd] then pure (.absent p.line, p.skip)
      else node handles ⟨false, false⟩ fuel p
    let (value, p) ← valueUnless handles ⟨false, false⟩ [.flowEntry, .flowSequenceEnd] fuel p
    return ((key, value), p)
termination_by structural fuel => fuel

/-- Reads the pairs of a mapping in braces that begins on a line. -/
def flowPairs (handles : Handles) (start : Nat) (atStart : Bool) :
    Nat → Parse → Except Fault (List (Node × Node) × Parse)
  | 0, p => exhausted p
  | fuel + 1, p => do
    let _ ← p.peek
    if p.sees .flowMappingEnd then return ([], p.skip)
    else
      let p ← if atStart then pure p else if p.sees .flowEntry then pure p.skip
        else p.fail start "did not find expected ',' or '\x7d'"
      let _ ← p.peek
      if p.sees .flowMappingEnd then return ([], p.skip)
      else if p.sees .key then
        let p := p.skip
        let (key, p) ← nodeUnless handles ⟨false, false⟩ [.value, .flowEntry, .flowMappingEnd]
          p.line fuel p
        let (value, p) ← valueUnless handles ⟨false, false⟩ [.flowEntry, .flowMappingEnd] fuel p
        let (pairs, p) ← flowPairs handles start false fuel p
        return ((key, value) :: pairs, p)
      else
        let (key, p) ← node handles ⟨false, false⟩ fuel p
        let next ← p.peek
        let (pairs, p) ← flowPairs handles start false fuel p
        return ((key, .absent next.line) :: pairs, p)
termination_by structural fuel => fuel

end

/-! ### Documents -/

/-- Reads the directives before a document: whether there was a version, and the shorthands. -/
def directives : List Placed → Bool → Handles → Except Fault (Handles × List Placed)
  | ⟨.version major minor, line⟩ :: rest, versioned, handles =>
    if versioned then .error (.inTokens 0 line "found duplicate %YAML directive")
    else if major != 1 || minor != 1 then
      .error (.inTokens 0 line "found incompatible YAML document")
    else directives rest true handles
  | ⟨.tagShorthand handle lead, line⟩ :: rest, versioned, handles =>
    if (handles.lookup handle).isSome then
      .error (.inTokens 0 line "found duplicate %TAG directive")
    else directives rest versioned (handles ++ [(handle, lead)])
  | rest, _, handles => .ok (handles ++ defaultHandles, rest)

/-- Whether a token stands between documents. -/
def isBetween : Token → Bool
  | .version _ _ | .tagShorthand _ _ | .documentStart | .documentEnd | .textEnd => true
  | _ => false

/-- Reads a root, after which one more token has to stand. -/
def root (handles : Handles) (p : Parse) : Except Fault Node := do
  let (root, p) ← node handles ⟨true, false⟩ (4 * p.tokens.length + 8) p
  let _ ← p.peek
  return root

/-- Reads the first document from its tokens; `none` if there is none. -/
def documentOf (ts : Tokens) : Except Fault (Option Node) := do
  let p : Parse := { tokens := ts.placed, fault := ts.fault }
  let first ← p.peek
  match first.token with
  | .textEnd => return none
  | .version _ _ | .tagShorthand _ _ | .documentStart =>
    let (handles, rest) ← directives ts.placed false []
    let p := { p with tokens := rest }
    let _ ← p.peek
    if p.sees .documentStart then
      let p := p.skip
      let next ← p.peek
      if isBetween next.token then return some (.absent next.line)
      else return some (← root handles p)
    else p.fail 0 "did not find expected <document start>"
  | _ => return some (← root defaultHandles p)

/-- **Reads the first document of a text**; `none` if there is none. -/
def document (s : Bytes) : Except Fault (Option Node) := documentOf (tokens (.ofBytes s))

end ReplBridge.Yaml
