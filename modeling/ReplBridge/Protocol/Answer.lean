import ReplBridge.Protocol.Diagnostic

/-!
**What the compiler answers about a place in a document.**

Main definitions:

* `Protocol.Hover` — a description of what stands at a place;
* `Protocol.SymbolInformation` — a name that a document defines;
* `Protocol.CompletionItem`, `Protocol.CompletionList` — what may be written at a place.
-/

set_option autoImplicit false

namespace ReplBridge.Protocol

open Json (Reads)

/-! ### Descriptions -/

/-- A description of what stands at a place. -/
structure Hover where
  /-- The markup language of the description. -/
  kind : Bytes := []
  value : Bytes := []
  range : Option Range := none
  deriving Repr, Inhabited

namespace Hover

def json (h : Hover) : Json :=
  Json.record
    ([("contents", Json.record [("kind", Json.text h.kind), ("value", Json.text h.value)])]
      ++ optionMember "range" (h.range.map Range.json))

/-- Reads the contents of a description. -/
def readContents : Reads (Hover → Hover) :=
  Reads.fields
    [("kind", Reads.part (fun h v => { h with kind := v }) Reads.text),
      ("value", Reads.part (fun h v => { h with value := v }) Reads.text)]

def read : Reads Hover :=
  Reads.record {}
    [("contents", readContents),
      ("range", Reads.part (fun h v => { h with range := v })
        (Reads.optional Range.read))]

end Hover

/-! ### Symbols -/

/-- A name that a document defines. -/
structure SymbolInformation where
  name : Bytes := []
  /-- What kind of thing it names. -/
  kind : Double := {}
  tags : Option (List Double) := none
  /-- Whether it should no longer be used. -/
  deprecated : Bool := false
  /-- Where it is defined. -/
  location : Location := {}
  containerName : Bytes := []
  deriving Repr, Inhabited

namespace SymbolInformation

def json (s : SymbolInformation) : Json :=
  Json.record
    ([("name", Json.text s.name), ("kind", Json.ofDouble s.kind)]
      ++ listMember "tags" Json.ofDouble s.tags
      ++ boolMember "deprecated" s.deprecated
      ++ [("location", s.location.json)]
      ++ textMember "containerName" s.containerName)

def read : Reads SymbolInformation :=
  Reads.record {}
    [("name", Reads.part (fun s v => { s with name := v }) Reads.text),
      ("kind", Reads.part (fun s v => { s with kind := v }) Reads.double),
      ("tags", Reads.part (fun s v => { s with tags := v })
        (Reads.list Reads.double)),
      ("deprecated", Reads.part (fun s v => { s with deprecated := v }) Reads.bool),
      ("location", Reads.part (fun s v => { s with location := v }) Location.read),
      ("containerName", Reads.part (fun s v => { s with containerName := v })
        Reads.text)]

end SymbolInformation

/-! ### Completion -/

/-- A change of a document. -/
structure TextEdit where
  range : Range := {}
  newText : Bytes := []
  deriving Repr, Inhabited

namespace TextEdit

def json (e : TextEdit) : Json :=
  Json.record [("range", e.range.json), ("newText", Json.text e.newText)]

def read : Reads TextEdit :=
  Reads.record {}
    [("range", Reads.part (fun e v => { e with range := v }) Range.read),
      ("newText", Reads.part (fun e v => { e with newText := v }) Reads.text)]

end TextEdit

/-- Something the editor can be asked to do. -/
structure EditorCommand where
  title : Bytes := []
  command : Bytes := []
  /-- Its arguments, of any shape. -/
  arguments : Option (List (Option Json)) := none
  deriving Repr, Inhabited

namespace EditorCommand

def json (c : EditorCommand) : Json :=
  Json.record
    ([("title", Json.text c.title), ("command", Json.text c.command)]
      ++ listMember "arguments" (·.getD .null) c.arguments)

def read : Reads EditorCommand :=
  Reads.record {}
    [("title", Reads.part (fun c v => { c with title := v }) Reads.text),
      ("command", Reads.part (fun c v => { c with command := v }) Reads.text),
      ("arguments", Reads.part (fun c v => { c with arguments := v })
        (Reads.list Reads.free))]

end EditorCommand

/-- Something that may be written at a place. -/
structure CompletionItem where
  /-- Changes elsewhere in the document. -/
  additionalTextEdits : Option (List TextEdit) := none
  /-- What to do after it was inserted. -/
  command : Option EditorCommand := none
  commitCharacters : Option (List Bytes) := none
  tags : Option (List Double) := none
  /-- Data of any shape. -/
  data : Option Json := none
  /-- Whether it should no longer be used. -/
  deprecated : Bool := false
  /-- More about it. -/
  detail : Bytes := []
  /-- Its documentation, of any shape. -/
  documentation : Option Json := none
  filterText : Bytes := []
  insertText : Bytes := []
  insertTextFormat : Double := {}
  insertTextMode : Double := {}
  kind : Double := {}
  label : Bytes := []
  /-- Whether it is chosen at first. -/
  preselect : Bool := false
  sortText : Bytes := []
  /-- The change that inserts it. -/
  textEdit : Option TextEdit := none
  deriving Repr, Inhabited

namespace CompletionItem

def json (c : CompletionItem) : Json :=
  Json.record
    (listMember "additionalTextEdits" TextEdit.json c.additionalTextEdits
      ++ optionMember "command" (c.command.map EditorCommand.json)
      ++ listMember "commitCharacters" Json.text c.commitCharacters
      ++ listMember "tags" Json.ofDouble c.tags
      ++ optionMember "data" c.data
      ++ boolMember "deprecated" c.deprecated
      ++ textMember "detail" c.detail
      ++ optionMember "documentation" c.documentation
      ++ textMember "filterText" c.filterText
      ++ textMember "insertText" c.insertText
      ++ numberMember "insertTextFormat" c.insertTextFormat
      ++ numberMember "insertTextMode" c.insertTextMode
      ++ numberMember "kind" c.kind
      ++ [("label", Json.text c.label)]
      ++ boolMember "preselect" c.preselect
      ++ textMember "sortText" c.sortText
      ++ optionMember "textEdit" (c.textEdit.map TextEdit.json))

def read : Reads CompletionItem :=
  Reads.record {}
    [("additionalTextEdits",
        Reads.part (fun c v => { c with additionalTextEdits := v })
          (Reads.list TextEdit.read)),
      ("command", Reads.part (fun c v => { c with command := v })
        (Reads.optional EditorCommand.read)),
      ("commitCharacters",
        Reads.part (fun c v => { c with commitCharacters := v })
          (Reads.list Reads.text)),
      ("tags", Reads.part (fun c v => { c with tags := v })
        (Reads.list Reads.double)),
      ("data", Reads.part (fun c v => { c with data := v }) Reads.free),
      ("deprecated", Reads.part (fun c v => { c with deprecated := v }) Reads.bool),
      ("detail", Reads.part (fun c v => { c with detail := v }) Reads.text),
      ("documentation", Reads.part (fun c v => { c with documentation := v })
        Reads.free),
      ("filterText", Reads.part (fun c v => { c with filterText := v }) Reads.text),
      ("insertText", Reads.part (fun c v => { c with insertText := v }) Reads.text),
      ("insertTextFormat",
        Reads.part (fun c v => { c with insertTextFormat := v })
          Reads.double),
      ("insertTextMode",
        Reads.part (fun c v => { c with insertTextMode := v }) Reads.double),
      ("kind", Reads.part (fun c v => { c with kind := v }) Reads.double),
      ("label", Reads.part (fun c v => { c with label := v }) Reads.text),
      ("preselect", Reads.part (fun c v => { c with preselect := v }) Reads.bool),
      ("sortText", Reads.part (fun c v => { c with sortText := v }) Reads.text),
      ("textEdit", Reads.part (fun c v => { c with textEdit := v })
        (Reads.optional TextEdit.read))]

end CompletionItem

/-- A list of what may be written at a place. -/
structure CompletionList where
  /-- Whether more may come. -/
  isIncomplete : Bool := false
  items : Option (List CompletionItem) := none
  deriving Repr, Inhabited

def CompletionList.read : Reads CompletionList :=
  Reads.record {}
    [("isIncomplete", Reads.part (fun l v => { l with isIncomplete := v })
        Reads.bool),
      ("items", Reads.part (fun l v => { l with items := v })
        (Reads.list CompletionItem.read))]

end ReplBridge.Protocol
