import ReplBridge.Protocol.Location

/-!
**Diagnostics and their publication.**

A diagnostic is something to say about a range of a document; a publication is all there is to say
about one document.
-/

set_option autoImplicit false

namespace ReplBridge.Protocol

open Json (Reads)

/-- Another place that a diagnostic refers to. -/
structure Related where
  location : Location := {}
  /-- What is said about it. -/
  message : Bytes := []
  deriving Repr, Inhabited

namespace Related

def json (r : Related) : Json :=
  Json.record [("location", r.location.json), ("message", Json.text r.message)]

def read : Reads Related :=
  Reads.record {}
    [("location", Reads.part (fun r v => { r with location := v }) Location.read),
      ("message", Reads.part (fun r v => { r with message := v }) Reads.text)]

end Related

/-- Something to say about a range of a document. -/
structure Diagnostic where
  range : Range := {}
  /-- How bad it is: 1 for an error. -/
  severity : Double := {}
  /-- A code of any shape. -/
  code : Option Json := none
  /-- Where the code is explained. -/
  codeHref : Option Bytes := none
  source : Bytes := []
  message : Bytes := []
  tags : Option (List Double) := none
  /-- Other places it refers to. -/
  related : Option (List Related) := none
  /-- Data of any shape. -/
  data : Option Json := none
  deriving Repr, Inhabited

namespace Diagnostic

/-- An object that holds a reference. -/
def hrefJson (href : Bytes) : Json := Json.record [("href", Json.text href)]

def json (d : Diagnostic) : Json :=
  Json.record
    ([("range", d.range.json)]
      ++ numberMember "severity" d.severity
      ++ optionMember "code" d.code
      ++ optionMember "codeDescription" (d.codeHref.map hrefJson)
      ++ textMember "source" d.source
      ++ [("message", Json.text d.message)]
      ++ listMember "tags" Json.ofDouble d.tags
      ++ listMember "relatedInformation" Related.json d.related
      ++ optionMember "data" d.data)

def read : Reads Diagnostic :=
  Reads.record {}
    [("range", Reads.part (fun d v => { d with range := v }) Range.read),
      ("severity", Reads.part (fun d v => { d with severity := v }) Reads.double),
      ("code", Reads.part (fun d v => { d with code := v }) Reads.free),
      ("codeDescription", Reads.part (fun d v => { d with codeHref := v })
        (Reads.optional (Reads.record [] [("href", Reads.part (fun _ v => v) Reads.text)]))),
      ("source", Reads.part (fun d v => { d with source := v }) Reads.text),
      ("message", Reads.part (fun d v => { d with message := v }) Reads.text),
      ("tags", Reads.part (fun d v => { d with tags := v })
        (Reads.list Reads.double)),
      ("relatedInformation", Reads.part (fun d v => { d with related := v })
        (Reads.list Related.read)),
      ("data", Reads.part (fun d v => { d with data := v }) Reads.free)]

end Diagnostic

/-- All there is to say about a document. -/
structure Publication where
  uri : Bytes := []
  version : UInt32 := 0
  /-- What is said about it. -/
  diagnostics : Option (List Diagnostic) := none
  deriving Repr, Inhabited

namespace Publication

/-- The diagnostics of a publication; none if the list is absent. -/
def items (p : Publication) : List Diagnostic := p.diagnostics.getD []

def json (p : Publication) : Json :=
  Json.record
    ([("uri", Json.text p.uri)]
      ++ (if p.version = 0 then [] else [("version", Json.nat p.version.toNat)])
      ++ [("diagnostics", listOrNull Diagnostic.json p.diagnostics)])

def read : Reads Publication :=
  Reads.record {}
    [("uri", Reads.part (fun p v => { p with uri := v }) Reads.text),
      ("version", Reads.part (fun p v => { p with version := v }) Reads.uint32),
      ("diagnostics", Reads.part (fun p v => { p with diagnostics := v })
        (Reads.list Diagnostic.read))]

end Publication

end ReplBridge.Protocol
