import ReplBridge.Document.Uri
import ReplBridge.Protocol.Diagnostic

/-!
**The diagnostics last published for each document.**

The store keeps, for every document that has diagnostics, the list last published for it, and tells
after every change what the editor has to be sent.  Documents are kept in the order of their
addresses, and none is kept with an empty list.
-/

set_option autoImplicit false

namespace ReplBridge.Document

open Protocol (Diagnostic Publication)

/-- The documents that have diagnostics, by address, each with its list. -/
structure Store where
  /-- The entries, in the order of their addresses. -/
  entries : List (Bytes × List Diagnostic) := []
  deriving Repr

/-- The list of a document among entries. -/
def lookup (doc : Bytes) : List (Bytes × List Diagnostic) → List Diagnostic
  | [] => []
  | (d, items) :: rest => if d == doc then items else lookup doc rest

/-- Entries without a document. -/
def erase (doc : Bytes) (entries : List (Bytes × List Diagnostic)) :
    List (Bytes × List Diagnostic) :=
  entries.filter fun (d, _) => d != doc

/-- Entries with a document put in its place. -/
def put (doc : Bytes) (items : List Diagnostic) :
    List (Bytes × List Diagnostic) → List (Bytes × List Diagnostic)
  | [] => [(doc, items)]
  | (d, old) :: rest =>
    if d == doc then (doc, items) :: rest
    else if doc < d then (doc, items) :: (d, old) :: rest
    else (d, old) :: put doc items rest

/-- Diagnostics added to those of a document among pairs in order of first occurrence. -/
def gather (doc : Bytes) (items : List Diagnostic) :
    List (Bytes × List Diagnostic) → List (Bytes × List Diagnostic)
  | [] => [(doc, items)]
  | (d, before) :: rest =>
    if d == doc then (d, before ++ items) :: rest else (d, before) :: gather doc items rest

/-- **Publications brought together by document**, in order of first occurrence.  The documents in
`always` take part even if nothing is published for them. -/
def merge (cwd : Bytes) (pubs : List Publication) (always : List Bytes) :
    List (Bytes × List Diagnostic) :=
  always.foldl (fun acc doc => gather doc [] acc)
    (pubs.foldl (fun acc pub => gather (Uri.normalize cwd pub.uri) pub.items acc) [])

namespace Store

/-- What is published for a document. -/
def get (s : Store) (doc : Bytes) : List Diagnostic := lookup doc s.entries

/-- The documents that have diagnostics, in the order of their addresses. -/
def documents (s : Store) : List Bytes := s.entries.map (·.1)

/-- Replaces what is published for a document; an empty list removes it. -/
def replace (s : Store) (doc : Bytes) (items : List Diagnostic) : Store :=
  if items.isEmpty then ⟨erase doc s.entries⟩ else ⟨put doc items s.entries⟩

/-- The publication the editor is sent for a document. -/
def publication (doc : Bytes) (items : List Diagnostic) : Publication :=
  { uri := doc, diagnostics := some items }

/-- **Replaces what is published** for every document that `pubs` or `always` names, and gives what
the editor is sent. -/
def apply (s : Store) (cwd : Bytes) (pubs : List Publication) (always : List Bytes) :
    Store × List Publication :=
  let merged := merge cwd pubs always
  (merged.foldl (fun s (doc, items) => s.replace doc items) s,
    merged.map fun (doc, items) => publication doc items)

/-- Forgets a document, and gives what the editor is sent. -/
def clear (s : Store) (doc : Bytes) : Store × Publication :=
  (⟨erase doc s.entries⟩, publication doc [])

end Store

end ReplBridge.Document
