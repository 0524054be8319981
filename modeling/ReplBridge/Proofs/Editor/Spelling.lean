import ReplBridge.Proofs.Document.Uri
import ReplBridge.Proofs.Editor.Failure

/-!
**A document is cleared under the address it was opened with.**

The editor chooses how it spells the address of a document; the compiler names the file by its path,
which is given the address that the server itself would write.  What the compiler reports is kept
under the second, and closing or validating the document clears the first.  They are the same if and
only if the editor spells as the server does.  If it does not, an error that was reported once stays
on the screen when it is fixed, and even when the document is closed.

Main results:

* `Server.get_start_didClose`, `Server.get_conclude_clean` — what closing a document and a
  validation without complaints leave of what is published;
* `Server.cleared_iff_well_spelled` — **what was reported for a path is cleared under an address of
  it exactly if the address is spelled well**;
* `Server.fixed_error_stays` — an error that was fixed and is still published.
-/

set_option autoImplicit false

namespace ReplBridge.Editor.Server

theorem get_start_didClose {s : Server} {r : Request} {uri : Bytes}
    (hmethod : Method.ofName r.method = .didClose) (huri : documentOf .didClose r = some uri)
    (doc : Bytes) :
    (s.start r).store.get doc =
      if doc = Uri.normalize s.options.cwd uri then [] else s.store.get doc := by
  simp only [start, hmethod, huri, publish_eq_tells, reply_eq_tells, tells]
  exact Document.lookup_erase _ doc s.store.entries

/-- A validation without complaints clears the document that was validated, and no other. -/
theorem get_conclude_clean {s : Server} {text : Bytes}
    (hclean : Analysis.publications
      (Analysis.validation s.options.cwd (Repl.classify text)) = [])
    (id : Option Id) (uri doc : Bytes) :
    (s.conclude (.validation id uri) (.ok text)).store.get doc =
      if doc = Uri.normalize s.options.cwd uri then [] else s.store.get doc := by
  rw [(conclude_validation s id uri text).1, hclean, Document.Store.get_apply]
  simp [Document.named, Document.collected]

/-- **What was reported for a path is cleared under an address of it exactly if the address is
spelled well.**  Take any server, any path that starts at the root, is clean and does not look like
one with a drive letter, and any address of this file, in whatever spelling and without host, query
and fragment.  The address is read as the path.  The path and the address name one document if and
only if every escape in the spelling is needed and in capitals, and nothing that needs one is
without it.  In this case closing the document under the address, and a validation of it without
complaints, clear what is published for the path; in any other they leave it as it is. -/
theorem cleared_iff_well_spelled (s : Server) {path spelling : Bytes}
    (haddress : Uri.Locates path spelling) (hpath : Path.Proper path) :
    let cwd := s.options.cwd
    let uri := Uri.fileScheme ++ spelling
    let key := Uri.normalize cwd path
    Uri.toPath uri = path ∧
    (key = Uri.normalize cwd uri ↔ Uri.isWellSpelled spelling = true) ∧
    (∀ r, Method.ofName r.method = .didClose → documentOf .didClose r = some uri →
      (s.start r).store.get key =
        if Uri.isWellSpelled spelling then [] else s.store.get key) ∧
    ∀ id text, Analysis.publications (Analysis.validation cwd (Repl.classify text)) = [] →
      (s.conclude (.validation id uri) (.ok text)).store.get key =
        if Uri.isWellSpelled spelling then [] else s.store.get key := by
  intro cwd uri key
  have hkey : key = Uri.normalize cwd uri ↔ Uri.isWellSpelled spelling = true :=
    Uri.normalize_eq_iff haddress hpath cwd
  refine ⟨Uri.toPath_of_locates haddress hpath, hkey, ?_, ?_⟩
  · intro r hmethod huri
    rw [get_start_didClose hmethod huri]
    exact if_congr hkey rfl rfl
  · intro id text hclean
    rw [get_conclude_clean hclean]
    exact if_congr hkey rfl rfl

/-- It happens: an address spells a blank as the server does, and its document is closed. -/
theorem cleared_when_closed :
    let path := utf8 "/w/a b.carp"
    let spelling := utf8 "/w/a%20b.carp"
    let key := Uri.normalize (utf8 "/") path
    let s : Server := { store := ⟨[(key, [{ message := utf8 "m" }])]⟩ }
    let closed : Request :=
      { method := utf8 "textDocument/didClose"
        params := some (.object [(utf8 "textDocument",
          .object [(utf8 "uri", .string (Uri.fileScheme ++ spelling))])]) }
    Uri.Locates path spelling ∧ Path.Proper path ∧ s.store.documents = [key] ∧
      (s.start closed).store.get key = [] := by
  intro path spelling key s closed
  have haddress : Uri.Locates path spelling := by decide +kernel
  have hpath : Path.Proper path := by decide +kernel
  refine ⟨haddress, hpath, rfl, ?_⟩
  rw [(cleared_iff_well_spelled s haddress hpath).2.2.1 closed (by decide +kernel)
    (by decide +kernel)]
  exact if_pos (by decide +kernel)

/-- **An error that was fixed is still published.**  The editor spells a plus sign as an escape, and
the compiler reports an error under the path of the document.  The path and the address name two
documents.  When the document is validated without complaints, and when it is closed, the error is
published all the same. -/
theorem fixed_error_stays :
    let path := utf8 "/w/a+b.carp"
    let spelling := utf8 "/w/a%2Bb.carp"
    let uri := Uri.fileScheme ++ spelling
    let about (method : String) : Event :=
      .request
        { method := utf8 method
          params := some (.object [(utf8 "textDocument", .object [(utf8 "uri", .string uri)])]) }
    let s := run {}
      [about "textDocument/didOpen", .answered (.ok (utf8 "[ERROR]\n/w/a+b.carp:3:1 m")),
        about "textDocument/didSave", .answered (.ok []), about "textDocument/didClose"]
    Uri.Locates path spelling ∧ Path.Proper path ∧ Uri.toPath uri = path ∧
      Uri.normalize (utf8 "/") path ≠ Uri.normalize (utf8 "/") uri ∧
      s.task = none ∧ s.store.documents = [Uri.normalize (utf8 "/") path] := by
  intro path spelling uri about s
  exact ⟨by decide +kernel, by decide +kernel, by decide +kernel, by decide +kernel,
    by decide +kernel, by decide +kernel⟩

end ReplBridge.Editor.Server
