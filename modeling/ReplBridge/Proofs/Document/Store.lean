import ReplBridge.Document.Store

/-!
**What an editor shows is what the store holds.**

An editor never asks for diagnostics: it is sent publications, and for each of them puts the list it
carries in the place of what it showed for that document.  The store answers every change with the
publications that the editor needs.  If one were missing, an error that was fixed would stay on the
screen for ever; so the publications must carry every change of the store, deletions included, and
nothing else.

Replacing what is published for a document and receiving its publication are the same update, one of
a list of entries in order and one of a function.  Both sides go through their lists in step,
whatever documents occur twice among them.

Main definitions:

* `Document.Display`, `Document.Display.receiveAll` — what an editor shows, and how publications
  change it;
* `Document.Operation`, `Document.Store.performAll` — the changes of a store, and all that is sent
  in a history of them;
* `Document.Ordered`, `Document.Display.Mirrors` — entries in order, and a display that agrees with
  a store.

Main results:

* `Document.lookup_put`, `Document.lookup_erase`, `Document.ordered_put`, `Document.ordered_erase` —
  what one update does to the entries;
* `Document.Display.Mirrors.perform` — **every change keeps display and store in agreement**;
* `Document.display_mirrors_store` — **the display agrees with the store all along every history**.
-/

set_option autoImplicit false

namespace ReplBridge.Document

open Protocol (Diagnostic Publication)

variable {entries : List (Bytes × List Diagnostic)}

/-! ### Entries -/

theorem lookup_cons (d key : Bytes) (items : List Diagnostic)
    (rest : List (Bytes × List Diagnostic)) :
    lookup d ((key, items) :: rest) = if d = key then items else lookup d rest := by
  simp only [lookup, beq_iff_eq, eq_comm (a := d)]

/-- The list of a document after another, or the same, was put in its place. -/
theorem lookup_put (doc d : Bytes) (items : List Diagnostic)
    (entries : List (Bytes × List Diagnostic)) :
    lookup d (put doc items entries) = if d = doc then items else lookup d entries := by
  induction entries with
  | nil => exact lookup_cons d doc items []
  | cons entry rest ih =>
      obtain ⟨key, old⟩ := entry
      unfold put
      split
      · rename_i hkey
        rw [beq_iff_eq] at hkey
        rw [lookup_cons, lookup_cons, hkey]
        split <;> rfl
      · rename_i hkey
        rw [beq_iff_eq] at hkey
        split
        · rw [lookup_cons]
        · -- The document belongs further behind, and the entry that is passed over is not its own.
          rw [lookup_cons, lookup_cons, ih]
          by_cases h : d = key
          · simp [h, hkey]
          · simp [h]

/-- The list of a document after one, or the same, was taken out. -/
theorem lookup_erase (doc d : Bytes) (entries : List (Bytes × List Diagnostic)) :
    lookup d (erase doc entries) = if d = doc then [] else lookup d entries := by
  induction entries with
  | nil => simp [erase, lookup]
  | cons entry rest ih =>
      obtain ⟨key, old⟩ := entry
      by_cases hkey : key = doc
      · have hstep : erase doc ((key, old) :: rest) = erase doc rest := by simp [erase, hkey]
        rw [hstep, ih, lookup_cons, hkey]
        split <;> rfl
      · have hstep : erase doc ((key, old) :: rest) = (key, old) :: erase doc rest := by
          simp [erase, hkey]
        rw [hstep, lookup_cons, lookup_cons, ih]
        by_cases h : d = key
        · simp [h, hkey]
        · simp [h]

/-- **Entries in order**: the documents rise, so none occurs twice, and none has an empty list. -/
structure Ordered (entries : List (Bytes × List Diagnostic)) : Prop where
  /-- The documents rise, byte by byte. -/
  rising : (entries.map Prod.fst).Pairwise (· < ·)
  /-- No list is empty. -/
  filled : ∀ e ∈ entries, e.2 ≠ []

theorem ordered_nil : Ordered [] := ⟨.nil, by simp⟩

theorem mem_put {doc : Bytes} {items : List Diagnostic} {e : Bytes × List Diagnostic}
    (h : e ∈ put doc items entries) : e = (doc, items) ∨ e ∈ entries := by
  induction entries with
  | nil => simpa [put] using h
  | cons entry rest ih =>
      obtain ⟨key, old⟩ := entry
      unfold put at h
      split at h
      · rcases List.mem_cons.1 h with rfl | h
        · exact .inl rfl
        · exact .inr (List.mem_cons_of_mem _ h)
      · split at h
        · exact List.mem_cons.1 h
        · rcases List.mem_cons.1 h with rfl | h
          · exact .inr List.mem_cons_self
          · exact (ih h).imp id (List.mem_cons_of_mem _)

theorem rising_put {doc : Bytes} (items : List Diagnostic)
    (h : (entries.map Prod.fst).Pairwise (· < ·)) :
    ((put doc items entries).map Prod.fst).Pairwise (· < ·) := by
  induction entries with
  | nil => exact List.pairwise_singleton _ _
  | cons entry rest ih =>
      obtain ⟨key, old⟩ := entry
      obtain ⟨hfirst, hrest⟩ := List.pairwise_cons.1 h
      unfold put
      split
      · rename_i hkey
        rw [beq_iff_eq] at hkey
        exact hkey ▸ h
      · rename_i hkey
        rw [beq_iff_eq] at hkey
        split
        · rename_i hlt
          refine List.pairwise_cons.2 ⟨?_, h⟩
          intro d hd
          rcases List.mem_cons.1 hd with rfl | hd
          · exact hlt
          · exact List.lt_trans hlt (hfirst d hd)
        · rename_i hlt
          refine List.pairwise_cons.2 ⟨?_, ih hrest⟩
          intro d hd
          obtain ⟨e, he, rfl⟩ := List.mem_map.1 hd
          rcases mem_put he with rfl | he
          · exact Std.lt_of_le_of_ne hlt hkey
          · exact hfirst _ (List.mem_map_of_mem he)

theorem ordered_put {doc : Bytes} {items : List Diagnostic} (h : Ordered entries)
    (hitems : items ≠ []) : Ordered (put doc items entries) := by
  refine ⟨rising_put items h.rising, ?_⟩
  intro e he
  rcases mem_put he with rfl | he
  · exact hitems
  · exact h.filled e he

theorem ordered_erase (h : Ordered entries) (doc : Bytes) : Ordered (erase doc entries) := by
  have hsub : (erase doc entries).Sublist entries := List.filter_sublist
  exact ⟨h.rising.sublist (hsub.map _), fun e he => h.filled e (hsub.subset he)⟩

/-- Where no list is empty, the documents are those with something to show. -/
theorem mem_keys_iff (h : ∀ e ∈ entries, e.2 ≠ []) (doc : Bytes) :
    doc ∈ entries.map Prod.fst ↔ lookup doc entries ≠ [] := by
  induction entries with
  | nil => simp [lookup]
  | cons entry rest ih =>
      obtain ⟨key, items⟩ := entry
      have hfirst : items ≠ [] := h (key, items) (by simp)
      have hrest := ih fun e he => h e (by simp [he])
      rw [List.map_cons, List.mem_cons, hrest, lookup_cons]
      by_cases hkey : doc = key
      · simp [hkey, hfirst]
      · simp [hkey]

/-- What is published after one document, or the same, was replaced. -/
theorem Store.get_replace (s : Store) (doc : Bytes) (items : List Diagnostic) (d : Bytes) :
    (s.replace doc items).get d = if d = doc then items else s.get d := by
  unfold Store.replace Store.get
  split
  · rename_i hitems
    rw [lookup_erase, List.isEmpty_iff.1 hitems]
  · rw [lookup_put]

/-! ### Displays -/

/-- **What an editor shows**: a list of diagnostics for every document. -/
structure Display where
  /-- The list that is shown for a document. -/
  shown : Bytes → List Diagnostic

namespace Display

/-- An editor that was just opened shows nothing. -/
def blank : Display := ⟨fun _ => []⟩

/-- A publication takes the place of what was shown for its document. -/
def receive (display : Display) (p : Publication) : Display :=
  ⟨fun doc => if doc = p.uri then p.items else display.shown doc⟩

/-- Publications, one after the other. -/
def receiveAll (display : Display) (pubs : List Publication) : Display :=
  pubs.foldl receive display

theorem receiveAll_append (display : Display) (pubs more : List Publication) :
    display.receiveAll (pubs ++ more) = (display.receiveAll pubs).receiveAll more :=
  List.foldl_append

end Display

/-! ### Histories of a store -/

/-- A change of a store: what is published is replaced, for documents named from a working
directory, or a document is forgotten. -/
inductive Operation where
  | apply (cwd : Bytes) (pubs : List Publication) (always : List Bytes)
  | clear (doc : Bytes)

namespace Store

/-- The store after a change, and what the editor is sent. -/
def perform (s : Store) : Operation → Store × List Publication
  | .apply cwd pubs always => s.apply cwd pubs always
  | .clear doc => ((s.clear doc).1, [(s.clear doc).2])

/-- **The store after a history of changes**, and all that the editor was sent, in order. -/
def performAll (s : Store) : List Operation → Store × List Publication
  | [] => (s, [])
  | op :: ops =>
    let (s', sent) := s.perform op
    let (s'', more) := s'.performAll ops
    (s'', sent ++ more)

theorem performAll_append (s : Store) (ops more : List Operation) :
    s.performAll (ops ++ more) =
      (((s.performAll ops).1.performAll more).1,
        (s.performAll ops).2 ++ ((s.performAll ops).1.performAll more).2) := by
  induction ops generalizing s with
  | nil => rfl
  | cons op ops ih => simp [performAll, ih]

end Store

/-! ### Display and store agree -/

/-- **A display agrees with a store**, whose entries are in order. -/
structure Display.Mirrors (display : Display) (s : Store) : Prop where
  ordered : Ordered s.entries
  /-- What is shown for a document is what is published for it. -/
  shown : ∀ doc, display.shown doc = s.get doc

namespace Display.Mirrors

variable {display : Display} {s : Store}

theorem blank : Display.blank.Mirrors {} := ⟨ordered_nil, fun _ => rfl⟩

/-- Replacing what is published for a document, and receiving it, is the same update. -/
theorem replace (h : display.Mirrors s) (doc : Bytes) (items : List Diagnostic) :
    (display.receive (Store.publication doc items)).Mirrors (s.replace doc items) := by
  refine ⟨?_, ?_⟩
  · unfold Store.replace
    split
    · exact ordered_erase h.ordered doc
    · rename_i hitems
      exact ordered_put h.ordered fun hnil => hitems (List.isEmpty_iff.2 hnil)
  · intro d
    rw [Store.get_replace]
    simp [receive, Store.publication, Publication.items, h.shown d]

/-- Replacing one document after the other, in whatever order and however often. -/
theorem replaceAll (h : display.Mirrors s) (merged : List (Bytes × List Diagnostic)) :
    (display.receiveAll (merged.map fun (doc, items) => Store.publication doc items)).Mirrors
      (merged.foldl (fun s (doc, items) => s.replace doc items) s) := by
  induction merged generalizing display s with
  | nil => exact h
  | cons entry merged ih => exact ih (h.replace entry.1 entry.2)

/-- **Every change keeps display and store in agreement.** -/
theorem perform (h : display.Mirrors s) (op : Operation) :
    (display.receiveAll (s.perform op).2).Mirrors (s.perform op).1 := by
  cases op with
  | apply cwd pubs always => exact h.replaceAll (merge cwd pubs always)
  | clear doc => exact h.replace doc []

/-- Display and store agree after every history, if they did before it. -/
theorem performAll (h : display.Mirrors s) (ops : List Operation) :
    (display.receiveAll (s.performAll ops).2).Mirrors (s.performAll ops).1 := by
  induction ops generalizing display s with
  | nil => exact h
  | cons op ops ih =>
      simp only [Store.performAll, receiveAll_append]
      exact ih (h.perform op)

end Display.Mirrors

/-- **The display agrees with the store all along every history.**  Take a store that begins empty,
and an editor that begins blank and receives whatever the store gives it, in order.  At every point
of a history of changes, with `before` behind it and `after` still to come, what was sent up to then
is the beginning of all that will be sent; the editor shows for every document exactly what is
published for it; no document is kept with an empty list; and the documents that are listed rise,
byte by byte, and are exactly those for which the editor shows something. -/
theorem display_mirrors_store (before after : List Operation) :
    let s := (Store.performAll {} before).1
    let sent := (Store.performAll {} before).2
    let display := Display.blank.receiveAll sent
    sent <+: (Store.performAll {} (before ++ after)).2 ∧
    (∀ doc, display.shown doc = s.get doc) ∧
    (∀ e ∈ s.entries, e.2 ≠ []) ∧
    s.documents.Pairwise (· < ·) ∧
    ∀ doc, doc ∈ s.documents ↔ display.shown doc ≠ [] := by
  intro s sent display
  have hmirrors : display.Mirrors s := Display.Mirrors.blank.performAll before
  refine ⟨?_, hmirrors.shown, hmirrors.ordered.filled, hmirrors.ordered.rising, ?_⟩
  · rw [Store.performAll_append]
    exact List.prefix_append _ _
  · intro doc
    rw [hmirrors.shown doc]
    exact mem_keys_iff hmirrors.ordered.filled doc

end ReplBridge.Document
