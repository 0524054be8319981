import Mathlib.Data.List.Induction
import Mathlib.Data.List.Nodup
import Mathlib.Data.List.Perm.Basic
import ReplBridge.Proofs.Document.Store

/-!
**Publications are brought together by document, and nothing gets lost.**

One validation may speak of a document several times, under its address or by its path, and of
others in between.  The editor is sent one publication for each document all the same, since a
second would take the place of the first.  Here the walk that brings publications together is
compared with what it should come to, said without walking: the documents that are named, each at
its first occurrence, and with each of them the diagnostics of the publications that name it.

Publications and the documents that take part in any case are the same to the walk: a document and
some diagnostics for it.  So there is one step lemma, for one more such contribution, and the result
follows by going through them in order.

Main definitions:

* `Document.named` — the documents that publications and further addresses name, in order;
* `Document.collected` — the diagnostics of the publications that name a document.

Main results:

* `Document.gather_together` — **one more contribution**;
* `Document.merge_eq` — the walk comes to the documents at their first occurrence, with what is
  collected for each;
* `Document.Store.apply_sends`, `Document.Store.get_apply` — what the editor is sent, and what is
  published afterwards;
* `Document.Store.apply_merges` — **publications are merged exactly**.
-/

set_option autoImplicit false

namespace ReplBridge.Document

open Protocol (Diagnostic Publication)

variable {doc : Bytes}

/-! ### First occurrences -/

theorem eraseDups_concat (docs : List Bytes) (doc : Bytes) :
    (docs ++ [doc]).eraseDups = if doc ∈ docs then docs.eraseDups else docs.eraseDups ++ [doc] := by
  rw [List.eraseDups_append]
  by_cases h : doc ∈ docs <;> simp [List.removeAll, h, List.eraseDups_cons]

theorem nodup_eraseDups (docs : List Bytes) : docs.eraseDups.Nodup := by
  induction docs using List.reverseRecOn with
  | nil => exact List.nodup_nil
  | append_singleton docs doc ih =>
      rw [eraseDups_concat]
      split
      · exact ih
      · rename_i hnew
        rw [← List.concat_eq_append]
        exact ih.concat (by rwa [List.mem_eraseDups])

/-! ### The walk -/

/-- What is collected for a document among contributions, each a document with diagnostics for
it. -/
def collect (contributions : List (Bytes × List Diagnostic)) (doc : Bytes) : List Diagnostic :=
  (contributions.filter (·.1 == doc)).flatMap (·.2)

/-- Diagnostics for a document that is there already. -/
theorem gather_of_mem {docs : List Bytes} (items : List Diagnostic) (f : Bytes → List Diagnostic)
    (hnodup : docs.Nodup) (h : doc ∈ docs) :
    gather doc items (docs.map fun d => (d, f d)) =
      docs.map fun d => (d, if d = doc then f d ++ items else f d) := by
  induction docs with
  | nil => cases h
  | cons first docs ih =>
      obtain ⟨hfirst, hnodup⟩ := List.nodup_cons.1 hnodup
      by_cases heq : first = doc
      · -- The document occurs once, so the others stay as they are.
        subst heq
        have hrest : docs.map (fun d => (d, if d = first then f d ++ items else f d)) =
            docs.map fun d => (d, f d) := by
          refine List.map_congr_left fun d hd => ?_
          rw [if_neg fun hsame : d = first => hfirst (hsame ▸ hd)]
        simp [gather, hrest]
      · have hmem : doc ∈ docs := by simpa [Ne.symm heq] using h
        simp [gather, heq, ih hnodup hmem]

/-- Diagnostics for a document that is not there yet. -/
theorem gather_of_not_mem {docs : List Bytes} (items : List Diagnostic)
    (f : Bytes → List Diagnostic) (h : doc ∉ docs) :
    gather doc items (docs.map fun d => (d, f d)) =
      docs.map (fun d => (d, f d)) ++ [(doc, items)] := by
  induction docs with
  | nil => rfl
  | cons first docs ih =>
      obtain ⟨hfirst, hrest⟩ := not_or.1 (List.mem_cons.not.1 h)
      simp [gather, Ne.symm hfirst, ih hrest]

theorem collect_concat (contributions : List (Bytes × List Diagnostic)) (doc d : Bytes)
    (items : List Diagnostic) :
    collect (contributions ++ [(doc, items)]) d =
      if d = doc then collect contributions d ++ items else collect contributions d := by
  by_cases h : d = doc
  · simp [collect, h]
  · simp [collect, h, Ne.symm h]

theorem collect_of_not_mem {contributions : List (Bytes × List Diagnostic)}
    (h : doc ∉ contributions.map Prod.fst) : collect contributions doc = [] := by
  have hnone : contributions.filter (·.1 == doc) = [] := by
    refine List.filter_eq_nil_iff.2 fun c hc heq => h ?_
    exact List.mem_map.2 ⟨c, hc, by simpa using heq⟩
  rw [collect, hnone, List.flatMap_nil]

/-- Contributions brought together: every document at its first occurrence, with what is collected
for it. -/
def together (contributions : List (Bytes × List Diagnostic)) : List (Bytes × List Diagnostic) :=
  (contributions.map Prod.fst).eraseDups.map fun doc => (doc, collect contributions doc)

/-- **One more contribution.** -/
theorem gather_together (contributions : List (Bytes × List Diagnostic)) (doc : Bytes)
    (items : List Diagnostic) :
    gather doc items (together contributions) = together (contributions ++ [(doc, items)]) := by
  have hcollect := collect_concat contributions doc
  unfold together
  rw [List.map_append, List.map_singleton, eraseDups_concat]
  by_cases h : doc ∈ contributions.map Prod.fst
  · rw [if_pos h, gather_of_mem items _ (nodup_eraseDups _) (List.mem_eraseDups.2 h)]
    exact List.map_congr_left fun d _ => by rw [hcollect]
  · rw [if_neg h, gather_of_not_mem items _ (by rwa [List.mem_eraseDups]), List.map_append]
    have hold : (contributions.map Prod.fst).eraseDups.map
          (fun d => (d, collect (contributions ++ [(doc, items)]) d)) =
        (contributions.map Prod.fst).eraseDups.map fun d => (d, collect contributions d) := by
      refine List.map_congr_left fun d hd => ?_
      rw [hcollect, if_neg fun hsame : d = doc => h (hsame ▸ List.mem_eraseDups.1 hd)]
    rw [hold, List.map_singleton, hcollect, if_pos rfl, collect_of_not_mem h, List.nil_append]

theorem foldl_gather (contributions : List (Bytes × List Diagnostic)) :
    contributions.foldl (fun acc c => gather c.1 c.2 acc) [] = together contributions := by
  induction contributions using List.reverseRecOn with
  | nil => rfl
  | append_singleton contributions c ih =>
      rw [List.foldl_append, List.foldl_cons, List.foldl_nil, ih, gather_together]

/-! ### Publications -/

/-- The documents that publications and further addresses name, in order. -/
def named (cwd : Bytes) (pubs : List Publication) (always : List Bytes) : List Bytes :=
  pubs.map (fun p => Uri.normalize cwd p.uri) ++ always

/-- **The diagnostics of the publications that name a document**, in order. -/
def collected (cwd : Bytes) (pubs : List Publication) (doc : Bytes) : List Diagnostic :=
  (pubs.filter fun p => Uri.normalize cwd p.uri == doc).flatMap (·.items)

/-- The walk comes to the documents at their first occurrence, with what is collected for each. -/
theorem merge_eq (cwd : Bytes) (pubs : List Publication) (always : List Bytes) :
    merge cwd pubs always =
      (named cwd pubs always).eraseDups.map fun doc => (doc, collected cwd pubs doc) := by
  let contributions : List (Bytes × List Diagnostic) :=
    pubs.map (fun p => (Uri.normalize cwd p.uri, p.items)) ++ always.map (·, [])
  have hmerge : merge cwd pubs always =
      contributions.foldl (fun acc c => gather c.1 c.2 acc) [] := by
    simp only [contributions, List.foldl_append, List.foldl_map, merge]
  have hnamed : contributions.map Prod.fst = named cwd pubs always := by
    simp [contributions, named, Function.comp_def]
  have hcollect (doc : Bytes) : collect contributions doc = collected cwd pubs doc := by
    simp [contributions, collect, collected, List.filter_append, List.filter_map,
      List.flatMap_map, Function.comp_def]
  rw [hmerge, foldl_gather, together, hnamed]
  exact List.map_congr_left fun doc _ => by rw [hcollect]

/-- Sorted into documents, of which none occurs twice and none is missing, things are the same up to
their order. -/
theorem perm_sorted {α : Type} (key : α → Bytes) {docs : List Bytes} (hnodup : docs.Nodup)
    {things : List α} (h : ∀ a ∈ things, key a ∈ docs) :
    (docs.flatMap fun doc => things.filter (key · == doc)).Perm things := by
  induction docs generalizing things with
  | nil =>
      have hnil : things = [] := List.eq_nil_iff_forall_not_mem.2 fun a ha => nomatch h a ha
      rw [hnil, List.flatMap_nil]
  | cons first docs ih =>
      obtain ⟨hfirst, hnodup⟩ := List.nodup_cons.1 hnodup
      -- What does not belong to the first document is sorted into the others.
      let others := things.filter (!key · == first)
      have hothers : ∀ a ∈ others, key a ∈ docs := by
        intro a ha
        obtain ⟨ha, hkey⟩ := List.mem_filter.1 ha
        exact (List.mem_cons.1 (h a ha)).resolve_left (by simpa using hkey)
      have hsame : (docs.flatMap fun doc => things.filter (key · == doc)) =
          docs.flatMap fun doc => others.filter (key · == doc) := by
        refine List.flatMap_congr fun doc hdoc => ?_
        rw [List.filter_filter]
        refine List.filter_congr fun a _ => ?_
        have hne : doc ≠ first := fun heq => hfirst (heq ▸ hdoc)
        by_cases hkey : key a = doc <;> simp [hkey, hne]
      rw [List.flatMap_cons, hsame]
      exact ((ih hnodup hothers).append_left _).trans (List.filter_append_perm _ things)

namespace Store

section

variable (s : Store) (cwd : Bytes) (pubs : List Publication) (always : List Bytes)

/-- What the editor is sent: a publication for every document at its first occurrence. -/
theorem apply_sends :
    (s.apply cwd pubs always).2 = (named cwd pubs always).eraseDups.map fun doc =>
      publication doc (collected cwd pubs doc) := by
  simp only [apply, merge_eq, List.map_map, Function.comp_def]

/-- A document that is named is sent one publication. -/
theorem apply_sends_one (h : doc ∈ named cwd pubs always) :
    (s.apply cwd pubs always).2.filter (·.uri == doc) =
      [publication doc (collected cwd pubs doc)] := by
  have hone : (named cwd pubs always).eraseDups.count doc = 1 :=
    List.count_eq_one_of_mem (nodup_eraseDups _) (List.mem_eraseDups.2 h)
  have hcomp : ((·.uri == doc) ∘ fun d => publication d (collected cwd pubs d)) = (· == doc) := rfl
  rw [apply_sends, List.filter_map, hcomp, List.filter_beq, hone]
  rfl

theorem get_foldl_of_not_mem {merged : List (Bytes × List Diagnostic)}
    (h : doc ∉ merged.map Prod.fst) :
    (merged.foldl (fun s (d, items) => s.replace d items) s).get doc = s.get doc := by
  induction merged generalizing s with
  | nil => rfl
  | cons entry merged ih =>
      obtain ⟨hfirst, hrest⟩ := not_or.1 (List.mem_cons.not.1 h)
      rw [List.foldl_cons, ih _ hrest, get_replace, if_neg hfirst]

theorem get_foldl_of_mem {docs : List Bytes} (f : Bytes → List Diagnostic) (hnodup : docs.Nodup)
    (h : doc ∈ docs) :
    ((docs.map fun d => (d, f d)).foldl (fun s (d, items) => s.replace d items) s).get doc =
      f doc := by
  induction docs generalizing s with
  | nil => cases h
  | cons first docs ih =>
      obtain ⟨hfirst, hnodup⟩ := List.nodup_cons.1 hnodup
      rw [List.map_cons, List.foldl_cons]
      rcases List.mem_cons.1 h with rfl | h
      · -- Nothing behind it replaces the document again.
        have hlast : doc ∉ (docs.map fun d => (d, f d)).map Prod.fst := by
          simpa [Function.comp_def] using hfirst
        rw [get_foldl_of_not_mem _ hlast, get_replace, if_pos rfl]
      · exact ih _ hnodup h

/-- **What is published afterwards**: what was collected for a document that was named, and what
there was before for any other. -/
theorem get_apply (doc : Bytes) :
    (s.apply cwd pubs always).1.get doc =
      if doc ∈ named cwd pubs always then collected cwd pubs doc else s.get doc := by
  simp only [apply, merge_eq]
  split
  · rename_i hdoc
    exact get_foldl_of_mem s _ (nodup_eraseDups _) (List.mem_eraseDups.2 hdoc)
  · rename_i hdoc
    refine get_foldl_of_not_mem s ?_
    simpa [Function.comp_def] using hdoc

/-- The diagnostics that are sent are those of the publications, each under its document. -/
theorem apply_perm :
    ((s.apply cwd pubs always).2.flatMap fun p => p.items.map (p.uri, ·)).Perm
      (pubs.flatMap fun p => p.items.map (Uri.normalize cwd p.uri, ·)) := by
  have hall : ∀ p ∈ pubs, Uri.normalize cwd p.uri ∈ (named cwd pubs always).eraseDups := by
    intro p hp
    rw [List.mem_eraseDups]
    exact List.mem_append_left _ (List.mem_map_of_mem hp)
  have hsorted := (perm_sorted (fun p : Publication => Uri.normalize cwd p.uri)
    (nodup_eraseDups (named cwd pubs always)) hall).flatMap_right
      fun p => p.items.map (Uri.normalize cwd p.uri, ·)
  have hsent : ((s.apply cwd pubs always).2.flatMap fun p => p.items.map (p.uri, ·)) =
      ((named cwd pubs always).eraseDups.flatMap fun doc =>
        pubs.filter (Uri.normalize cwd ·.uri == doc)).flatMap
          fun p => p.items.map (Uri.normalize cwd p.uri, ·) := by
    rw [apply_sends, List.flatMap_map, List.flatMap_assoc]
    refine List.flatMap_congr fun doc _ => ?_
    rw [publication, Publication.items, Option.getD_some, collected, List.map_flatMap]
    refine List.flatMap_congr fun p hp => ?_
    rw [beq_iff_eq.1 (List.mem_filter.1 hp).2]
  rw [hsent]
  exact hsorted

end

/-- **Publications are merged exactly.**  Take any store, publications, and addresses of documents
that take part in any case.  The editor is sent one publication for each document that is named, in
the order of first occurrence and without repeats.  Each has a list, which is that of the
diagnostics of exactly the publications that name its document, in order, and empty if there are
none.  So every diagnostic is sent as often as it was published, under the document it was published
for, and there are as many as before.  Afterwards that list is what the store holds for the
document, and for every other document the store holds what it held before. -/
theorem apply_merges (s : Store) (cwd : Bytes) (pubs : List Publication) (always : List Bytes) :
    let docs := pubs.map (fun p => Uri.normalize cwd p.uri) ++ always
    let after := (s.apply cwd pubs always).1
    let sent := (s.apply cwd pubs always).2
    sent.map (·.uri) = docs.eraseDups ∧
    (sent.map (·.uri)).Nodup ∧
    (∀ p ∈ sent, p.version = 0 ∧ p.diagnostics =
      some ((pubs.filter fun q => Uri.normalize cwd q.uri == p.uri).flatMap (·.items))) ∧
    (sent.flatMap fun p => p.items.map (p.uri, ·)).Perm
      (pubs.flatMap fun p => p.items.map (Uri.normalize cwd p.uri, ·)) ∧
    (sent.flatMap (·.items)).length = (pubs.flatMap (·.items)).length ∧
    (∀ p ∈ sent, after.get p.uri = p.items) ∧
    ∀ doc, doc ∉ docs → after.get doc = s.get doc := by
  intro docs after sent
  have hsent : sent = docs.eraseDups.map fun doc => publication doc (collected cwd pubs doc) :=
    apply_sends s cwd pubs always
  have huris : sent.map (·.uri) = docs.eraseDups := by
    simp [hsent, publication, Function.comp_def]
  have hperm := apply_perm s cwd pubs always
  refine ⟨huris, huris ▸ nodup_eraseDups docs, ?_, hperm, ?_, ?_, ?_⟩
  · intro p hp
    obtain ⟨doc, -, rfl⟩ := List.mem_map.1 (hsent ▸ hp)
    exact ⟨rfl, rfl⟩
  · simpa [List.length_flatMap] using hperm.length_eq
  · intro p hp
    obtain ⟨doc, hdoc, rfl⟩ := List.mem_map.1 (hsent ▸ hp)
    exact (get_apply s cwd pubs always doc).trans (if_pos (List.mem_eraseDups.1 hdoc))
  · intro doc hdoc
    exact (get_apply s cwd pubs always doc).trans (if_neg hdoc)

end Store

end ReplBridge.Document
