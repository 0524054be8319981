import Mathlib.Data.List.Forall2
import ReplBridge.Proofs.Json.Meaning
import ReplBridge.Proofs.Repl.Frame

/-!
**A frame is written without changing what it says.**

Every line that a frame keeps is the text of a tree, which is written again inside one object.  The
whole must not nest deeper than the limit; the answer stands inside one object, and a publication
inside an array in that object.  So a frame can be written exactly when these leave room for it, and
what is written says of each line what the line said.

Main definitions:

* `Repl.Deeper`, `Repl.Frame.Deeper` — values that nest deeper than some limit;
* `Repl.Says` — a tree that means what a line means;
* `Repl.Frame.Prints` — a text that says what a frame says.

Main results:

* `Repl.writable?_eq_some_iff` — when a value can be written;
* `Repl.Frame.render?_eq_none_iff`, `Repl.Frame.prints_of_render?` — when a frame cannot be written, and
  what is written;
* `Repl.render_classify` — **every frame that does not nest too deep is written, and says the same**.
-/

set_option autoImplicit false

namespace ReplBridge.Repl

variable {s : Bytes} {j : Json}

/-! ### Values -/

/-- A text whose value nests deeper than `limit`. -/
def Deeper (limit : Nat) (s : Bytes) : Prop := ∃ j, Json.IsText j s ∧ limit < j.depth

/-- A tree that means what a text means. -/
def Says (s : Bytes) (v : Json) : Prop := ∃ j, Json.IsText j s ∧ v.meaning = j.meaning

theorem isText_unique {j k : Json} (hj : Json.IsText j s) (hk : Json.IsText k s) : j = k := by
  have heq := (Json.parse?_eq_some_iff.2 hj).symm.trans (Json.parse?_eq_some_iff.2 hk)
  exact Option.some.inj heq

theorem writable?_eq_some_iff {outer : Nat} :
    writable? outer s = some j ↔ Json.IsText j s ∧ j.depth ≤ maxNesting - outer := by
  rw [writable?, Option.filter_eq_some_iff, Json.parse?_eq_some_iff, Json.nestsWithin_iff]

theorem Deeper.not_writable {outer : Nat} (h : Deeper (maxNesting - outer) s) (j : Json) :
    writable? outer s ≠ some j := by
  obtain ⟨k, hk, hdeep⟩ := h
  intro hj
  obtain ⟨htext, hdepth⟩ := writable?_eq_some_iff.1 hj
  rw [isText_unique htext hk] at hdepth
  omega

theorem exists_writable {outer : Nat} (htext : Json.IsText j s)
    (h : ¬ Deeper (maxNesting - outer) s) : writable? outer s = some j :=
  writable?_eq_some_iff.2 ⟨htext, Nat.not_lt.1 fun hdeep => h ⟨j, htext, hdeep⟩⟩

theorem says_guarded {outer : Nat} (h : writable? outer s = some j) : Says s j.guarded := by
  obtain ⟨htext, -⟩ := writable?_eq_some_iff.1 h
  exact ⟨j, htext, htext.meaning_guarded⟩

/-! ### Lists of values -/

theorem mapM_eq_some_iff {α β : Type} {f : α → Option β} {xs : List α} {ys : List β} :
    xs.mapM f = some ys ↔ List.Forall₂ (fun x y => f x = some y) xs ys := by
  induction xs generalizing ys with
  | nil =>
      rw [List.mapM_nil, List.forall₂_nil_left_iff]
      exact ⟨fun h => (Option.some.inj h).symm, fun h => h ▸ rfl⟩
  | cons x xs ih =>
      rw [List.mapM_cons, List.forall₂_cons_left_iff]
      constructor
      · intro h
        obtain ⟨y, hy, h⟩ := Option.bind_eq_some_iff.1 h
        obtain ⟨zs, hzs, h⟩ := Option.bind_eq_some_iff.1 h
        exact ⟨y, zs, hy, ih.1 hzs, (Option.some.inj h).symm⟩
      · rintro ⟨y, zs, hy, hzs, rfl⟩
        rw [hy, ih.2 hzs]
        rfl

theorem exists_forall₂ {α β : Type} {r : α → β → Prop} {xs : List α} (h : ∀ x ∈ xs, ∃ y, r x y) :
    ∃ ys, List.Forall₂ r xs ys := by
  induction xs with
  | nil => exact ⟨[], .nil⟩
  | cons x xs ih =>
      obtain ⟨⟨y, hy⟩, hxs⟩ := List.forall_mem_cons.1 h
      obtain ⟨ys, hys⟩ := ih hxs
      exact ⟨y :: ys, .cons hy hys⟩

theorem exists_of_mem_right {α β : Type} {r : α → β → Prop} {xs : List α} {ys : List β}
    (h : List.Forall₂ r xs ys) {y : β} (hy : y ∈ ys) : ∃ x ∈ xs, r x y := by
  induction h with
  | nil => cases hy
  | cons hhead _ ih =>
      rcases List.mem_cons.1 hy with rfl | hy
      · exact ⟨_, by simp, hhead⟩
      · obtain ⟨x, hx, hr⟩ := ih hy
        exact ⟨x, by simp [hx], hr⟩

/-! ### Frames -/

namespace Frame

/-- A frame whose answer nests deeper than the one limit, or a publication of which nests deeper than
the other. -/
def Deeper (answer publication : Nat) (f : Frame) : Prop :=
  (∃ s ∈ f.primary, Repl.Deeper answer s) ∨ ∃ s ∈ f.diagnostics, Repl.Deeper publication s

/-- The members of the object that a frame is written as: the count is left out when it is zero. -/
def members (response : Json) (diagnostics : List Json) (discarded : Nat) : List (String × Json) :=
  [("response", response), ("diagnostics", .array diagnostics)] ++
    if discarded = 0 then [] else [("discarded", Json.nat discarded)]

/-- **A text that says what a frame says**: the answer or null, the publications in order, and the count
if it is not zero. -/
def Prints (f : Frame) (out : Bytes) : Prop :=
  ∃ response diagnostics,
    Json.IsText (Json.record (members response diagnostics f.discarded)) out ∧
    (match f.primary with
      | none => response = .null
      | some s => Says s response) ∧
    List.Forall₂ Says f.diagnostics diagnostics

/-- The tree that the answer is written as. -/
def response? (f : Frame) : Option Json :=
  match f.primary with
  | none => some .null
  | some p => writable? 1 p

theorem json?_eq_some_iff {f : Frame} : f.json? = some j ↔
    ∃ response diagnostics, f.response? = some response ∧
      List.Forall₂ (fun s v => writable? 2 s = some v) f.diagnostics diagnostics ∧
      j = Json.record (members response diagnostics f.discarded) := by
  have hjson : f.json? = f.response?.bind fun response =>
      (f.diagnostics.mapM (writable? 2)).bind fun diagnostics =>
        some (Json.record (members response diagnostics f.discarded)) := by
    unfold json? response?
    cases f.primary <;> rfl
  rw [hjson]
  constructor
  · intro h
    obtain ⟨response, hresponse, h⟩ := Option.bind_eq_some_iff.1 h
    obtain ⟨diagnostics, hdiagnostics, h⟩ := Option.bind_eq_some_iff.1 h
    exact ⟨response, diagnostics, hresponse, mapM_eq_some_iff.1 hdiagnostics,
      (Option.some.inj h).symm⟩
  · rintro ⟨response, diagnostics, hresponse, hdiagnostics, rfl⟩
    refine Option.bind_eq_some_iff.2 ⟨response, hresponse, ?_⟩
    exact Option.bind_eq_some_iff.2 ⟨diagnostics, mapM_eq_some_iff.2 hdiagnostics, rfl⟩

/-- The tree of a frame can be written, and its values are spelled as they are written. -/
theorem members_guarded {response : Json} {diagnostics : List Json} (discarded : Nat)
    (hresponse : response.Spelled) (hdiagnostics : ∀ v ∈ diagnostics, v.Spelled) :
    (Json.record (members response diagnostics discarded)).Spelled ∧
      (Json.record (members response diagnostics discarded)).guarded =
        Json.record (members response.guarded (diagnostics.map Json.guarded) discarded) := by
  have hnames : ∀ name ∈ ["response", "diagnostics", "discarded"],
      Json.rawOf (utf8 name) = utf8 name := by decide +kernel
  have hcount := Json.settled_nat discarded
  have harray : (Json.array diagnostics).Spelled := Json.itemsSpelled_of_forall hdiagnostics
  have hguarded : (Json.array diagnostics).guarded = .array (diagnostics.map Json.guarded) := by
    rw [Json.guarded, Json.guardedItems_eq_map]
  have hspelled : ∀ m ∈ members response diagnostics discarded,
      Json.rawOf (utf8 m.1) = utf8 m.1 ∧ m.2.Spelled := by
    intro m hm
    rcases List.mem_append.1 hm with hm | hm
    · rcases List.mem_cons.1 hm with rfl | hm
      · exact ⟨hnames _ (by simp), hresponse⟩
      · obtain rfl := List.mem_singleton.1 hm
        exact ⟨hnames _ (by simp), harray⟩
    · split at hm
      · cases hm
      · obtain rfl := List.mem_singleton.1 hm
        exact ⟨hnames _ (by simp), hcount.spelled⟩
  obtain ⟨hrecord, heq⟩ := Json.record_guarded hspelled
  refine ⟨hrecord, heq.trans (congrArg Json.record ?_)⟩
  rw [members, members, List.map_append, List.map_cons, List.map_cons, hguarded]
  split
  · rfl
  · rw [List.map_cons, hcount.guarded]
    rfl

/-- **What is written of a frame.** -/
theorem prints_of_render? {f : Frame} {out : Bytes} (h : f.render? = some out) :
    Json.Clean out ∧ f.Prints out := by
  obtain ⟨j, hj, rfl⟩ := Option.map_eq_some_iff.1 h
  obtain ⟨response, diagnostics, hresponse, hdiagnostics, rfl⟩ := json?_eq_some_iff.1 hj
  have hresponseSpelled : response.Spelled := by
    unfold response? at hresponse
    split at hresponse
    · cases hresponse
      trivial
    · exact (writable?_eq_some_iff.1 hresponse).1.spelled
  have hdiagnosticsSpelled : ∀ v ∈ diagnostics, v.Spelled := by
    intro v hv
    obtain ⟨s, -, hs⟩ := exists_of_mem_right hdiagnostics hv
    exact (writable?_eq_some_iff.1 hs).1.spelled
  obtain ⟨hspelled, hguarded⟩ := members_guarded f.discarded hresponseSpelled hdiagnosticsSpelled
  -- What is read back are the values as they are spelled when they are written.
  refine ⟨Json.clean_compact hspelled, response.guarded, diagnostics.map Json.guarded, ?_, ?_, ?_⟩
  · rw [← hguarded]
    exact Json.parse?_eq_some_iff.1 (Json.parse?_compact hspelled)
  · unfold response? at hresponse
    split at hresponse
    · cases hresponse
      rfl
    · exact says_guarded hresponse
  · rw [List.forall₂_map_right_iff]
    exact hdiagnostics.imp fun s v hv => says_guarded hv

/-- **When a frame cannot be written**, if all it keeps are texts of trees. -/
theorem render?_eq_none_iff {f : Frame} (hprimary : ∀ s ∈ f.primary, ∃ j, Json.IsText j s)
    (hdiagnostics : ∀ s ∈ f.diagnostics, ∃ j, Json.IsText j s) :
    f.render? = none ↔ f.Deeper 9999 9998 := by
  rw [render?, Option.map_eq_none_iff]
  constructor
  · -- If no value is too deep, every one can be written, and with them the frame.
    intro hnone
    by_contra hnot
    have hnot := not_or.1 hnot
    obtain ⟨response, hresponse⟩ : ∃ response, f.response? = some response := by
      unfold response?
      split
      · exact ⟨_, rfl⟩
      · rename_i p hp
        obtain ⟨j, hj⟩ := hprimary p hp
        exact ⟨j, exists_writable hj fun hdeep => hnot.1 ⟨p, hp, hdeep⟩⟩
    obtain ⟨diagnostics, hall⟩ :
        ∃ vs, List.Forall₂ (fun s v => writable? 2 s = some v) f.diagnostics vs := by
      refine exists_forall₂ ?_
      intro s hs
      obtain ⟨j, hj⟩ := hdiagnostics s hs
      exact ⟨j, exists_writable hj fun hdeep => hnot.2 ⟨s, hs, hdeep⟩⟩
    rw [json?_eq_some_iff.2 ⟨response, diagnostics, hresponse, hall, rfl⟩] at hnone
    cases hnone
  · -- A frame that is written has written each of its values.
    intro hdeep
    rw [Option.eq_none_iff_forall_ne_some]
    intro j hj
    obtain ⟨response, diagnostics, hresponse, hall, -⟩ := json?_eq_some_iff.1 hj
    rcases hdeep with ⟨s, hs, hdeep⟩ | ⟨s, hs, hdeep⟩
    · have hs : f.primary = some s := hs
      rw [response?, hs] at hresponse
      exact hdeep.not_writable response hresponse
    · obtain ⟨v, -, hv⟩ := exists_of_mem_right hall.flip hs
      exact hdeep.not_writable v hv

end Frame

/-! ### Classified outputs -/

theorem exists_isText_primary {text s : Bytes} (h : s ∈ (classify text).primary) :
    ∃ j, Json.IsText j s := by
  rw [primary_classify] at h
  have hanswer : IsAnswer s := by simpa using List.find?_some h
  rcases hanswer.2 with ⟨members, hj⟩ | ⟨items, hj⟩
  · exact ⟨_, hj⟩
  · exact ⟨_, hj⟩

theorem exists_isText_diagnostics {text s : Bytes} (h : s ∈ (classify text).diagnostics) :
    ∃ j, Json.IsText j s := by
  rw [diagnostics_classify] at h
  obtain ⟨before, key, items, after, hj, -⟩ : IsPublication s := by simpa using (List.mem_filter.1 h).2
  exact ⟨_, hj⟩

/-- **Every frame that does not nest too deep is written, and says the same.**  The answer may nest
9999 deep and a publication 9998; then one clean object is written that says what the frame says. -/
theorem render_classify (text : Bytes) :
    (classify text).Deeper 9999 9998 ∧ (classify text).render? = none ∨
    ¬ (classify text).Deeper 9999 9998 ∧
      ∃ out, (classify text).render? = some out ∧ Json.Clean out ∧ (classify text).Prints out := by
  have hnone := Frame.render?_eq_none_iff (f := classify text) (fun s => exists_isText_primary)
    (fun s => exists_isText_diagnostics)
  cases hout : (classify text).render? with
  | none => exact .inl ⟨hnone.1 hout, rfl⟩
  | some out =>
      refine .inr ⟨fun hdeep => ?_, out, rfl, Frame.prints_of_render? hout⟩
      rw [hnone.2 hdeep] at hout
      cases hout

/-! ### Brackets -/

/-- Arrays inside one another, `n + 1` deep. -/
def nested : Nat → Json
  | 0 => .array []
  | n + 1 => .array [nested n]

/-- Opening brackets and as many closing ones. -/
def brackets (n : Nat) : Bytes := List.replicate n 0x5B ++ List.replicate n 0x5D

theorem depth_nested (n : Nat) : (nested n).depth = n + 1 := by
  induction n with
  | zero => rfl
  | succ n ih => simp [nested, Json.depth, Json.itemsDepth, ih]

theorem isText_brackets (n : Nat) : Json.IsText (nested n) (brackets (n + 1)) := by
  have hphrase : Json.Phrase (nested n) (brackets (n + 1)) := by
    induction n with
    | zero => exact ⟨[], Json.space_nil, rfl⟩
    | succ n ih =>
        refine ⟨[], brackets (n + 1), [0x5D], Json.space_nil, ih, ⟨[], Json.space_nil, rfl⟩, ?_⟩
        have hlast : List.replicate (n + 2) (0x5D : UInt8) = List.replicate (n + 1) 0x5D ++ [0x5D] :=
          List.replicate_succ'
        rw [brackets, brackets, hlast, List.replicate_succ]
        simp
  exact ⟨[], _, [], Json.space_nil, hphrase, Json.space_nil, by simp⟩

theorem trimmedLines_brackets (n : Nat) : trimmedLines (brackets (n + 1)) = [brackets (n + 1)] := by
  have hmem {b : UInt8} (hb : b ∈ brackets (n + 1)) : b = 0x5B ∨ b = 0x5D := by
    rcases List.mem_append.1 hb with hb | hb
    · exact .inl (List.eq_of_mem_replicate hb)
    · exact .inr (List.eq_of_mem_replicate hb)
  have hfree : ¬ [Bytes.newline] <:+: brackets (n + 1) := by
    intro h
    have hnewline := hmem (h.subset (List.mem_singleton.2 rfl))
    exact absurd hnewline (by decide)
  have hsolid : Blank.Solid (brackets (n + 1)) := by
    have hforeign : Blank.Solid [0x5B, 0x5D] := by decide
    intro b hb
    exact hforeign b (by simpa using hmem hb)
  have htrimmed : Blank.Trimmed (brackets (n + 1)) := by
    have hlast : ∀ e ∈ Blank.encodings, e.getLast? ≠ some 0x5D := by decide
    constructor
    · have hstart := hsolid.start (by simp [brackets]) []
      rwa [List.append_nil] at hstart
    · have hstop := Blank.stop_concat hlast (List.replicate (n + 1) 0x5B ++ List.replicate n 0x5D)
      rwa [List.append_assoc, ← List.replicate_succ'] at hstop
  rw [trimmedLines, Bytes.split_of_free (by simp) hfree, List.map_singleton, htrimmed.trim]
  simp [brackets]

/-- **Ten thousand brackets are too deep**, although they nest no deeper than ten thousand: what is
written would be one deeper. -/
theorem render_fails_at_limit :
    ¬ ∀ text, ((classify text).render? = none ↔ (classify text).Deeper 10000 10000) := by
  have htext := isText_brackets 9999
  have hnot : ¬ IsPublication (brackets 10000) := by
    rintro ⟨before, key, items, after, hobject, -⟩
    cases isText_unique htext hobject
  have hanswer : IsAnswer (brackets 10000) := ⟨hnot, .inr ⟨_, htext⟩⟩
  have hprimary : (classify (brackets 10000)).primary = some (brackets 10000) := by
    rw [primary_classify, trimmedLines_brackets]
    simp [hanswer]
  have hdiagnostics : (classify (brackets 10000)).diagnostics = [] := by
    rw [diagnostics_classify, trimmedLines_brackets]
    simp [hnot]
  intro h
  have hfails : (classify (brackets 10000)).render? = none := by
    rw [Frame.render?_eq_none_iff (fun s => exists_isText_primary)
      (fun s => exists_isText_diagnostics)]
    exact .inl ⟨_, hprimary, _, htext, by rw [depth_nested]; omega⟩
  rcases (h _).1 hfails with ⟨s, hs, j, hj, hdepth⟩ | ⟨s, hs, -⟩
  · obtain rfl := Option.some.inj (hprimary.symm.trans hs)
    rw [isText_unique hj htext, depth_nested] at hdepth
    omega
  · rw [hdiagnostics] at hs
    cases hs

end ReplBridge.Repl
