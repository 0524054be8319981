import ReplBridge.Proofs.Text.Blank

/-!
**The words of a text.**

Words are what is left of a text when it is cut wherever white space stands.  The walk that finds
them and the one that trims a text read the same table, one from the left and the other from either
end.  They agree: white space around a text does not change its words, a text has none exactly if
nothing is left of it when it is trimmed, and the first word begins where the trimmed text does.

Main results:

* `Blank.entry_induction` — texts are empty, begin with white space, or begin with another byte;
* `Blank.fields_trim` — **white space around a text does not change its words**;
* `Blank.fields_cons` — the first word begins where the trimmed text does;
* `Blank.fields_eq_nil_iff` — a text without words is blank.
-/

set_option autoImplicit false

namespace ReplBridge.Blank

/-- A text is empty, or begins with white space, or with a byte that does not begin any. -/
theorem entry_induction {motive : Bytes → Prop} (nil : motive [])
    (entry : ∀ e ∈ encodings, ∀ s, motive s → motive (e ++ s))
    (other : ∀ b s, (∀ e ∈ encodings, ¬ e <+: b :: s) → motive s → motive (b :: s)) (s : Bytes) :
    motive s := by
  induction hn : s.length using Nat.strongRecOn generalizing s with
  | ind n ih =>
      by_cases hnone : ∀ e ∈ encodings, ¬ e <+: s
      · cases s with
        | nil => exact nil
        | cons b s => exact other b s hnone (ih s.length (by simp [← hn]) s rfl)
      · simp only [not_forall, not_not] at hnone
        obtain ⟨e, he, rest, rfl⟩ := hnone
        refine entry e he rest (ih rest.length ?_ rest rfl)
        have hpos := List.length_pos_iff.2 (prefixFree_encodings.full e he)
        rw [List.length_append] at hn
        omega

/-! ### The walk -/

/-- The words found so far, once the one under way has ended. -/
def closed (done : List Bytes) (part : Bytes) : List Bytes :=
  if part.isEmpty then done else part.reverse :: done

theorem fields_go_nil (done : List Bytes) (part : Bytes) (skip : Nat) :
    fields.go done part skip [] = (closed done part).reverse := by
  cases skip <;> rfl

theorem fields_go_succ (done : List Bytes) (part : Bytes) (skip : Nat) (b : UInt8) (s : Bytes) :
    fields.go done part (skip + 1) (b :: s) = fields.go done part skip s := rfl

theorem fields_go_zero (done : List Bytes) (part : Bytes) (b : UInt8) (s : Bytes) :
    fields.go done part 0 (b :: s) =
      (encodings.find? (·.isPrefixOf (b :: s))).elim (fields.go done (b :: part) 0 s)
        fun e => fields.go (closed done part) [] (e.length - 1) s := by
  rw [fields.go]
  cases encodings.find? (·.isPrefixOf (b :: s)) <;> rfl

theorem fields_go_skip (done : List Bytes) (part : Bytes) (skip : Nat) (s : Bytes) :
    fields.go done part skip s = fields.go done part 0 (s.drop skip) := by
  induction s generalizing skip with
  | nil => rw [List.drop_nil, fields_go_nil, fields_go_nil]
  | cons b rest ih =>
      cases skip with
      | zero => rfl
      | succ skip => rw [fields_go_succ, ih, List.drop_succ_cons]

/-- White space ends the word under way. -/
theorem fields_go_entry {e : Bytes} (he : e ∈ encodings) (done : List Bytes) (part s : Bytes) :
    fields.go done part 0 (e ++ s) = fields.go (closed done part) [] 0 s := by
  have hfind := prefixFree_encodings.find?_append he s
  cases e with
  | nil => exact absurd rfl (prefixFree_encodings.full [] he)
  | cons b more =>
      rw [List.cons_append] at hfind ⊢
      rw [fields_go_zero, hfind, Option.elim_some, fields_go_skip, List.length_cons,
        Nat.add_sub_cancel, List.drop_left]

theorem fields_go_other {b : UInt8} {s : Bytes} (h : ∀ e ∈ encodings, ¬ e <+: b :: s)
    (done : List Bytes) (part : Bytes) :
    fields.go done part 0 (b :: s) = fields.go done (b :: part) 0 s := by
  have hfind : encodings.find? (·.isPrefixOf (b :: s)) = none := by
    refine List.find?_eq_none.2 ?_
    intro e he hp
    exact h e he (List.isPrefixOf_iff_prefix.1 hp)
  rw [fields_go_zero, hfind, Option.elim_none]

/-- The words that were found do not matter for those to come. -/
theorem fields_go_done (done : List Bytes) (part s : Bytes) :
    fields.go done part 0 s = done.reverse ++ fields.go [] part 0 s := by
  induction s using entry_induction generalizing done part with
  | nil =>
      rw [fields_go_nil, fields_go_nil]
      cases part <;> simp [closed]
  | entry e he s ih =>
      rw [fields_go_entry he, fields_go_entry he, ih, ih (closed [] part)]
      cases part <;> simp [closed]
  | other b s hb ih => rw [fields_go_other hb, fields_go_other hb, ih]

/-- White space at the end does not matter, whatever is under way. -/
theorem fields_go_append {w : Bytes} (hw : White w) (done : List Bytes) (part s : Bytes) :
    fields.go done part 0 (s ++ w) = fields.go done part 0 s := by
  induction s using entry_induction generalizing done part with
  | nil =>
      obtain ⟨es, hes, rfl⟩ := hw
      rw [List.nil_append]
      induction es generalizing done part with
      | nil => rfl
      | cons e es ih =>
          rw [List.flatten_cons, fields_go_entry (hes e (by simp)),
            ih _ _ fun f hf => hes f (by simp [hf])]
          cases part <;> rfl
  | entry e he s ih =>
      rw [List.append_assoc, fields_go_entry he, fields_go_entry he, ih]
  | other b s hb ih =>
      have hnone : ∀ e ∈ encodings, ¬ e <+: b :: (s ++ w) := by
        intro e he hp
        exact hb e he (prefix_of_prefix_append he (by simp) hw hp)
      rw [List.cons_append, fields_go_other hnone, fields_go_other hb, ih]

/-- A word under way is the first one to come, with what is still found of it. -/
theorem exists_fields_go {part : Bytes} (hpart : part ≠ []) (s : Bytes) :
    ∃ word more, fields.go [] part 0 s = (part.reverse ++ word) :: more := by
  induction s using entry_induction generalizing part with
  | nil =>
      refine ⟨[], [], ?_⟩
      simp [fields_go_nil, closed, hpart]
  | entry e he s ih =>
      refine ⟨[], fields.go [] [] 0 s, ?_⟩
      rw [fields_go_entry he, fields_go_done]
      simp [closed, hpart]
  | other b s hb ih =>
      obtain ⟨word, more, heq⟩ := ih (by simp : b :: part ≠ [])
      refine ⟨b :: word, more, ?_⟩
      rw [fields_go_other hb, heq]
      simp

/-! ### Words and trimming -/

theorem fields_append_white {w : Bytes} (hw : White w) (s : Bytes) : fields (s ++ w) = fields s :=
  fields_go_append hw [] [] s

theorem fields_white_append {w : Bytes} (hw : White w) (s : Bytes) :
    fields (w ++ s) = fields s := by
  obtain ⟨es, hes, rfl⟩ := hw
  induction es with
  | nil => rfl
  | cons e es ih =>
      rw [List.flatten_cons, List.append_assoc, fields, fields_go_entry (hes e (by simp))]
      exact ih fun f hf => hes f (by simp [hf])

/-- **White space around a text does not change its words.** -/
theorem fields_trim (s : Bytes) : fields (trim s) = fields s := by
  obtain ⟨w, w', hw, hw', heq, -⟩ := exists_trim s
  conv_rhs => rw [heq, fields_white_append hw, fields_append_white hw']

/-- **The first word begins where the trimmed text does.** -/
theorem fields_cons {s rest : Bytes} {b : UInt8} (h : trim s = b :: rest) :
    ∃ word more, fields s = (b :: word) :: more := by
  have hnone : ∀ e ∈ encodings, ¬ e <+: b :: rest := h ▸ (trimmed_trim s).start
  obtain ⟨word, more, hgo⟩ := exists_fields_go (by simp : [b] ≠ []) rest
  refine ⟨word, more, ?_⟩
  rw [← fields_trim, h, fields, fields_go_other hnone, hgo]
  rfl

/-- **A text without words is blank.** -/
theorem fields_eq_nil_iff {s : Bytes} : fields s = [] ↔ trim s = [] := by
  constructor
  · intro h
    cases htrim : trim s with
    | nil => rfl
    | cons b rest =>
        obtain ⟨word, more, hwords⟩ := fields_cons htrim
        rw [h] at hwords
        cases hwords
  · intro h
    rw [← fields_trim, h]
    rfl

end ReplBridge.Blank
