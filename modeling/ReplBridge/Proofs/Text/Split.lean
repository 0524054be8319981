import Mathlib.Data.List.TakeDrop
import Mathlib.Data.List.TakeWhile
import ReplBridge.Text.Bytes

/-!
**Cutting a text at a separator.**

`Bytes.split` walks through a text once and cuts at every occurrence of a separator that does not
overlap the one before it.  What makes its answer the *leftmost* cutting can be said without
walking: the parts, each followed by the separator, spell the text; no separator ends earlier in a
part and the separator after it than at their end; and the text after the last cut holds no
separator.  These three conditions leave no freedom, also for a separator that overlaps itself, so
that any other way to cut a text (a chunk at a time, a byte at a time) only has to meet them.

Main definitions:

* `Bytes.spell` — parts with a separator after each;
* `Bytes.Cuts` — the leftmost cutting of a text into parts and a rest.

Main results:

* `Bytes.Cuts.unique` — **a text has only one leftmost cutting**;
* `Bytes.cuts_split` — **`Bytes.split` finds it**;
* `Bytes.Cuts.join` — joining the parts and the rest gives the text back;
* `Bytes.Cuts.new_part_ends` — when a text goes on, the parts cut so far stay and the new ones end
  in the new text;
* `Bytes.cutLast?_eq_some_iff` — where the last byte of a kind stands;
* `Bytes.cut?_eq_some`, `Bytes.occurs_iff`, `Bytes.after?_eq_some_iff` — where a separator begins
  for the first time, what occurs in a text, and what it begins with.
-/

set_option autoImplicit false

namespace ReplBridge.Bytes

variable {pat text rest s : Bytes} {parts : List Bytes}

/-! ### Leftmost cuttings -/

/-- Parts, with a separator after each. -/
def spell (pat : Bytes) (parts : List Bytes) : Bytes := parts.flatMap (· ++ pat)

@[simp] theorem spell_nil (pat : Bytes) : spell pat [] = [] := rfl

@[simp] theorem spell_cons (pat part : Bytes) (parts : List Bytes) :
    spell pat (part :: parts) = part ++ (pat ++ spell pat parts) := by
  simp [spell]

@[simp] theorem spell_append (pat : Bytes) (parts more : List Bytes) :
    spell pat (parts ++ more) = spell pat parts ++ spell pat more := by
  simp [spell]

/-- **The leftmost cutting of a text** at a separator. -/
structure Cuts (pat text : Bytes) (parts : List Bytes) (rest : Bytes) : Prop where
  /-- Nothing is lost. -/
  spelled : spell pat parts ++ rest = text
  /-- The separator after a part is the first one from where the part begins. -/
  first : ∀ part ∈ parts, ¬ pat <:+: part ++ pat.dropLast
  /-- There is no separator after the last cut. -/
  rest_free : ¬ pat <:+: rest

theorem Cuts.part_free (h : Cuts pat text parts rest) {part : Bytes} (hp : part ∈ parts) :
    ¬ pat <:+: part := by
  intro hin
  exact h.first part hp (hin.trans (List.prefix_append part _).isInfix)

/-- A separator that ends before the end of `part ++ pat` is one inside `part ++ pat.dropLast`. -/
theorem infix_dropLast_of_shorter {pat part part' more more' : Bytes} (hpat : pat ≠ [])
    (heq : part ++ (pat ++ more) = part' ++ (pat ++ more')) (hlt : part.length < part'.length) :
    pat <:+: part' ++ pat.dropLast := by
  -- both are beginnings of one text, and the one that ends with the separator is the shorter
  have hshort : part ++ pat <+: part ++ (pat ++ more) := by
    rw [← List.append_assoc]
    exact List.prefix_append _ _
  have hlong : part' ++ pat.dropLast <+: part ++ (pat ++ more) := by
    rw [heq]
    refine (List.prefix_append_right_inj _).2 ?_
    exact (List.dropLast_prefix pat).trans (List.prefix_append _ _)
  have hlen : (part ++ pat).length ≤ (part' ++ pat.dropLast).length := by
    have := List.length_pos_iff.2 hpat
    simp only [List.length_append, List.length_dropLast]
    omega
  have hpre : part ++ pat <+: part' ++ pat.dropLast :=
    List.prefix_of_prefix_length_le hshort hlong hlen
  exact (List.suffix_append part pat).isInfix.trans hpre.isInfix

/-- **A text has only one leftmost cutting.** -/
theorem Cuts.unique (hpat : pat ≠ []) {parts parts' : List Bytes} :
    ∀ {text rest rest' : Bytes}, Cuts pat text parts rest → Cuts pat text parts' rest' →
      parts = parts' ∧ rest = rest' := by
  induction parts generalizing parts' with
  | nil =>
      intro text rest rest' h h'
      cases parts' with
      | nil => exact ⟨rfl, by simpa using h.spelled.trans h'.spelled.symm⟩
      | cons part' parts' =>
          have heq := h.spelled.trans h'.spelled.symm
          simp only [spell_nil, List.nil_append, spell_cons, List.append_assoc] at heq
          exact absurd ⟨part', _, by rw [heq, List.append_assoc]⟩ h.rest_free
  | cons part parts ih =>
      intro text rest rest' h h'
      cases parts' with
      | nil =>
          have heq := h'.spelled.trans h.spelled.symm
          simp only [spell_nil, List.nil_append, spell_cons, List.append_assoc] at heq
          exact absurd ⟨part, _, by rw [heq, List.append_assoc]⟩ h'.rest_free
      | cons part' parts' =>
          have heq := h.spelled.trans h'.spelled.symm
          simp only [spell_cons, List.append_assoc] at heq
          -- the first parts have one length, since the longer would hold a separator too early
          have hlen : part.length = part'.length := by
            rcases Nat.lt_trichotomy part.length part'.length with hlt | hlen | hlt
            · exact absurd (infix_dropLast_of_shorter hpat heq hlt) (h'.first part' (by simp))
            · exact hlen
            · exact absurd (infix_dropLast_of_shorter hpat heq.symm hlt) (h.first part (by simp))
          obtain ⟨rfl, htail⟩ := List.append_inj heq hlen
          have hrest := List.append_cancel_left htail
          have hrec : Cuts pat (spell pat parts ++ rest) parts rest :=
            ⟨rfl, fun p hp => h.first p (by simp [hp]), h.rest_free⟩
          have hrec' : Cuts pat (spell pat parts ++ rest) parts' rest' :=
            ⟨hrest.symm, fun p hp => h'.first p (by simp [hp]), h'.rest_free⟩
          obtain ⟨rfl, rfl⟩ := ih hrec hrec'
          exact ⟨rfl, rfl⟩

/-- Joined parts have a separator after each but the last. -/
theorem join_concat (pat : Bytes) (parts : List Bytes) (rest : Bytes) :
    join pat (parts ++ [rest]) = spell pat parts ++ rest := by
  rw [join]
  induction parts with
  | nil => simp [List.intercalate_singleton]
  | cons part parts ih =>
      rw [List.cons_append, List.intercalate_cons_of_ne_nil (by simp), ih, spell_cons]
      simp

/-- Joining the parts and the rest gives the text back. -/
theorem Cuts.join (h : Cuts pat text parts rest) : Bytes.join pat (parts ++ [rest]) = text := by
  rw [join_concat, h.spelled]

/-- A text that goes on is cut from where the last part ended. -/
theorem Cuts.append {pat text more rest rest' : Bytes} {parts new : List Bytes}
    (h : Cuts pat text parts rest) (h' : Cuts pat (rest ++ more) new rest') :
    Cuts pat (text ++ more) (parts ++ new) rest' := by
  refine ⟨?_, ?_, h'.rest_free⟩
  · rw [spell_append, List.append_assoc, h'.spelled, ← List.append_assoc, h.spelled]
  · intro part hpart
    rcases List.mem_append.1 hpart with hpart | hpart
    · exact h.first part hpart
    · exact h'.first part hpart

/-- What a text that goes on adds to its cutting: the separator of every new part ends in the new
text. -/
theorem Cuts.new_part_ends {pat text more rest rest' : Bytes} {parts new : List Bytes}
    (h : Cuts pat text parts rest) (h' : Cuts pat (text ++ more) (parts ++ new) rest') {n : Nat}
    (hn : n < new.length) :
    text.length < (spell pat (parts ++ new.take (n + 1))).length ∧
      (spell pat (parts ++ new.take (n + 1))).length ≤ (text ++ more).length := by
  have hpre : spell pat (parts ++ new.take (n + 1)) <+: text ++ more := by
    rw [← h'.spelled]
    conv => rhs; rw [← List.take_append_drop (n + 1) new]
    simp only [spell_append, List.append_assoc]
    rw [← List.append_assoc]
    exact List.prefix_append _ _
  refine ⟨?_, hpre.length_le⟩
  -- otherwise the first of the new parts would end before, where no separator is left
  rcases Nat.lt_or_ge text.length (spell pat (parts ++ new.take (n + 1))).length with hlt | hge
  · exact hlt
  · have hin := List.prefix_of_prefix_length_le hpre (List.prefix_append text more) hge
    rw [← h.spelled, spell_append, List.prefix_append_right_inj] at hin
    cases new with
    | nil => simp at hn
    | cons part new =>
        rw [List.take_succ_cons, spell_cons] at hin
        have hpat : pat <:+: part ++ (pat ++ spell pat (new.take n)) := 
          ⟨part, spell pat (new.take n), by simp⟩
        exact absurd (hpat.trans hin.isInfix) h.rest_free

/-! ### The walk of `Bytes.split` -/

/-- Bytes that still belong to an occurrence are passed over. -/
theorem split_go_skip (pat : Bytes) (done : List Bytes) (part : Bytes) (skip : Nat) (s : Bytes) :
    split.go pat done part skip s = split.go pat done part 0 (s.drop skip) := by
  induction s generalizing skip with
  | nil => cases skip <;> simp [split.go]
  | cons b rest ih =>
      cases skip with
      | zero => rfl
      | succ skip => rw [split.go, ih, List.drop_succ_cons]

/-- A separator inside a text begins inside it. -/
theorem begins_before_end (hpat : pat ≠ []) (h : pat <:+: text) :
    ∃ i < text.length, pat <+: text.drop i := by
  obtain ⟨before, after, rfl⟩ := h
  have hpos := List.length_pos_iff.2 hpat
  refine ⟨before.length, by simp; omega, after, ?_⟩
  rw [List.append_assoc, List.drop_left]

/-- If no separator begins inside a part, the one that follows it is the first. -/
theorem first_of_none_begins {pat part after : Bytes} (hpat : pat ≠ [])
    (hnone : ∀ i < part.length, ¬ pat <+: (part ++ (pat ++ after)).drop i) :
    ¬ pat <:+: part ++ pat.dropLast := by
  rintro ⟨before, between, heq⟩
  have hpos := List.length_pos_iff.2 hpat
  have hlen := congrArg List.length heq
  simp only [List.length_append, List.length_dropLast] at hlen
  have hfull : part ++ (pat ++ after) =
      before ++ (pat ++ (between ++ ([pat.getLast hpat] ++ after))) := by
    conv => lhs; rw [← List.dropLast_concat_getLast hpat]
    rw [List.append_assoc, ← List.append_assoc part, ← heq]
    simp
  refine hnone before.length (by omega) ?_
  rw [hfull, List.drop_left]
  exact List.prefix_append _ _

/-- The walk with a part under way, if no separator begins inside that part. -/
theorem cuts_split_go (hpat : pat ≠ []) (done : List Bytes) (part s : Bytes)
    (hnone : ∀ i < part.length, ¬ pat <+: (part.reverse ++ s).drop i) :
    ∃ parts rest, split.go pat done part 0 s = done.reverse ++ (parts ++ [rest]) ∧
      Cuts pat (part.reverse ++ s) parts rest := by
  -- on the length of what is left, since a separator is passed over in one go
  induction hn : s.length using Nat.strongRecOn generalizing done part s with
  | ind n ih =>
      subst hn
      cases s with
      | nil =>
          refine ⟨[], part.reverse, by simp [split.go], by simp, by simp, ?_⟩
          intro hin
          obtain ⟨i, hi, hpre⟩ := begins_before_end hpat hin
          exact hnone i (by simpa using hi) (by simpa using hpre)
      | cons b s =>
          by_cases hpre : pat <+: b :: s
          · -- a cut: the part ends here, and the next one begins after the separator
            obtain ⟨after, hafter⟩ := hpre
            have hpos := List.length_pos_iff.2 hpat
            have hlen := congrArg List.length hafter
            rw [List.length_append] at hlen
            have hskip : s.drop (pat.length - 1) = after := by
              rw [← List.drop_succ_cons (a := b), Nat.sub_add_cancel hpos, ← hafter,
                List.drop_left]
            obtain ⟨parts, rest, hgo, hcuts⟩ :=
              ih after.length (by omega) (part.reverse :: done) [] after (by simp) rfl
            rw [← hafter] at hnone
            refine ⟨part.reverse :: parts, rest, ?_, ?_, ?_, hcuts.rest_free⟩
            · rw [split.go, if_pos (List.isPrefixOf_iff_prefix.2 ⟨after, hafter⟩),
                split_go_skip, hskip, hgo]
              simp
            · rw [← hafter]
              simpa using hcuts.spelled
            · intro p hp
              rcases List.mem_cons.1 hp with rfl | hp
              · exact first_of_none_begins hpat (by simpa using hnone)
              · exact hcuts.first p hp
          · -- no cut: the byte joins the part, and no separator begins with it
            have hsame : (b :: part).reverse ++ s = part.reverse ++ b :: s := by simp
            have hnext : ∀ i < (b :: part).length, ¬ pat <+: ((b :: part).reverse ++ s).drop i := by
              intro i hi
              rw [hsame]
              rcases Nat.lt_or_ge i part.length with hlt | hge
              · exact hnone i hlt
              · have hlast : i = part.reverse.length := by
                  simp only [List.length_cons, List.length_reverse] at *
                  omega
                rw [hlast, List.drop_left]
                exact hpre
            obtain ⟨parts, rest, hgo, hcuts⟩ := ih s.length (by simp) done (b :: part) s hnext rfl
            rw [hsame] at hcuts
            refine ⟨parts, rest, ?_, hcuts⟩
            rw [split.go, if_neg (fun h => hpre (List.isPrefixOf_iff_prefix.1 h)), hgo]

/-- **`Bytes.split` finds the leftmost cutting.** -/
theorem cuts_split (hpat : pat ≠ []) (text : Bytes) :
    ∃ parts rest, split pat text = parts ++ [rest] ∧ Cuts pat text parts rest := by
  obtain ⟨parts, rest, hgo, hcuts⟩ :=
    cuts_split_go hpat [] [] text (by simp)
  exact ⟨parts, rest, by simpa [split] using hgo, by simpa using hcuts⟩

/-- Whoever meets the conditions of a leftmost cutting has found what `Bytes.split` finds. -/
theorem Cuts.eq_split (hpat : pat ≠ []) (h : Cuts pat text parts rest) :
    parts ++ [rest] = split pat text := by
  obtain ⟨parts', rest', hsplit, h'⟩ := cuts_split hpat text
  obtain ⟨rfl, rfl⟩ := h.unique hpat h'
  exact hsplit.symm

/-! ### The last byte of a kind -/

theorem cutLast?_of_free {p : UInt8 → Bool} (h : ∀ b ∈ s, p b = false) : cutLast? p s = none := by
  have hall : s.reverse.dropWhile (fun b => !p b) = [] := by
    rw [List.dropWhile_eq_nil_iff]
    intro b hb
    simp [h b (List.mem_reverse.1 hb)]
  unfold cutLast?
  rw [List.span_eq_takeWhile_dropWhile, hall]

theorem cutLast?_append {p : UInt8 → Bool} (before : Bytes) {b : UInt8} {body : Bytes}
    (hb : p b = true) (hbody : ∀ a ∈ body, p a = false) :
    cutLast? p (before ++ b :: body) = some (before, body) := by
  have hback : (before ++ b :: body).reverse = body.reverse ++ b :: before.reverse := by simp
  have hfree : ∀ a ∈ body.reverse, (!p a) = true := by
    intro a ha
    simp [hbody a (List.mem_reverse.1 ha)]
  have hspan : (body.reverse ++ b :: before.reverse).span (fun a => !p a) =
      (body.reverse, b :: before.reverse) := by
    rw [List.span_eq_takeWhile_dropWhile, List.takeWhile_append_of_pos hfree,
      List.dropWhile_append_of_pos hfree]
    simp [hb]
  unfold cutLast?
  rw [hback, hspan]
  simp

/-- A text has no byte of a kind, or it has a last one. -/
theorem free_or_last (p : UInt8 → Bool) (s : Bytes) :
    (∀ b ∈ s, p b = false) ∨
      ∃ before b body, s = before ++ b :: body ∧ p b = true ∧ ∀ a ∈ body, p a = false := by
  induction s with
  | nil => simp
  | cons c s ih =>
      rcases ih with hfree | ⟨before, b, body, rfl, hb, hbody⟩
      · cases hc : p c with
        | false => exact .inl (by simpa [hc] using hfree)
        | true => exact .inr ⟨[], c, s, rfl, hc, hfree⟩
      · exact .inr ⟨c :: before, b, body, rfl, hb, hbody⟩

theorem cutLast?_eq_some_iff {p : UInt8 → Bool} {s before body : Bytes} :
    cutLast? p s = some (before, body) ↔
      ∃ b, s = before ++ b :: body ∧ p b = true ∧ ∀ a ∈ body, p a = false := by
  constructor
  · intro h
    rcases free_or_last p s with hfree | ⟨before', b, body', rfl, hb, hbody⟩
    · rw [cutLast?_of_free hfree] at h
      cases h
    · rw [cutLast?_append before' hb hbody] at h
      cases h
      exact ⟨b, rfl, hb, hbody⟩
  · rintro ⟨b, rfl, hb, hbody⟩
    exact cutLast?_append before hb hbody

/-! ### Occurrences -/

theorem cut?_go_isSome (hpat : pat ≠ []) (passed s : Bytes) :
    (cut?.go pat passed s).isSome = true ↔ pat <:+: s := by
  induction s generalizing passed with
  | nil => simp [cut?.go, hpat]
  | cons b s ih =>
      rw [cut?.go, List.infix_cons_iff]
      split
      · rename_i hpre
        simp [List.isPrefixOf_iff_prefix.1 hpre]
      · rename_i hpre
        rw [List.isPrefixOf_iff_prefix] at hpre
        simp [ih, hpre]

theorem cut?_go_eq_some {pat passed s before rest : Bytes} (hpat : pat ≠ [])
    (h : cut?.go pat passed s = some (before, rest)) :
    ∃ part, before = passed.reverse ++ part ∧ s = part ++ (pat ++ rest) ∧
      ∀ i < part.length, ¬ pat <+: s.drop i := by
  induction s generalizing passed with
  | nil => simp [cut?.go, hpat] at h
  | cons b s ih =>
      rw [cut?.go] at h
      split at h
      · rename_i hpre
        obtain ⟨after, hafter⟩ := List.isPrefixOf_iff_prefix.1 hpre
        obtain ⟨rfl, rfl⟩ := Prod.mk.inj (Option.some.inj h)
        exact ⟨[], by simp, by simp [← hafter], by simp⟩
      · rename_i hpre
        obtain ⟨part, rfl, hs, hnone⟩ := ih h
        refine ⟨b :: part, by simp, by rw [hs, List.cons_append], ?_⟩
        intro i hi
        cases i with
        | zero => rwa [List.drop_zero, ← List.isPrefixOf_iff_prefix]
        | succ i => exact hnone i (Nat.lt_of_succ_lt_succ hi)

/-- A text is cut where the separator begins for the first time. -/
theorem cut?_eq_some {pat s before rest : Bytes} (hpat : pat ≠ [])
    (h : cut? pat s = some (before, rest)) :
    s = before ++ (pat ++ rest) ∧ ∀ i < before.length, ¬ pat <+: s.drop i := by
  obtain ⟨part, rfl, hs, hnone⟩ := cut?_go_eq_some hpat h
  exact ⟨hs, hnone⟩

/-- A text that is not cut holds no separator. -/
theorem cut?_eq_none (hpat : pat ≠ []) (h : cut? pat s = none) : ¬ pat <:+: s := by
  rw [← cut?_go_isSome hpat []]
  simp [show cut?.go pat [] s = none from h]

theorem occurs_iff (hpat : pat ≠ []) : occurs pat s = true ↔ pat <:+: s :=
  cut?_go_isSome hpat [] s

theorem after?_eq_some_iff {lead s rest : Bytes} :
    after? lead s = some rest ↔ s = lead ++ rest := by
  unfold after?
  constructor
  · intro h
    split at h
    · rename_i hlead
      obtain ⟨t, rfl⟩ := List.isPrefixOf_iff_prefix.1 hlead
      rw [List.drop_left] at h
      rw [Option.some.inj h]
    · cases h
  · rintro rfl
    rw [if_pos (List.isPrefixOf_iff_prefix.2 (List.prefix_append lead rest)), List.drop_left]

end ReplBridge.Bytes
