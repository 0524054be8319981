import Mathlib.Data.List.Infix
import ReplBridge.Proofs.Text.Split

/-!
**Joining parts and cutting them apart again.**

`Bytes.join` puts a separator between parts, and `Bytes.split` takes it out.  Parts come back as they
were if no separator begins inside one of them, and a byte that does not belong to the separator
keeps what stands on its two sides apart.  Exchanging one separator for another is cutting at the
one and joining with the other, so that writing the end of a line in another way can be undone.

Main definitions:

* `Bytes.crlf`, `Bytes.lf` — line ends with a carriage return, and without.

Main results:

* `Bytes.infix_join` — a pattern is found in a joined text only inside a part;
* `Bytes.split_join` — **parts come back from the text that joins them**;
* `Bytes.split_append_cons` — a text that goes on after a separator;
* `Bytes.replace_append`, `Bytes.replace_cons` — exchanging goes through a text from the left;
* `Bytes.lf_crlf` — **carriage returns that were put in can be taken out**;
* `Bytes.split_crlf` — the lines of a text with carriage returns.
-/

set_option autoImplicit false

namespace ReplBridge.Bytes

variable {pat s : Bytes} {b : UInt8}

/-! ### Patterns in longer texts -/

/-- A byte that does not belong to the pattern keeps its two sides apart. -/
theorem infix_append_cons {pat s t : Bytes} (hb : b ∉ pat) :
    pat <:+: s ++ b :: t ↔ pat <:+: s ∨ pat <:+: t := by
  constructor
  · rintro ⟨before, after, heq⟩
    rcases List.append_eq_append_iff.1 heq with ⟨more, rfl, -⟩ | ⟨cut, hcut, hafter⟩
    · exact .inl (List.infix_append before pat more)
    cases cut with
    | nil =>
        rw [List.append_nil] at hcut
        exact .inl ⟨before, [], by simp [hcut]⟩
    | cons c cut =>
        obtain ⟨rfl, rfl⟩ := List.cons.inj hafter
        -- The pattern reaches behind the byte, so it begins behind it.
        rcases List.append_eq_append_iff.1 hcut with ⟨more, -, hpat⟩ | ⟨gap, -, hgap⟩
        · exact absurd (by simp [hpat]) hb
        cases gap with
        | nil =>
            rw [List.nil_append] at hgap
            exact absurd (by simp [← hgap]) hb
        | cons g gap =>
            obtain ⟨-, rfl⟩ := List.cons.inj hgap
            exact .inr ⟨gap, after, rfl⟩
  · rintro (h | h)
    · exact h.trans List.infix_append_left
    · exact (h.trans (List.suffix_cons b t).isInfix).trans List.infix_append_right

/-- The same for several such bytes, of which there is at least one. -/
theorem infix_append_foreign {pat sep s t : Bytes} (hpat : pat ≠ []) (hsep : sep ≠ [])
    (hforeign : ∀ b ∈ sep, b ∉ pat) : pat <:+: s ++ (sep ++ t) ↔ pat <:+: s ∨ pat <:+: t := by
  induction sep generalizing s with
  | nil => exact absurd rfl hsep
  | cons b sep ih =>
      rw [List.cons_append, infix_append_cons (hforeign b (by simp))]
      cases sep with
      | nil => rw [List.nil_append]
      | cons c sep =>
          have hrest := ih (s := []) (by simp) fun d hd => hforeign d (by simp [hd])
          rw [List.nil_append] at hrest
          rw [hrest, List.infix_nil]
          simp [hpat]

/-- A pattern does not reach into a text without its last byte. -/
theorem infix_append_concat {pat s t : Bytes} {c : UInt8} (hc : c ∉ t) :
    pat ++ [c] <:+: s ++ t ↔ pat ++ [c] <:+: s := by
  constructor
  · rintro ⟨before, after, heq⟩
    have heq : (before ++ (pat ++ [c])) ++ after = s ++ t := heq
    rcases List.append_eq_append_iff.1 heq with ⟨more, rfl, -⟩ | ⟨beyond, hbeyond, rfl⟩
    · exact List.infix_append before (pat ++ [c]) more
    · -- What reaches beyond the first text ends with the last byte.
      rcases List.eq_nil_or_concat beyond with rfl | ⟨beyond, d, rfl⟩
      · exact ⟨before, [], by simpa using hbeyond⟩
      · rw [List.concat_eq_append, ← List.append_assoc, ← List.append_assoc] at hbeyond
        obtain ⟨rfl, -⟩ := List.cons.inj (List.append_inj' hbeyond rfl).2
        exact absurd (by simp) hc
  · exact fun h => h.trans List.infix_append_left

/-- A pattern does not begin in a text without its first byte. -/
theorem infix_append_of_head {pat s t : Bytes} {c : UInt8} (hc : c ∉ s) :
    c :: pat <:+: s ++ t ↔ c :: pat <:+: t := by
  induction s with
  | nil => rfl
  | cons b s ih =>
      rw [List.mem_cons, not_or] at hc
      rw [List.cons_append, List.infix_cons_iff, ih hc.2, or_iff_right]
      intro h
      exact hc.1 (List.cons_prefix_cons.1 h).1

/-! ### Joining -/

@[simp] theorem join_nil (sep : Bytes) : join sep [] = [] := rfl

@[simp] theorem join_singleton (sep part : Bytes) : join sep [part] = part :=
  List.intercalate_singleton

theorem join_cons {sep part : Bytes} {parts : List Bytes} (h : parts ≠ []) :
    join sep (part :: parts) = part ++ (sep ++ join sep parts) := by
  rw [join, List.intercalate_cons_of_ne_nil h, List.append_assoc, join]

theorem join_append {sep : Bytes} {parts more : List Bytes} (hparts : parts ≠ [])
    (hmore : more ≠ []) : join sep (parts ++ more) = join sep parts ++ (sep ++ join sep more) := by
  induction parts with
  | nil => exact absurd rfl hparts
  | cons part parts ih =>
      cases parts with
      | nil => rw [List.singleton_append, join_cons hmore, join_singleton]
      | cons next parts =>
          rw [List.cons_append, join_cons (by simp), join_cons (by simp), ih (by simp)]
          simp

/-- A pattern is found in a joined text only inside a part, if the separator has none of its
bytes. -/
theorem infix_join {pat sep : Bytes} (hpat : pat ≠ []) (hsep : sep ≠ [])
    (hforeign : ∀ b ∈ sep, b ∉ pat) (parts : List Bytes) :
    pat <:+: join sep parts ↔ ∃ part ∈ parts, pat <:+: part := by
  induction parts with
  | nil => simp [hpat]
  | cons part parts ih =>
      cases parts with
      | nil => simp
      | cons next parts =>
          rw [join_cons (by simp), infix_append_foreign hpat hsep hforeign, ih]
          simp

/-! ### Cutting what was joined -/

/-- **Parts come back from the text that joins them**, if the separator after a part is the first
one from where the part begins. -/
theorem split_join (hpat : pat ≠ []) {parts : List Bytes} (hparts : parts ≠ [])
    (hfirst : ∀ part ∈ parts, ¬ pat <:+: part ++ pat.dropLast) :
    split pat (join pat parts) = parts := by
  have hsame := List.dropLast_concat_getLast hparts
  generalize parts.dropLast = front at hsame
  generalize parts.getLast hparts = last at hsame
  subst hsame
  have hcuts : Cuts pat (join pat (front ++ [last])) front last := by
    refine ⟨(join_concat pat front last).symm, fun part hp => hfirst part (by simp [hp]), ?_⟩
    intro hin
    exact hfirst last (by simp) (hin.trans List.infix_append_left)
  exact (hcuts.eq_split hpat).symm

theorem join_split (hpat : pat ≠ []) (s : Bytes) : join pat (split pat s) = s := by
  obtain ⟨parts, rest, hsplit, hcuts⟩ := cuts_split hpat s
  rw [hsplit, hcuts.join]

theorem split_ne_nil (hpat : pat ≠ []) (s : Bytes) : split pat s ≠ [] := by
  obtain ⟨parts, rest, hsplit, -⟩ := cuts_split hpat s
  simp [hsplit]

/-- A text without the separator is its only part. -/
theorem split_of_free (hpat : pat ≠ []) (h : ¬ pat <:+: s) : split pat s = [s] := by
  have hcuts : Cuts pat s [] s := ⟨rfl, nofun, h⟩
  exact (hcuts.eq_split hpat).symm

theorem free_of_mem_split {pat s part : Bytes} (hpat : pat ≠ []) (h : part ∈ split pat s) :
    ¬ pat <:+: part := by
  obtain ⟨parts, rest, hsplit, hcuts⟩ := cuts_split hpat s
  rw [hsplit, List.mem_append, List.mem_singleton] at h
  rcases h with h | rfl
  · exact hcuts.part_free h
  · exact hcuts.rest_free

/-! ### Separators of one byte -/

theorem not_mem_of_mem_split {s part : Bytes} (h : part ∈ split [b] s) : b ∉ part := by
  rw [← List.singleton_infix_iff]
  exact free_of_mem_split (by simp) h

/-- Parts without the separator come back. -/
theorem split_join_byte {parts : List Bytes} (hparts : parts ≠ []) (h : ∀ part ∈ parts, b ∉ part) :
    split [b] (join [b] parts) = parts := by
  refine split_join (by simp) hparts ?_
  intro part hp
  rw [List.dropLast_singleton, List.append_nil, List.singleton_infix_iff]
  exact h part hp

/-- **A text that goes on after a separator** has the parts before it and those after it. -/
theorem split_append_cons (b : UInt8) (s t : Bytes) :
    split [b] (s ++ b :: t) = split [b] s ++ split [b] t := by
  have hs : split [b] s ≠ [] := split_ne_nil (by simp) s
  have ht : split [b] t ≠ [] := split_ne_nil (by simp) t
  have hjoin : s ++ b :: t = join [b] (split [b] s ++ split [b] t) := by
    rw [join_append hs ht, join_split (by simp), join_split (by simp)]
    rfl
  rw [hjoin]
  refine split_join_byte (by simp [hs]) ?_
  intro part hp
  rcases List.mem_append.1 hp with hp | hp
  · exact not_mem_of_mem_split hp
  · exact not_mem_of_mem_split hp

/-! ### Exchanging -/

/-- A pattern that shares no byte with what is exchanged, nor with what it is exchanged for, is found
as before. -/
theorem infix_replace {pat old new : Bytes} (hpat : pat ≠ []) (hold : old ≠ []) (hnew : new ≠ [])
    (hforeign : ∀ b ∈ old ++ new, b ∉ pat) (s : Bytes) :
    pat <:+: replace old new s ↔ pat <:+: s := by
  have hbefore := infix_join hpat hold (fun b hb => hforeign b (by simp [hb])) (split old s)
  rw [join_split hold] at hbefore
  rw [replace, infix_join hpat hnew fun b hb => hforeign b (by simp [hb]), hbefore]

/-- An occurrence at the front is exchanged. -/
theorem replace_append {old : Bytes} (hold : old ≠ []) (new s : Bytes) :
    replace old new (old ++ s) = new ++ replace old new s := by
  obtain ⟨parts, rest, hsplit, hcuts⟩ := cuts_split hold s
  have hwhole : Cuts old (old ++ s) ([] :: parts) rest := by
    refine ⟨?_, ?_, hcuts.rest_free⟩
    · rw [spell_cons, List.nil_append, List.append_assoc, hcuts.spelled]
    · intro part hp
      rcases List.mem_cons.1 hp with rfl | hp
      · intro hin
        have hpos := List.length_pos_iff.2 hold
        have hlen := hin.length_le
        rw [List.nil_append, List.length_dropLast] at hlen
        omega
      · exact hcuts.first part hp
  rw [replace, replace, ← hwhole.eq_split hold, hsplit, List.cons_append, join_cons (by simp)]
  rfl

/-- A byte at which no occurrence begins stays. -/
theorem replace_cons {old : Bytes} (hold : old ≠ []) (h : ¬ old <+: b :: s) (new : Bytes) :
    replace old new (b :: s) = b :: replace old new s := by
  obtain ⟨parts, rest, hsplit, hcuts⟩ := cuts_split hold s
  have hspelled := hcuts.spelled
  rw [replace, replace, hsplit]
  cases parts with
  | nil =>
      have hwhole : Cuts old (b :: s) [] (b :: rest) := by
        refine ⟨by simpa using hspelled, nofun, ?_⟩
        intro hin
        rcases List.infix_cons_iff.1 hin with hp | hin
        · rw [spell_nil, List.nil_append] at hspelled
          exact h (hspelled ▸ hp)
        · exact hcuts.rest_free hin
      rw [← hwhole.eq_split hold]
      simp
  | cons part parts =>
      have hwhole : Cuts old (b :: s) ((b :: part) :: parts) rest := by
        refine ⟨by simpa using hspelled, ?_, hcuts.rest_free⟩
        intro q hq
        rcases List.mem_cons.1 hq with rfl | hq
        · intro hin
          rcases List.infix_cons_iff.1 hin with hp | hin
          · refine h (hp.trans ?_)
            -- What stands behind the part begins with the separator.
            rw [← hspelled, spell_cons, List.append_assoc, List.cons_prefix_cons]
            refine ⟨rfl, (List.prefix_append_right_inj part).2 ?_⟩
            rw [List.append_assoc]
            exact (List.dropLast_prefix old).trans (List.prefix_append old _)
          · exact hcuts.first part (by simp) hin
        · exact hcuts.first q (by simp [hq])
      rw [← hwhole.eq_split hold, List.cons_append, List.cons_append]
      exact List.intercalate_cons_cons_left

/-! ### Line ends -/

/-- **A carriage return in front of every newline.** -/
def crlf (s : Bytes) : Bytes := replace [newline] [carriageReturn, newline] s

/-- **No carriage return in front of a newline.** -/
def lf (s : Bytes) : Bytes := replace [carriageReturn, newline] [newline] s

theorem lf_pair (s : Bytes) : lf (carriageReturn :: newline :: s) = newline :: lf s :=
  replace_append (by simp) [newline] s

theorem lf_cons (h : ¬ [carriageReturn, newline] <+: b :: s) : lf (b :: s) = b :: lf s :=
  replace_cons (by simp) h [newline]

/-- Nothing changes up to the first carriage return. -/
theorem lf_append (h : carriageReturn ∉ s) (t : Bytes) : lf (s ++ t) = s ++ lf t := by
  induction s with
  | nil => rfl
  | cons b s ih =>
      rw [List.mem_cons, not_or] at h
      have hb : ¬ [carriageReturn, newline] <+: b :: (s ++ t) := by
        rw [List.cons_prefix_cons]
        exact fun hp => h.1 hp.1
      rw [List.cons_append, lf_cons hb, ih h.2, List.cons_append]

theorem lf_of_not_mem (h : carriageReturn ∉ s) : lf s = s := by
  have happend := lf_append h []
  rw [List.append_nil] at happend
  rw [happend]
  exact List.append_nil s

/-- **Carriage returns that were put in can be taken out.** -/
theorem lf_crlf (s : Bytes) : lf (crlf s) = s := by
  have hlines : split [carriageReturn, newline] (crlf s) = split [newline] s := by
    rw [crlf, replace]
    refine split_join (by simp) (split_ne_nil (by simp) s) ?_
    intro part hp hin
    have hmem : newline ∈ part ++ [carriageReturn] := hin.subset (by simp)
    have hnot := not_mem_of_mem_split hp
    rw [List.mem_append, List.mem_singleton] at hmem
    rcases hmem with hmem | hmem
    · exact hnot hmem
    · cases hmem
  rw [lf, replace, hlines, join_split (by simp)]

/-- The lines of a text with carriage returns: each but the last ends in one. -/
theorem split_crlf (s : Bytes) : ∃ parts rest, split [newline] s = parts ++ [rest] ∧
    split [newline] (crlf s) = parts.map (· ++ [carriageReturn]) ++ [rest] := by
  have hpat : [newline] ≠ ([] : Bytes) := by simp
  obtain ⟨parts, rest, hsplit, -⟩ := cuts_split hpat s
  refine ⟨parts, rest, hsplit, ?_⟩
  have hspell : spell [carriageReturn, newline] parts =
      spell [newline] (parts.map (· ++ [carriageReturn])) := by
    simp [spell, List.flatMap_map]
  rw [crlf, replace, hsplit, join_concat, hspell, ← join_concat]
  refine split_join_byte (by simp) ?_
  intro part hp
  rw [List.mem_append, List.mem_map, List.mem_singleton] at hp
  have hfree {q : Bytes} (hq : q ∈ parts ++ [rest]) : newline ∉ q :=
    not_mem_of_mem_split (hsplit ▸ hq)
  rcases hp with ⟨q, hq, rfl⟩ | rfl
  · have hq := hfree (List.mem_append_left [rest] hq)
    simpa [newline, carriageReturn] using hq
  · exact hfree (by simp)

end ReplBridge.Bytes
