import ReplBridge.Proofs.Text.Join
import ReplBridge.Text.Blank

/-!
**Trimming, said without walking.**

White space is a table of byte sequences, and trimming takes whole entries from an end while there
are any.  The table is prefix-free, read from either end, so what is taken is determined; and a later
byte of an entry is never the first byte of one, so white space that follows a text cannot complete
an entry that the text only begins.  Hence a text has one core: what is left between two runs of
white space and neither begins nor ends with an entry.

Main definitions:

* `Blank.PrefixFree` — a table whose entries can be told apart;
* `Blank.White` — white space throughout;
* `Blank.Trimmed` — no white space at either end;
* `Blank.Solid` — no byte that white space begins with.

Main results:

* `Blank.dropEntries_append`, `Blank.exists_dropped` — what is dropped from the front;
* `Blank.exists_trim`, `Blank.trim_eq` — **trimming finds the core of a text**, and there is only
  one;
* `Blank.isBlank_iff` — a text is blank if its core is empty;
* `Blank.prefix_trim_lf` — line ends do not matter for what a text begins with.
-/

set_option autoImplicit false

namespace ReplBridge.Blank

variable {table : List Bytes} {e s w pat : Bytes}

/-! ### Dropping entries of a table -/

/-- A table whose entries can be told apart: none is empty, and none begins another. -/
structure PrefixFree (table : List Bytes) : Prop where
  /-- No entry is empty. -/
  full : ∀ e ∈ table, e ≠ []
  /-- No entry begins another. -/
  apart : ∀ e ∈ table, ∀ f ∈ table, e <+: f → e = f

theorem dropEntries_go_skip (table : List Bytes) (skip : Nat) (s : Bytes) :
    dropEntries.go table skip s = dropEntries.go table 0 (s.drop skip) := by
  induction s generalizing skip with
  | nil => cases skip <;> rfl
  | cons b rest ih =>
      cases skip with
      | zero => rfl
      | succ skip => rw [dropEntries.go, ih, List.drop_succ_cons]

/-- An entry at the front is the one that is found. -/
theorem PrefixFree.find?_append (h : PrefixFree table) (he : e ∈ table) (s : Bytes) :
    table.find? (·.isPrefixOf (e ++ s)) = some e := by
  have hbegins : e.isPrefixOf (e ++ s) = true :=
    List.isPrefixOf_iff_prefix.2 (List.prefix_append e s)
  cases hfind : table.find? (·.isPrefixOf (e ++ s)) with
  | none => exact absurd hbegins (List.find?_eq_none.1 hfind e he)
  | some f =>
      have hfound : f.isPrefixOf (e ++ s) = true :=
        List.find?_some (p := fun f : Bytes => f.isPrefixOf (e ++ s)) hfind
      have hf := List.isPrefixOf_iff_prefix.1 hfound
      have hmem := List.mem_of_find?_eq_some hfind
      -- Of two entries that begin one text, one begins the other.
      rcases List.prefix_or_prefix_of_prefix hf (List.prefix_append e s) with hp | hp
      · rw [h.apart f hmem e he hp]
      · rw [h.apart e he f hmem hp]

/-- An entry at the front is dropped. -/
theorem dropEntries_append (h : PrefixFree table) (he : e ∈ table) (s : Bytes) :
    dropEntries table (e ++ s) = dropEntries table s := by
  have hfind := h.find?_append he s
  cases e with
  | nil => exact absurd rfl (h.full [] he)
  | cons b more =>
      rw [List.cons_append] at hfind ⊢
      rw [dropEntries, dropEntries.go, hfind]
      show dropEntries.go table ((b :: more).length - 1) (more ++ s) = _
      rw [dropEntries_go_skip, List.length_cons, Nat.add_sub_cancel, List.drop_left]
      rfl

theorem dropEntries_flatten {table es : List Bytes} (h : PrefixFree table)
    (hes : ∀ e ∈ es, e ∈ table) (s : Bytes) :
    dropEntries table (es.flatten ++ s) = dropEntries table s := by
  induction es with
  | nil => rfl
  | cons e es ih =>
      rw [List.flatten_cons, List.append_assoc, dropEntries_append h (hes e (by simp)),
        ih fun f hf => hes f (by simp [hf])]

/-- Where no entry begins, nothing is dropped. -/
theorem dropEntries_of_none (h : ∀ e ∈ table, ¬ e <+: s) : dropEntries table s = s := by
  cases s with
  | nil => rfl
  | cons b rest =>
      have hfind : table.find? (·.isPrefixOf (b :: rest)) = none := by
        refine List.find?_eq_none.2 ?_
        intro e he hp
        exact h e he (List.isPrefixOf_iff_prefix.1 hp)
      simp [dropEntries, dropEntries.go, hfind]

/-- **What is dropped are entries, and all that can be.** -/
theorem exists_dropped (h : PrefixFree table) (s : Bytes) :
    ∃ es : List Bytes, (∀ e ∈ es, e ∈ table) ∧ s = es.flatten ++ dropEntries table s ∧
      ∀ e ∈ table, ¬ e <+: dropEntries table s := by
  induction hn : s.length using Nat.strongRecOn generalizing s with
  | ind n ih =>
      by_cases hnone : ∀ e ∈ table, ¬ e <+: s
      · refine ⟨[], nofun, ?_, ?_⟩
        · rw [dropEntries_of_none hnone]
          rfl
        · rw [dropEntries_of_none hnone]
          exact hnone
      · simp only [not_forall, not_not] at hnone
        obtain ⟨e, he, rest, rfl⟩ := hnone
        have hshorter : rest.length < n := by
          have hpos := List.length_pos_iff.2 (h.full e he)
          rw [List.length_append] at hn
          omega
        obtain ⟨es, hes, hrest, hfree⟩ := ih rest.length hshorter rest rfl
        refine ⟨e :: es, ?_, ?_, ?_⟩
        · intro f hf
          rcases List.mem_cons.1 hf with rfl | hf
          · exact he
          · exact hes f hf
        · rw [dropEntries_append h he, List.flatten_cons, List.append_assoc, ← hrest]
        · rw [dropEntries_append h he]
          exact hfree

/-! ### White space -/

theorem prefixFree_encodings : PrefixFree encodings := ⟨by decide, by decide⟩

theorem prefixFree_reversed : PrefixFree reversed := ⟨by decide, by decide⟩

theorem mem_reversed : e.reverse ∈ reversed ↔ e ∈ encodings := by
  simp [reversed]

/-- A later byte of an entry is not the first byte of one. -/
theorem later_not_first : ∀ e ∈ encodings, ∀ b ∈ e.tail, ∀ f ∈ encodings, f.head? ≠ some b := by
  have hall : (encodings.all fun e =>
      e.tail.all fun b => encodings.all fun f => f.head? != some b) = true := by decide
  simpa only [List.all_eq_true, bne_iff_ne] using hall

/-- **White space throughout.** -/
def White (s : Bytes) : Prop := ∃ es : List Bytes, (∀ e ∈ es, e ∈ encodings) ∧ s = es.flatten

theorem white_nil : White [] := ⟨[], nofun, rfl⟩

theorem white_of_mem (h : e ∈ encodings) : White e :=
  ⟨[e], by simpa using h, by simp⟩

theorem White.append {s t : Bytes} (hs : White s) (ht : White t) : White (s ++ t) := by
  obtain ⟨es, hes, rfl⟩ := hs
  obtain ⟨fs, hfs, rfl⟩ := ht
  refine ⟨es ++ fs, ?_, List.flatten_append.symm⟩
  intro e he
  rcases List.mem_append.1 he with he | he
  · exact hes e he
  · exact hfs e he

theorem White.reverse (h : White s) :
    ∃ es : List Bytes, (∀ e ∈ es, e ∈ reversed) ∧ s.reverse = es.flatten := by
  obtain ⟨es, hes, rfl⟩ := h
  refine ⟨(es.map List.reverse).reverse, ?_, List.reverse_flatten⟩
  intro e he
  obtain ⟨f, hf, rfl⟩ := List.mem_map.1 (List.mem_reverse.1 he)
  exact mem_reversed.2 (hes f hf)

/-- White space begins with the first byte of an entry. -/
theorem White.head {b : UInt8} (h : White (b :: s)) : ∃ e ∈ encodings, e.head? = some b := by
  obtain ⟨es, hes, heq⟩ := h
  cases es with
  | nil => cases heq
  | cons e es =>
      refine ⟨e, hes e (by simp), ?_⟩
      cases e with
      | nil => exact absurd rfl (prefixFree_encodings.full [] (hes [] (by simp)))
      | cons c more =>
          rw [List.flatten_cons, List.cons_append] at heq
          rw [(List.cons.inj heq).1]
          rfl

/-- White space that follows a text does not complete what the text begins. -/
theorem prefix_of_prefix_append (he : e ∈ encodings) (hs : s ≠ []) (hw : White w) (h : e <+: s ++ w)
    : e <+: s := by
  obtain ⟨rest, heq⟩ := h
  rcases List.append_eq_append_iff.1 heq with ⟨more, rfl, -⟩ | ⟨beyond, hbeyond, hrest⟩
  · exact List.prefix_append e more
  cases beyond with
  | nil =>
      rw [List.append_nil] at hbeyond
      exact hbeyond ▸ List.prefix_refl e
  | cons b beyond =>
      -- The byte after the text is a later byte of the entry, and the first one of white space.
      obtain ⟨f, hf, hfirst⟩ := White.head (hrest ▸ hw)
      have hlater : b ∈ e.tail := by
        cases s with
        | nil => exact absurd rfl hs
        | cons c s => simp [hbeyond]
      exact absurd hfirst (later_not_first e he b hlater f hf)

/-! ### The core of a text -/

/-- **No white space at either end.** -/
structure Trimmed (s : Bytes) : Prop where
  /-- It begins with no entry. -/
  start : ∀ e ∈ encodings, ¬ e <+: s
  /-- It ends with no entry. -/
  stop : ∀ e ∈ encodings, ¬ e <:+ s

theorem trimmed_nil : Trimmed [] :=
  ⟨fun e he h => prefixFree_encodings.full e he (List.prefix_nil.1 h),
    fun e he h => prefixFree_encodings.full e he (List.suffix_nil.1 h)⟩

theorem trimStart_append (hw : White w) (s : Bytes) : trimStart (w ++ s) = trimStart s := by
  obtain ⟨es, hes, rfl⟩ := hw
  exact dropEntries_flatten prefixFree_encodings hes s

theorem trimStart_white (hw : White w) : trimStart w = [] := by
  have h := trimStart_append hw []
  rw [List.append_nil] at h
  exact h

theorem trimStart_of_none (h : ∀ e ∈ encodings, ¬ e <+: s) : trimStart s = s :=
  dropEntries_of_none h

theorem trimEnd_of_none (h : ∀ e ∈ encodings, ¬ e <:+ s) : trimEnd s = s := by
  have hnone : dropEntries reversed s.reverse = s.reverse := by
    refine dropEntries_of_none ?_
    intro e he hp
    rw [← List.reverse_reverse e, List.reverse_prefix] at hp
    exact h e.reverse (mem_reversed.1 (by rwa [List.reverse_reverse])) hp
  rw [trimEnd, hnone, List.reverse_reverse]

theorem trimEnd_append (hw : White w) (s : Bytes) : trimEnd (s ++ w) = trimEnd s := by
  obtain ⟨es, hes, heq⟩ := hw.reverse
  rw [trimEnd, List.reverse_append, heq, dropEntries_flatten prefixFree_reversed hes]
  rfl

theorem exists_trimStart (s : Bytes) : ∃ w, White w ∧ s = w ++ trimStart s ∧
    ∀ e ∈ encodings, ¬ e <+: trimStart s := by
  obtain ⟨es, hes, heq, hfree⟩ := exists_dropped prefixFree_encodings s
  exact ⟨es.flatten, ⟨es, hes, rfl⟩, heq, hfree⟩

theorem exists_trimEnd (s : Bytes) : ∃ w, White w ∧ s = trimEnd s ++ w ∧
    ∀ e ∈ encodings, ¬ e <:+ trimEnd s := by
  obtain ⟨es, hes, heq, hfree⟩ := exists_dropped prefixFree_reversed s.reverse
  refine ⟨es.flatten.reverse, ?_, ?_, ?_⟩
  · refine ⟨(es.map List.reverse).reverse, ?_, List.reverse_flatten⟩
    intro e he
    obtain ⟨f, hf, rfl⟩ := List.mem_map.1 (List.mem_reverse.1 he)
    rw [← mem_reversed, List.reverse_reverse]
    exact hes f hf
  · rw [trimEnd, ← List.reverse_append, ← heq, List.reverse_reverse]
  · intro e he hsuffix
    refine hfree e.reverse (mem_reversed.2 he) ?_
    rw [← List.reverse_prefix, trimEnd, List.reverse_reverse] at hsuffix
    exact hsuffix

/-- **Trimming leaves a core between two runs of white space.** -/
theorem exists_trim (s : Bytes) : ∃ w w', White w ∧ White w' ∧ s = w ++ (trim s ++ w') ∧
    Trimmed (trim s) := by
  obtain ⟨w, hw, hstart, hprefix⟩ := exists_trimStart s
  obtain ⟨w', hw', hstop, hsuffix⟩ := exists_trimEnd (trimStart s)
  refine ⟨w, w', hw, hw', ?_, ?_, hsuffix⟩
  · rw [trim, ← hstop]
    exact hstart
  · intro e he hp
    refine hprefix e he ?_
    rw [hstop]
    exact hp.trans (List.prefix_append _ w')

/-- **There is only one core.** -/
theorem trim_eq {w core w' : Bytes} (hw : White w) (hw' : White w') (h : Trimmed core) :
    trim (w ++ (core ++ w')) = core := by
  rw [trim, trimStart_append hw]
  cases core with
  | nil =>
      rw [List.nil_append, trimStart_white hw']
      rfl
  | cons b core =>
      have hstart : trimStart (b :: core ++ w') = b :: core ++ w' := by
        refine trimStart_of_none ?_
        intro e he hp
        exact h.start e he (prefix_of_prefix_append he (by simp) hw' hp)
      rw [hstart, trimEnd_append hw', trimEnd_of_none h.stop]

theorem trimmed_trim (s : Bytes) : Trimmed (trim s) := by
  obtain ⟨-, -, -, -, -, h⟩ := exists_trim s
  exact h

theorem Trimmed.trim (h : Trimmed s) : Blank.trim s = s := by
  have heq := trim_eq white_nil white_nil h
  rw [List.nil_append, List.append_nil] at heq
  exact heq

/-- White space around a text does not count. -/
theorem trim_surround {w w' : Bytes} (hw : White w) (hw' : White w') (s : Bytes) :
    trim (w ++ (s ++ w')) = trim s := by
  obtain ⟨v, v', hv, hv', heq, htrimmed⟩ := exists_trim s
  have hwhole : w ++ (s ++ w') = (w ++ v) ++ (trim s ++ (v' ++ w')) := by
    conv => lhs; rw [heq]
    simp
  rw [hwhole, trim_eq (hw.append hv) (hv'.append hw') htrimmed]

/-- **A text is blank if its core is empty.** -/
theorem isBlank_iff : isBlank s = true ↔ trim s = [] := by
  rw [isBlank, List.isEmpty_iff]
  constructor
  · intro h
    rw [trim, h]
    rfl
  · intro h
    obtain ⟨w, w', hw, hw', heq, -⟩ := exists_trim s
    rw [h, List.nil_append] at heq
    rw [heq, trimStart_white (hw.append hw')]

/-! ### What a text begins with -/

/-- **No byte that white space begins with.** -/
def Solid (s : Bytes) : Prop := ∀ b ∈ s, ∀ e ∈ encodings, e.head? ≠ some b

instance (s : Bytes) : Decidable (Solid s) :=
  List.decidableBAll (fun b => ∀ e ∈ encodings, e.head? ≠ some b) s

theorem Solid.not_mem (h : Solid s) {b : UInt8} (hb : [b] ∈ encodings) : b ∉ s :=
  fun hmem => h b hmem [b] hb rfl

/-- What a text begins with is not trimmed from its end. -/
theorem prefix_trim (h : Solid pat) (s : Bytes) : pat <+: trim s ↔ pat <+: trimStart s := by
  obtain ⟨w, hw, hstop, -⟩ := exists_trimEnd (trimStart s)
  have heq : trimStart s = trim s ++ w := hstop
  constructor
  · intro hp
    rw [heq]
    exact hp.trans (List.prefix_append _ w)
  · intro hp
    rw [heq] at hp
    obtain ⟨rest, hrest⟩ := hp
    rcases List.append_eq_append_iff.1 hrest with ⟨more, hmore, -⟩ | ⟨beyond, hbeyond, hafter⟩
    · exact ⟨more, hmore.symm⟩
    cases beyond with
    | nil =>
        rw [List.append_nil] at hbeyond
        exact ⟨[], by rw [List.append_nil, hbeyond]⟩
    | cons b beyond =>
        obtain ⟨e, he, hfirst⟩ := White.head (hafter ▸ hw)
        exact absurd hfirst (h b (by simp [hbeyond]) e he)

/-- A text without line ends begins another whatever the line ends of that one are. -/
theorem prefix_lf (hreturn : Bytes.carriageReturn ∉ pat) (hnewline : Bytes.newline ∉ pat)
    (s : Bytes) : pat <+: Bytes.lf s ↔ pat <+: s := by
  induction pat generalizing s with
  | nil => simp
  | cons c pat ih =>
      rw [List.mem_cons, not_or] at hreturn hnewline
      by_cases hpair : [Bytes.carriageReturn, Bytes.newline] <+: s
      · obtain ⟨rest, rfl⟩ := hpair
        show _ <+: Bytes.lf (Bytes.carriageReturn :: Bytes.newline :: rest) ↔
          _ <+: Bytes.carriageReturn :: Bytes.newline :: rest
        rw [Bytes.lf_pair, List.cons_prefix_cons, List.cons_prefix_cons]
        constructor
        · exact fun hp => absurd hp.1.symm hnewline.1
        · exact fun hp => absurd hp.1.symm hreturn.1
      · cases s with
        | nil => exact Iff.rfl
        | cons b s =>
            rw [Bytes.lf_cons hpair, List.cons_prefix_cons, List.cons_prefix_cons,
              ih hreturn.2 hnewline.2]

/-- The two bytes of a line end stand alone in the table. -/
theorem line_end_alone : ∀ e ∈ encodings, e = [Bytes.carriageReturn] ∨ e = [Bytes.newline] ∨
    Bytes.carriageReturn ∉ e ∧ Bytes.newline ∉ e := by
  decide

theorem white_newline : White [Bytes.newline] := white_of_mem (by decide)

theorem white_return : White [Bytes.carriageReturn] := white_of_mem (by decide)

/-- An entry at the front stays there, unless it is half of a line end. -/
theorem lf_entry_append (he : e ∈ encodings)
    (hpair : ¬ [Bytes.carriageReturn, Bytes.newline] <+: e ++ s) :
    Bytes.lf (e ++ s) = e ++ Bytes.lf s := by
  rcases line_end_alone e he with rfl | rfl | ⟨hreturn, -⟩
  · exact Bytes.lf_cons hpair
  · exact Bytes.lf_cons hpair
  · exact Bytes.lf_append hreturn s

/-- Where no white space begins, none begins with other line ends either. -/
theorem none_begins_lf (h : ∀ e ∈ encodings, ¬ e <+: s) : ∀ e ∈ encodings, ¬ e <+: Bytes.lf s := by
  have hfirst {b : UInt8} (hb : [b] ∈ encodings) : ¬ [b] <+: Bytes.lf s := by
    intro hp
    have hpair : ¬ [Bytes.carriageReturn, Bytes.newline] <+: s := by
      intro hpair
      refine h [Bytes.carriageReturn] (by decide) (List.IsPrefix.trans ?_ hpair)
      exact ⟨[Bytes.newline], rfl⟩
    cases s with
    | nil => cases List.prefix_nil.1 hp
    | cons c s =>
        rw [Bytes.lf_cons hpair, List.cons_prefix_cons] at hp
        refine h [b] hb ?_
        rw [List.cons_prefix_cons]
        exact ⟨hp.1, List.nil_prefix⟩
  intro e he hp
  rcases line_end_alone e he with rfl | rfl | ⟨hreturn, hnewline⟩
  · exact hfirst he hp
  · exact hfirst he hp
  · exact h e he ((prefix_lf hreturn hnewline s).1 hp)

theorem prefix_trimStart_lf (h : Solid pat) (s : Bytes) :
    pat <+: trimStart (Bytes.lf s) ↔ pat <+: trimStart s := by
  -- On the length of the text: a line end or another entry is taken from both sides.
  induction hn : s.length using Nat.strongRecOn generalizing s with
  | ind n ih =>
      by_cases hpair : [Bytes.carriageReturn, Bytes.newline] <+: s
      · obtain ⟨rest, rfl⟩ := hpair
        have hleft : trimStart (Bytes.lf ([Bytes.carriageReturn, Bytes.newline] ++ rest)) =
            trimStart (Bytes.lf rest) := by
          rw [List.cons_append, List.singleton_append, Bytes.lf_pair]
          exact trimStart_append white_newline (Bytes.lf rest)
        have hwhite : White [Bytes.carriageReturn, Bytes.newline] :=
          white_return.append white_newline
        rw [hleft, trimStart_append hwhite]
        refine ih rest.length ?_ rest rfl
        rw [← hn, List.length_append]
        exact Nat.lt_add_of_pos_left (by simp)
      by_cases hnone : ∀ e ∈ encodings, ¬ e <+: s
      · rw [trimStart_of_none hnone, trimStart_of_none (none_begins_lf hnone)]
        exact prefix_lf (h.not_mem (by decide)) (h.not_mem (by decide)) s
      · simp only [not_forall, not_not] at hnone
        obtain ⟨e, he, rest, rfl⟩ := hnone
        rw [lf_entry_append he hpair, trimStart_append (white_of_mem he),
          trimStart_append (white_of_mem he)]
        refine ih rest.length ?_ rest rfl
        rw [← hn, List.length_append]
        exact Nat.lt_add_of_pos_left (List.length_pos_iff.2 (prefixFree_encodings.full e he))

/-- **Line ends do not matter for what a text begins with**, white space aside. -/
theorem prefix_trim_lf (h : Solid pat) (s : Bytes) :
    pat <+: trim (Bytes.lf s) ↔ pat <+: trim s := by
  rw [prefix_trim h, prefix_trim h, prefix_trimStart_lf h]

/-! ### What ends are trimmed from -/

/-- A text that begins with a solid one is not trimmed at its start. -/
theorem Solid.start (h : Solid pat) (hpat : pat ≠ []) (s : Bytes) :
    ∀ e ∈ encodings, ¬ e <+: pat ++ s := by
  obtain ⟨b, more, rfl⟩ := List.exists_cons_of_ne_nil hpat
  intro e he hp
  cases e with
  | nil => exact prefixFree_encodings.full [] he rfl
  | cons c e =>
      obtain ⟨rfl, -⟩ := List.cons_prefix_cons.1 hp
      exact h c (by simp) _ he rfl

/-- A text is not trimmed at its end if no entry has its last byte. -/
theorem stop_concat {b : UInt8} (hb : ∀ e ∈ encodings, e.getLast? ≠ some b) (s : Bytes) :
    ∀ e ∈ encodings, ¬ e <:+ s ++ [b] := by
  rintro e he ⟨t, ht⟩
  rcases List.eq_nil_or_concat e with rfl | ⟨e, c, rfl⟩
  · exact prefixFree_encodings.full [] he rfl
  · rw [List.concat_eq_append, ← List.append_assoc] at ht
    obtain ⟨rfl, -⟩ := List.cons.inj (List.append_inj' ht rfl).2
    exact hb _ he (by simp)

/-- What stands before a space is not trimmed along with what stands behind it. -/
theorem Trimmed.stop_space {s t : Bytes} (h : Trimmed t) (ht : t ≠ []) :
    ∀ e ∈ encodings, ¬ e <:+ s ++ 0x20 :: t := by
  have halone : ∀ e ∈ encodings, 0x20 ∈ e → e = [0x20] := by decide
  intro e he hsuffix
  have hassoc : s ++ 0x20 :: t = (s ++ [0x20]) ++ t := by simp
  rcases List.suffix_or_suffix_of_suffix hsuffix (hassoc ▸ List.suffix_append _ t) with hin | hout
  · exact h.stop e he hin
  · obtain ⟨more, rfl⟩ := hout
    rw [hassoc, List.suffix_append_self_iff] at hsuffix
    rcases List.eq_nil_or_concat more with rfl | ⟨more, c, rfl⟩
    · exact h.stop t he List.suffix_rfl
    · -- The entry holds the space and more, but the space is an entry by itself.
      obtain ⟨u, hu⟩ := hsuffix
      rw [List.concat_eq_append, ← List.append_assoc] at hu
      obtain ⟨rfl, -⟩ := List.cons.inj (List.append_inj' hu rfl).2
      have hlen := congrArg List.length (halone _ he (by simp))
      have hpos := List.length_pos_iff.2 ht
      simp only [List.concat_eq_append, List.length_append, List.length_cons, List.length_nil] at hlen
      omega

end ReplBridge.Blank
