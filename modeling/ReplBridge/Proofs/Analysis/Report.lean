import Mathlib.Data.List.Infix
import ReplBridge.Analysis.Report
import ReplBridge.Proofs.Text.Blank
import ReplBridge.Proofs.Text.Decimal

/-!
**Reports of errors in plain text.**

What a block of a report says can be told without reading it from left to right: it is the head, a
gap, the place and whatever stands behind it up to the message.  The place has no gap in it, and its
numbers no colon, so there is only one way to divide a block so.  A block that was written from an
error is divided as it was written, whichever way its lines end.

The numbers of a place have 64 bits and those of a position 32.  Beyond that the higher bits are
lost, and the last column of all has no column behind it.

Main definitions:

* `Analysis.Names`, `Analysis.Reports` — the place that a text names, and the error that a block
  reports;
* `Analysis.Block`, `Analysis.Block.Fair` — errors and noise that a report is written from;
* `Analysis.Block.write`, `Analysis.writeReport` — a report as it is written.

Main results:

* `Analysis.Place.parse?_eq_some_iff`, `Analysis.Fault.parse?_eq_some_iff` — **what is read is what is
  said**;
* `Analysis.report_writeReport` — **a report reads back**;
* `Analysis.report_ranges` — which ranges name the place that was reported.
-/

set_option autoImplicit false

namespace ReplBridge

/-- **The order of positions** in a document. -/
def Protocol.Position.Before (a b : Protocol.Position) : Prop :=
  a.line < b.line ∨ a.line = b.line ∧ a.character < b.character

instance (a b : Protocol.Position) : Decidable (a.Before b) :=
  inferInstanceAs (Decidable (_ ∨ _ ∧ _))

namespace Analysis

open Protocol (Position Diagnostic Publication)

/-! ### Places -/

/-- **The place that a text names**: `path:line:column`. -/
def Names (location : Bytes) (place : Place) : Prop :=
  ∃ lineText columnText, location = place.path ++ 0x3A :: (lineText ++ 0x3A :: columnText) ∧
    place.path ≠ [] ∧ (Decimal.int64? lineText = some place.line ∧ 1 ≤ place.line) ∧
    (Decimal.int64? columnText = some place.column ∧ 0 ≤ place.column)

theorem colon_free {s : Bytes} {n : Int} (h : Decimal.int64? s = some n) :
    ∀ b ∈ s, (b == 0x3A) = false := by
  intro b hb
  rcases Decimal.mem_of_int? (Option.eq_some_of_filter_eq_some h) hb with rfl | rfl | hdigit
  · rfl
  · rfl
  · refine beq_eq_false_iff_ne.2 ?_
    rintro rfl
    cases hdigit

/-- **A place is read where it is named.** -/
theorem Place.parse?_eq_some_iff {s : Bytes} {place : Place} :
    Place.parse? s = some place ↔ Names s place := by
  constructor
  · intro h
    unfold Place.parse? at h
    dsimp only at h
    split at h
    · cases h
    rename_i rest columnText hcolumn
    split at h
    · rename_i column path lineText hcolumnText hline
      split at h
      · rename_i line hlineText
        split at h
        · cases h
        · rename_i hpath
          cases h
          obtain ⟨c, rfl, hc, -⟩ := Bytes.cutLast?_eq_some_iff.1 hcolumn
          obtain ⟨l, rfl, hl, -⟩ := Bytes.cutLast?_eq_some_iff.1 hline
          obtain rfl := beq_iff_eq.1 hc
          obtain rfl := beq_iff_eq.1 hl
          obtain ⟨hcolumnText, hnonneg⟩ := Option.filter_eq_some_iff.1 hcolumnText
          obtain ⟨hlineText, hpos⟩ := Option.filter_eq_some_iff.1 hlineText
          exact ⟨lineText, columnText, by simp, by simpa using hpath,
            ⟨hlineText, of_decide_eq_true hpos⟩, hcolumnText, of_decide_eq_true hnonneg⟩
      · cases h
    · cases h
  · rintro ⟨lineText, columnText, rfl, hpath, ⟨hline, hpos⟩, hcolumn, hnonneg⟩
    -- Whatever colons the path has, those of the numbers are the last two.
    have hcut : Bytes.cutLast? (fun b => b == 0x3A)
        (place.path ++ 0x3A :: (lineText ++ 0x3A :: columnText)) =
          some (place.path ++ 0x3A :: lineText, columnText) :=
      Bytes.cutLast?_eq_some_iff.2 ⟨0x3A, by simp, rfl, colon_free hcolumn⟩
    have hcut' : Bytes.cutLast? (fun b => b == 0x3A) (place.path ++ 0x3A :: lineText) =
        some (place.path, lineText) :=
      Bytes.cutLast?_eq_some_iff.2 ⟨0x3A, rfl, rfl, colon_free hline⟩
    have hcolumn' : (Decimal.int64? columnText).filter (0 ≤ ·) = some place.column := by
      simp [hcolumn, hnonneg]
    have hline' : (Decimal.int64? lineText).filter (1 ≤ ·) = some place.line := by
      simp [hline, hpos]
    unfold Place.parse?
    dsimp only
    rw [hcut]
    dsimp only
    rw [hcut', hcolumn']
    dsimp only
    rw [hline']
    dsimp only
    rw [if_neg (by simpa using hpath)]

/-! ### Blocks -/

/-- **The error that a block reports**, once white space around it is gone and its lines end in line
feeds. -/
def Reports (block : Bytes) (f : Fault) : Prop :=
  ∃ gap location rest, Blank.trim (Bytes.lf block) = head ++ (gap ++ (location ++ rest)) ∧
    (∀ b ∈ gap, isGap b = true) ∧ (∀ b ∈ location, isGap b = false) ∧
    (∀ b ∈ rest.head?, isGap b = true) ∧ Names location f.place ∧
    f.message = Blank.trim (rest.drop 1)

theorem not_isGap_head {location : Bytes} {place : Place} (h : Names location place)
    (hfree : ∀ b ∈ location, isGap b = false) (rest : Bytes) :
    (location ++ rest).dropWhile isGap = location ++ rest := by
  obtain ⟨lineText, columnText, rfl, hpath, -⟩ := h
  obtain ⟨b, path, hb⟩ := List.exists_cons_of_ne_nil hpath
  rw [hb] at hfree ⊢
  rw [List.cons_append, List.cons_append, List.dropWhile_cons_of_neg (by simp [hfree b (by simp)])]

/-- **An error is read where it is reported.** -/
theorem Fault.parse?_eq_some_iff {block : Bytes} {f : Fault} :
    Fault.parse? block = some f ↔ Reports block f := by
  have hparse : Fault.parse? block =
      (Bytes.after? head (Blank.trim (Bytes.lf block))).bind fun rest =>
        (Place.parse? ((rest.dropWhile isGap).takeWhile (!isGap ·))).map fun place =>
          { place, message := Blank.trim (((rest.dropWhile isGap).dropWhile (!isGap ·)).drop 1) } := by
    have hlf : Bytes.replace [0x0D, 0x0A] [0x0A] block = Bytes.lf block := rfl
    simp only [Fault.parse?, List.span_eq_takeWhile_dropWhile, hlf]
    cases Bytes.after? head (Blank.trim (Bytes.lf block)) <;> rfl
  rw [hparse]
  constructor
  · intro h
    obtain ⟨rest, hhead, h⟩ := Option.bind_eq_some_iff.1 h
    obtain ⟨place, hplace, rfl⟩ := Option.map_eq_some_iff.1 h
    refine ⟨rest.takeWhile isGap, _, _, ?_, fun b hb => List.mem_takeWhile_imp hb, ?_, ?_,
      Place.parse?_eq_some_iff.1 hplace, rfl⟩
    · rw [List.takeWhile_append_dropWhile, List.takeWhile_append_dropWhile]
      exact Bytes.after?_eq_some_iff.1 hhead
    · intro b hb
      simpa using List.mem_takeWhile_imp hb
    · intro b hb
      have hnot := List.head?_dropWhile_not (!isGap ·) (rest.dropWhile isGap)
      rw [hb] at hnot
      simpa using hnot
  · rintro ⟨gap, location, rest, htrim, hgap, hlocation, hrest, hnames, hmessage⟩
    have hspan : ∀ b ∈ location, (!isGap b) = true := fun b hb => by simp [hlocation b hb]
    have hstop : rest.takeWhile (!isGap ·) = [] ∧ rest.dropWhile (!isGap ·) = rest := by
      cases rest with
      | nil => exact ⟨rfl, rfl⟩
      | cons b rest => simp [hrest b rfl]
    rw [Bytes.after?_eq_some_iff.2 htrim, Option.bind_some, List.dropWhile_append_of_pos hgap,
      not_isGap_head hnames hlocation, List.takeWhile_append_of_pos hspan,
      List.dropWhile_append_of_pos hspan, hstop.1, hstop.2, List.append_nil,
      Place.parse?_eq_some_iff.2 hnames, Option.map_some, ← hmessage]

/-! ### Writing a report -/

theorem twoTo_word : (Decimal.twoTo 32 : Int) = 4294967296 := by decide

/-- What an error has to be like to be written: a path without gaps, numbers that a position can
hold, and a message that is trimmed and whose lines end in line feeds. -/
structure Fault.Fair (f : Fault) : Prop where
  path_full : f.place.path ≠ []
  /-- The path has no gaps and no line ends. -/
  path_solid : 0x20 ∉ f.place.path ∧ 0x09 ∉ f.place.path ∧ Bytes.newline ∉ f.place.path ∧
    Bytes.carriageReturn ∉ f.place.path
  /-- Lines count from one. -/
  line_pos : 1 ≤ f.place.line
  /-- The line before is a number of 32 bits. -/
  line_le : f.place.line ≤ Decimal.twoTo 32
  /-- Columns count from zero. -/
  column_nonneg : 0 ≤ f.place.column
  /-- The column behind is a number of 32 bits. -/
  column_lt : f.place.column < Decimal.twoTo 32 - 1
  /-- The lines of the message end in line feeds. -/
  message_lines : Bytes.carriageReturn ∉ f.message
  message_trim : Blank.trim f.message = f.message
  /-- The path does not divide the block. -/
  path_free : ¬ separator <:+: f.place.path
  /-- The message does not divide the block. -/
  message_free : ¬ separator <:+: f.message

instance : DecidablePred Fault.Fair := fun f =>
  decidable_of_iff
    ((f.place.path ≠ [] ∧ 0x20 ∉ f.place.path ∧ 0x09 ∉ f.place.path ∧
        Bytes.newline ∉ f.place.path ∧ Bytes.carriageReturn ∉ f.place.path) ∧
      (1 ≤ f.place.line ∧ f.place.line ≤ Decimal.twoTo 32) ∧
      (0 ≤ f.place.column ∧ f.place.column < Decimal.twoTo 32 - 1) ∧
      (Bytes.carriageReturn ∉ f.message ∧ Blank.trim f.message = f.message) ∧
      ¬ separator <:+: f.place.path ∧ ¬ separator <:+: f.message)
    ⟨fun ⟨⟨h₁, h₂⟩, ⟨h₃, h₄⟩, ⟨h₅, h₆⟩, ⟨h₇, h₈⟩, h₉, h⟩ => ⟨h₁, h₂, h₃, h₄, h₅, h₆, h₇, h₈, h₉, h⟩,
      fun h => ⟨⟨h.path_full, h.path_solid⟩, ⟨h.line_pos, h.line_le⟩,
        ⟨h.column_nonneg, h.column_lt⟩, ⟨h.message_lines, h.message_trim⟩, h.path_free,
        h.message_free⟩⟩

/-- A block of a report: one that reports an error, or any other text. -/
inductive Block where
  | error (f : Fault)
  | noise (text : Bytes)
  deriving DecidableEq, Repr

namespace Block

/-- The error that a block reports. -/
def fault? : Block → Option Fault
  | .error f => some f
  | .noise _ => none

/-- What a block has to be like to be written; noise does not look like an error. -/
def Fair : Block → Prop
  | .error f => f.Fair
  | .noise text => ¬ head <+: Blank.trim text ∧ ¬ separator <:+: text

instance : DecidablePred Fair
  | .error f => inferInstanceAs (Decidable f.Fair)
  | .noise text => inferInstanceAs (Decidable (¬ head <+: Blank.trim text ∧ ¬ separator <:+: text))

end Block

def Place.write (p : Place) : Bytes :=
  p.path ++ 0x3A :: (Decimal.ofInt p.line ++ 0x3A :: Decimal.ofInt p.column)

/-- An error as it is written: the head on a line of its own, then the place and the message. -/
def Fault.write (f : Fault) : Bytes :=
  head ++ Bytes.newline :: (f.place.write ++ 0x20 :: (f.message ++ [Bytes.newline]))

/-- A block as it is written, lines of errors ending in a line feed or in a carriage return and a
line feed. -/
def Block.write (crlf : Bool) : Block → Bytes
  | .error f => if crlf then Bytes.crlf f.write else f.write
  | .noise text => Bytes.newline :: (text ++ [Bytes.newline])

/-- **A report as it is written.** -/
def writeReport (crlf : Bool) (blocks : List Block) : Bytes :=
  Bytes.join separator (blocks.map (Block.write crlf))

theorem separator_eq : separator = [0x3C, 0x2D, 0x2D, 0x2D, 0x3E] := by decide

theorem head_eq : head = [0x5B, 0x45, 0x52, 0x52, 0x4F, 0x52, 0x5D] := by decide

theorem separator_ne_nil : separator ≠ [] := by simp [separator_eq]

theorem not_mem_separator {b : UInt8} (h : b ≠ 0x3C ∧ b ≠ 0x2D ∧ b ≠ 0x3E) : b ∉ separator := by
  simp [separator_eq, h]

theorem newline_foreign : Bytes.newline ∉ separator := not_mem_separator (by decide)

theorem solid_head : Blank.Solid head := by
  rw [head_eq]
  decide

theorem free_ofInt (n : Int) : ¬ separator <:+: Decimal.ofInt n := by
  intro h
  have hmem : (0x3C : UInt8) ∈ Decimal.ofInt n := h.subset (by simp [separator_eq])
  rcases Decimal.mem_ofInt hmem with heq | hdigit
  · exact absurd heq (by decide)
  · cases hdigit

theorem free_place {p : Place} (h : ¬ separator <:+: p.path) : ¬ separator <:+: p.write := by
  have hcolon : (0x3A : UInt8) ∉ separator := not_mem_separator (by decide)
  rw [Place.write, Bytes.infix_append_cons hcolon, Bytes.infix_append_cons hcolon]
  exact not_or.2 ⟨h, not_or.2 ⟨free_ofInt _, free_ofInt _⟩⟩

theorem free_fault {f : Fault} (h : f.Fair) : ¬ separator <:+: f.write := by
  have hspace : (0x20 : UInt8) ∉ separator := not_mem_separator (by decide)
  have hhead : ¬ separator <:+: head := by
    rw [separator_eq, head_eq]
    decide
  rw [Fault.write, Bytes.infix_append_cons newline_foreign, Bytes.infix_append_cons hspace,
    Bytes.infix_append_cons newline_foreign]
  exact not_or.2 ⟨hhead, not_or.2 ⟨free_place h.path_free, not_or.2 ⟨h.message_free, by
    rw [List.infix_nil]
    exact separator_ne_nil⟩⟩⟩

/-- **No block holds a separator.** -/
theorem Block.write_free (crlf : Bool) {block : Block} (h : block.Fair) :
    ¬ separator <:+: block.write crlf := by
  cases block with
  | error f =>
      have hfree := free_fault (f := f) h
      cases crlf with
      | false => exact hfree
      | true =>
          have hreturn : Bytes.carriageReturn ∉ separator := not_mem_separator (by decide)
          have hforeign : ∀ b ∈ [Bytes.newline] ++ [Bytes.carriageReturn, Bytes.newline],
              b ∉ separator := by simp [newline_foreign, hreturn]
          rw [← Bytes.infix_replace separator_ne_nil (by simp) (by simp) hforeign] at hfree
          exact hfree
  | noise text =>
      have hsurround : Block.write crlf (.noise text) =
          [] ++ Bytes.newline :: (text ++ [Bytes.newline]) := rfl
      rw [hsurround, Bytes.infix_append_cons newline_foreign,
        Bytes.infix_append_cons newline_foreign, List.infix_nil]
      exact not_or.2 ⟨separator_ne_nil, not_or.2 ⟨h.2, separator_ne_nil⟩⟩

/-- The last byte of a separator stands nowhere else in it, so none begins in a block and ends in the
separator behind that block. -/
theorem split_writeReport (crlf : Bool) {blocks : List Block} (hblocks : blocks ≠ [])
    (h : ∀ block ∈ blocks, block.Fair) :
    Bytes.split separator (writeReport crlf blocks) = blocks.map (Block.write crlf) := by
  have hlast : separator = separator.dropLast ++ [0x3E] := by simp [separator_eq]
  have hforeign : (0x3E : UInt8) ∉ separator.dropLast := by simp [separator_eq]
  refine Bytes.split_join separator_ne_nil (by simpa using hblocks) ?_
  intro part hpart
  obtain ⟨block, hblock, rfl⟩ := List.mem_map.1 hpart
  have hfree := Block.write_free crlf (h block hblock)
  rw [hlast] at hfree
  rwa [← Bytes.infix_append_concat hforeign, ← hlast] at hfree

/-! ### Reading a report back -/

theorem Place.names_write {f : Fault} (h : f.Fair) : Names f.place.write f.place := by
  have hfits {n : Int} (hge : 0 ≤ n) (hle : n ≤ Decimal.twoTo 32) : Decimal.fits 64 n = true := by
    have htwo : (Decimal.twoTo (64 - 1) : Int) = 9223372036854775808 := by decide
    rw [twoTo_word] at hle
    simp only [Decimal.fits, htwo, Bool.and_eq_true, decide_eq_true_eq]
    omega
  have hpos := h.line_pos
  have hlt := h.column_lt
  exact ⟨_, _, rfl, h.path_full,
    ⟨Decimal.int64?_ofInt (hfits (by omega) h.line_le), hpos⟩,
    Decimal.int64?_ofInt (hfits h.column_nonneg (by omega)), h.column_nonneg⟩

theorem mem_place {f : Fault} (h : f.Fair) {b : UInt8} (hb : b ∈ f.place.write) :
    isGap b = false ∧ b ≠ Bytes.carriageReturn := by
  have hdigit {n : Int} (hb : b ∈ Decimal.ofInt n) : isGap b = false ∧ b ≠ Bytes.carriageReturn := by
    rcases Decimal.mem_ofInt hb with rfl | hdigit
    · exact ⟨rfl, by decide⟩
    · constructor
      · cases hgap : isGap b with
        | false => rfl
        | true =>
            simp only [isGap, Bool.or_eq_true, beq_iff_eq] at hgap
            rcases hgap with (rfl | rfl) | rfl <;> cases hdigit
      · rintro rfl
        cases hdigit
  have hcolon : isGap 0x3A = false ∧ (0x3A : UInt8) ≠ Bytes.carriageReturn := by decide
  rcases List.mem_append.1 hb with hb | hb
  · obtain ⟨hspace, htab, hnewline, hreturn⟩ := h.path_solid
    refine ⟨?_, ne_of_mem_of_not_mem hb hreturn⟩
    simp only [isGap, Bool.or_eq_false_iff, beq_eq_false_iff_ne]
    exact ⟨⟨ne_of_mem_of_not_mem hb hspace, ne_of_mem_of_not_mem hb htab⟩,
      ne_of_mem_of_not_mem hb hnewline⟩
  rcases List.mem_cons.1 hb with rfl | hb
  · exact hcolon
  rcases List.mem_append.1 hb with hb | hb
  · exact hdigit hb
  rcases List.mem_cons.1 hb with rfl | hb
  · exact hcolon
  · exact hdigit hb

/-- Either way lines end, a block is read with line feeds. -/
theorem lf_write {f : Fault} (h : f.Fair) (crlf : Bool) :
    Bytes.lf (Block.write crlf (.error f)) = f.write := by
  cases crlf with
  | true => exact Bytes.lf_crlf f.write
  | false =>
      have hhead : Bytes.carriageReturn ∉ head := by
        rw [head_eq]
        decide
      have hplace : Bytes.carriageReturn ∉ f.place.write := fun hb => (mem_place h hb).2 rfl
      refine Bytes.lf_of_not_mem (s := f.write) ?_
      simp only [Fault.write, List.mem_append, List.mem_cons, List.not_mem_nil]
      rintro (hb | hb | hb | hb | hb | hb | hb)
      · exact hhead hb
      · exact absurd hb (by decide)
      · exact hplace hb
      · exact absurd hb (by decide)
      · exact h.message_lines hb
      · exact absurd hb (by decide)
      · exact hb

/-- A number ends with none of the bytes that white space ends with. -/
theorem stop_ofInt (n : Int) (s : Bytes) : ∀ e ∈ Blank.encodings, ¬ e <:+ s ++ Decimal.ofInt n := by
  have hlast : ∀ e ∈ Blank.encodings, ∀ b ∈ e.getLast?, b ≠ 0x2D ∧ Bytes.isDigit b = false := by
    have hall : (Blank.encodings.all fun e =>
        e.getLast?.all fun b => b != 0x2D && !Bytes.isDigit b) = true := by decide
    simpa [Option.all_eq_true] using hall
  rcases List.eq_nil_or_concat (Decimal.ofInt n) with hnil | ⟨front, b, hconcat⟩
  · have hread := Decimal.int?_ofInt n
    rw [hnil] at hread
    cases hread
  · rw [hconcat, List.concat_eq_append, ← List.append_assoc]
    refine Blank.stop_concat ?_ _
    intro e he hb
    obtain ⟨hminus, hdigit⟩ := hlast e he b hb
    rcases Decimal.mem_ofInt (n := n) (b := b) (by simp [hconcat]) with heq | heq
    · exact hminus heq
    · rw [hdigit] at heq
      cases heq

/-- What is left of an error when white space around it is gone. -/
theorem trim_write {f : Fault} (h : f.Fair) :
    ∃ rest, Blank.trim f.write = head ++ ([Bytes.newline] ++ (f.place.write ++ rest)) ∧
      (∀ b ∈ rest.head?, isGap b = true) ∧ f.message = Blank.trim (rest.drop 1) := by
  have hhead : head ≠ [] := by simp [head_eq]
  by_cases hmessage : f.message = []
  · -- Without a message the space goes too.
    refine ⟨[], ?_, nofun, hmessage.trans Blank.trimmed_nil.trim.symm⟩
    have hwhite : Blank.White [0x20, Bytes.newline] :=
      (Blank.white_of_mem (e := [0x20]) (by decide)).append Blank.white_newline
    have htrimmed : Blank.Trimmed (head ++ ([Bytes.newline] ++ (f.place.write ++ []))) := by
      refine ⟨solid_head.start hhead _, ?_⟩
      have hend := stop_ofInt f.place.column
        (head ++ ([Bytes.newline] ++ (f.place.path ++ 0x3A :: (Decimal.ofInt f.place.line ++ [0x3A]))))
      simpa [Place.write] using hend
    rw [← Blank.trim_eq Blank.white_nil hwhite htrimmed, Fault.write, hmessage]
    simp
  · refine ⟨0x20 :: f.message, ?_, ?_, h.message_trim.symm⟩
    · have hmessageTrimmed : Blank.Trimmed f.message :=
        h.message_trim ▸ Blank.trimmed_trim f.message
      have htrimmed : Blank.Trimmed
          (head ++ ([Bytes.newline] ++ (f.place.write ++ 0x20 :: f.message))) := by
        refine ⟨solid_head.start hhead _, ?_⟩
        have hend := hmessageTrimmed.stop_space (s := head ++ ([Bytes.newline] ++ f.place.write))
          hmessage
        simpa using hend
      rw [← Blank.trim_eq Blank.white_nil Blank.white_newline htrimmed, Fault.write]
      simp
    · intro b hb
      cases hb
      rfl

/-- **An error is reported by the block that was written from it.** -/
theorem reports_write {f : Fault} (h : f.Fair) (crlf : Bool) :
    Reports (Block.write crlf (.error f)) f := by
  obtain ⟨rest, htrim, hrest, hmessage⟩ := trim_write h
  rw [← lf_write h crlf] at htrim
  refine ⟨[Bytes.newline], f.place.write, rest, htrim, ?_, fun b hb => (mem_place h hb).1, hrest,
    Place.names_write h, hmessage⟩
  intro b hb
  rw [List.mem_singleton.1 hb]
  rfl

theorem parse?_noise {text : Bytes} (h : ¬ head <+: Blank.trim text) (crlf : Bool) :
    Fault.parse? (Block.write crlf (.noise text)) = none := by
  have htrim : Blank.trim (Block.write crlf (.noise text)) = Blank.trim text :=
    Blank.trim_surround Blank.white_newline Blank.white_newline text
  rw [Option.eq_none_iff_forall_ne_some]
  intro f hf
  obtain ⟨gap, location, rest, heq, -⟩ := Fault.parse?_eq_some_iff.1 hf
  rw [← htrim, ← Blank.prefix_trim_lf solid_head] at h
  exact h ⟨_, heq.symm⟩

theorem parse?_write (crlf : Bool) {block : Block} (h : block.Fair) :
    Fault.parse? (block.write crlf) = block.fault? := by
  cases block with
  | error f => exact Fault.parse?_eq_some_iff.2 (reports_write h crlf)
  | noise text => exact parse?_noise h.1 crlf

/-- The severity of an error: the number one. -/
def errorSeverity : Double := { mantissa := Decimal.twoTo 52, exponent := -52 }

/-- **What an error is published as**: one diagnostic of one character, in lines and columns that
count from zero. -/
def Fault.expected (cwd : Bytes) (f : Fault) : Publication where
  uri := Uri.ofPath cwd f.place.path
  diagnostics := some
    [{ range :=
        { start := ⟨.ofNat (f.place.line - 1).toNat, .ofNat f.place.column.toNat⟩
          stop := ⟨.ofNat (f.place.line - 1).toNat, .ofNat (f.place.column + 1).toNat⟩ }
       severity := errorSeverity
       source := utf8 "carp"
       message := f.message }]

theorem toWord_eq {n : Int} (hge : 0 ≤ n) (hlt : n < Decimal.twoTo 32) :
    toWord n = UInt32.ofNat n.toNat := by
  rw [twoTo_word] at hlt
  rw [toWord, Int.emod_eq_of_lt hge hlt]

theorem publication_eq {f : Fault} (h : f.Fair) (cwd : Bytes) :
    f.publication cwd = f.expected cwd := by
  have hseverity : Double.ofLiteral? (utf8 "1") = some errorSeverity := by decide +kernel
  have hpos := h.line_pos
  have hle := h.line_le
  have hlt := h.column_lt
  have hstop : toWord f.place.column + 1 = UInt32.ofNat (f.place.column + 1).toNat := by
    rw [toWord_eq h.column_nonneg (by omega), Int.toNat_add h.column_nonneg (by omega),
      UInt32.ofNat_add]
    rfl
  rw [Fault.publication, hstop, toWord_eq (by omega) (by omega),
    toWord_eq h.column_nonneg (by omega), hseverity]
  rfl

/-- **A report reads back**: one publication for each error, in order. -/
theorem report_writeReport (cwd : Bytes) (crlf : Bool) (blocks : List Block)
    (h : ∀ block ∈ blocks, block.Fair) :
    report cwd (writeReport crlf blocks) =
      (blocks.filterMap Block.fault?).map (Fault.expected cwd) := by
  have hread : (Bytes.split separator (writeReport crlf blocks)).filterMap Fault.parse? =
      blocks.filterMap Block.fault? := by
    -- Nothing at all is split into one empty text, which reports nothing.
    rcases List.eq_nil_or_concat blocks with rfl | ⟨front, last, rfl⟩
    · show (Bytes.split separator []).filterMap Fault.parse? = []
      rw [separator_eq]
      rfl
    · rw [split_writeReport crlf (by simp) h, List.filterMap_map]
      exact List.filterMap_congr fun block hblock => parse?_write crlf (h block hblock)
  rw [report, hread]
  refine List.map_congr_left ?_
  intro f hf
  obtain ⟨block, hblock, hfault⟩ := List.mem_filterMap.1 hf
  cases block with
  | noise text => cases hfault
  | error g =>
      cases hfault
      exact publication_eq (h _ hblock) cwd

/-- Two errors between noise: a path with colons and numbers in it at the last line and column, whose
message looks like another block, and a bare place. -/
def twoErrors : List Block :=
  [.noise (utf8 "checking [ERROR] <---"),
    .error ⟨⟨utf8 "C:/a:12:3.carp", 4294967296, 4294967294⟩, utf8 "bad form\n[ERROR]\nb.carp:1:2 x"⟩,
    .noise (utf8 " \t\r\n"),
    .error ⟨⟨utf8 ":7", 1, 0⟩, []⟩]

theorem report_writeReport_twoErrors :
    (∀ block ∈ twoErrors, block.Fair) ∧
      report (utf8 "/w") (writeReport true twoErrors) =
        [Fault.expected (utf8 "/w") ⟨⟨utf8 "C:/a:12:3.carp", 4294967296, 4294967294⟩,
            utf8 "bad form\n[ERROR]\nb.carp:1:2 x"⟩,
          Fault.expected (utf8 "/w") ⟨⟨utf8 ":7", 1, 0⟩, []⟩] := by
  have hfair : ∀ block ∈ twoErrors, block.Fair := by decide +kernel
  exact ⟨hfair, report_writeReport (utf8 "/w") true twoErrors hfair⟩

/-! ### Ranges -/

theorem toNat_toWord (n : Int) : ((toWord n).toNat : Int) = n % 4294967296 := by
  rw [toWord, UInt32.toNat_ofNat']
  omega

/-- **The range of an error is on one line**, and is where the error is exactly as far as 32 bits
reach. -/
theorem range_publication {block : Bytes} {f : Fault} (h : Reports block f) (cwd : Bytes) :
    ∃ d, (f.publication cwd).diagnostics = some [d] ∧ d.range.start.line = d.range.stop.line ∧
      (d.range.start.Before d.range.stop ∧ (d.range.start.line.toNat : Int) + 1 = f.place.line ∧
          (d.range.start.character.toNat : Int) = f.place.column ↔
        f.place.line ≤ Decimal.twoTo 32 ∧ f.place.column < Decimal.twoTo 32 - 1) := by
  obtain ⟨-, -, -, -, -, -, -, ⟨-, -, -, -, ⟨-, hpos⟩, -, hnonneg⟩, -⟩ := h
  refine ⟨_, rfl, rfl, ?_⟩
  have hline := toNat_toWord (f.place.line - 1)
  have hcolumn := toNat_toWord f.place.column
  have hstop : (toWord f.place.column + 1).toNat = ((toWord f.place.column).toNat + 1) % 4294967296 :=
    UInt32.toNat_add _ _
  have hbefore : Position.Before ⟨toWord (f.place.line - 1), toWord f.place.column⟩
      ⟨toWord (f.place.line - 1), toWord f.place.column + 1⟩ ↔
        (toWord f.place.column).toNat < ((toWord f.place.column).toNat + 1) % 4294967296 := by
    rw [← hstop, ← UInt32.lt_iff_toNat_lt]
    simp [Position.Before]
  -- What is left is about remainders: they are the numbers themselves within 32 bits only.
  rw [hbefore, twoTo_word]
  dsimp only
  omega

/-- **Which ranges are well formed.**  Every publication is of an error that some block reports, and
its range is on one line.  The range begins before it ends and names the place that was reported if
and only if the line and the column behind the place are numbers of 32 bits. -/
theorem report_ranges (cwd text : Bytes) (p : Publication) (hp : p ∈ report cwd text) :
    ∃ block ∈ Bytes.split separator text, ∃ f, Reports block f ∧ ∃ d, p.diagnostics = some [d] ∧
      d.range.start.line = d.range.stop.line ∧
      (d.range.start.Before d.range.stop ∧ (d.range.start.line.toNat : Int) + 1 = f.place.line ∧
          (d.range.start.character.toNat : Int) = f.place.column ↔
        f.place.line ≤ Decimal.twoTo 32 ∧ f.place.column < Decimal.twoTo 32 - 1) := by
  obtain ⟨f, hf, rfl⟩ := List.mem_map.1 hp
  obtain ⟨block, hblock, hparse⟩ := List.mem_filterMap.1 hf
  have hreports := Fault.parse?_eq_some_iff.1 hparse
  exact ⟨block, hblock, f, hreports, range_publication hreports cwd⟩

/-- A report at the last line and column that a range can be at. -/
def lastPlace : Bytes := utf8 "noise<--->[ERROR]\n/w/a.carp:4294967296:4294967294 m\n"

theorem report_ranges_lastPlace :
    ∃ p ∈ report (utf8 "/") lastPlace, ∃ block ∈ Bytes.split separator lastPlace, ∃ f,
      Reports block f ∧ ∃ d, p.diagnostics = some [d] ∧ d.range.start.line = d.range.stop.line ∧
      (d.range.start.Before d.range.stop ∧ (d.range.start.line.toNat : Int) + 1 = f.place.line ∧
          (d.range.start.character.toNat : Int) = f.place.column ↔
        f.place.line ≤ Decimal.twoTo 32 ∧ f.place.column < Decimal.twoTo 32 - 1) := by
  have hlength : 0 < (report (utf8 "/") lastPlace).length := by decide +kernel
  obtain ⟨p, hp⟩ := List.exists_mem_of_length_pos hlength
  exact ⟨p, hp, report_ranges (utf8 "/") lastPlace p hp⟩

/-- A report one column further. -/
def beyondLastPlace : Bytes := utf8 "[ERROR]\n/w/a.carp:3:4294967295 m\n"

/-- **A range may end before it begins**: behind the last column of 32 bits comes column zero. -/
theorem report_ends_before_start :
    ¬ ∀ cwd text, ∀ p ∈ report cwd text, ∀ d ∈ p.items, d.range.start.Before d.range.stop := by
  intro h
  have hranges : ((report (utf8 "/") beyondLastPlace).all fun p => p.items.all fun d =>
      decide (d.range.start.Before d.range.stop)) = false := by decide +kernel
  have hall : ((report (utf8 "/") beyondLastPlace).all fun p => p.items.all fun d =>
      decide (d.range.start.Before d.range.stop)) = true := by
    simp only [List.all_eq_true, decide_eq_true_eq]
    exact h (utf8 "/") beyondLastPlace
  rw [hranges] at hall
  cases hall

end Analysis

end ReplBridge
