import ReplBridge.Proofs.Text.Join
import ReplBridge.Text.Lines

/-!
**Lines that fit are read.**

The scanner holds the line it is in, last byte first.  A line without a newline of its own goes into
it byte by byte, as long as it is shorter than the limit; the newline behind it moves it to the
lines that are done, and the next one begins with nothing held.  So if all that stands between
newlines fits, the scanner comes to what cutting the text at its newlines comes to.

Main definitions:

* `Lines.ofText` — the lines of a text, of whatever length;
* `Lines.IsLine` — a line that the scanner gives back as it is.

Main results:

* `Lines.scan_of_short` — **lines that fit are read**, and reading does not stop early;
* `Lines.scan_flatMap` — lines that end in a newline are read back.
-/

set_option autoImplicit false

namespace ReplBridge.Lines

/-- A line without a carriage return at its end. -/
def withoutReturn (line : Bytes) : Bytes :=
  if line.getLast? = some Bytes.carriageReturn then line.dropLast else line

/-- **The lines of a text**, of whatever length: what stands between newlines, and what stands
behind the last one unless it is empty. -/
def ofText (s : Bytes) : List Bytes :=
  let parts := Bytes.split [Bytes.newline] s
  (if parts.getLast? = some [] then parts.dropLast else parts).map withoutReturn

theorem ofReversed_reverse (line : Bytes) : ofReversed line.reverse = withoutReturn line := by
  rcases List.eq_nil_or_concat line with rfl | ⟨line, b, rfl⟩
  · rfl
  · rw [List.concat_eq_append, List.reverse_concat]
    by_cases hb : b = 0x0D
    · subst hb
      simp [ofReversed, withoutReturn, Bytes.carriageReturn]
    · simp [ofReversed, withoutReturn, Bytes.carriageReturn, hb]

/-- A line goes into the scanner byte by byte. -/
theorem scanFrom_append {limit size : Nat} {s : Bytes} (hnewline : Bytes.newline ∉ s)
    (hfits : size + s.length < limit) (line : Bytes) (done : List Bytes) (rest : Bytes) :
    scanFrom limit size line done (s ++ rest) =
      scanFrom limit (size + s.length) (s.reverse ++ line) done rest := by
  induction s generalizing size line with
  | nil => rfl
  | cons b s ih =>
      rw [List.mem_cons, not_or] at hnewline
      rw [List.length_cons] at hfits
      have hb : (b == Bytes.newline) = false := beq_eq_false_iff_ne.2 (Ne.symm hnewline.1)
      -- The bound leaves room for this byte and for the rest of the line.
      have hsize : ¬ limit ≤ size + 1 := by omega
      have hlength : size + 1 + s.length = size + (s.length + 1) := by omega
      rw [List.cons_append, scanFrom, hb, if_neg Bool.false_ne_true, if_neg hsize,
        ih hnewline.2 (by omega), hlength]
      simp

theorem scanFrom_spell {limit : Nat} {parts : List Bytes}
    (h : ∀ part ∈ parts, Bytes.newline ∉ part ∧ part.length < limit) (done : List Bytes)
    (rest : Bytes) :
    scanFrom limit 0 [] done (Bytes.spell [Bytes.newline] parts ++ rest) =
      scanFrom limit 0 [] ((parts.map withoutReturn).reverse ++ done) rest := by
  induction parts generalizing done with
  | nil => rfl
  | cons part parts ih =>
      obtain ⟨⟨hnewline, hfits⟩, hparts⟩ := List.forall_mem_cons.1 h
      rw [Bytes.spell_cons, List.append_assoc, scanFrom_append hnewline (by omega),
        List.append_assoc, List.singleton_append, scanFrom, beq_self_eq_true, if_pos rfl,
        List.append_nil, ofReversed_reverse, ih hparts]
      simp

/-- **Lines that fit are read.** -/
theorem scan_of_short {limit : Nat} {s : Bytes}
    (h : ∀ part ∈ Bytes.split [Bytes.newline] s, part.length < limit) :
    scan limit s = (ofText s, false) := by
  obtain ⟨parts, rest, hsplit, hcuts⟩ := Bytes.cuts_split (List.cons_ne_nil Bytes.newline []) s
  have hpart : ∀ part ∈ parts ++ [rest], Bytes.newline ∉ part ∧ part.length < limit := by
    rw [← hsplit]
    intro part hpart
    exact ⟨Bytes.not_mem_of_mem_split hpart, h part hpart⟩
  obtain ⟨hnewline, hfits⟩ := hpart rest (by simp)
  -- All but the last part have a newline behind them; the last one is a line unless it is empty.
  have hscan := scanFrom_spell (List.forall_mem_append.1 hpart).1 [] rest
  have hlast := scanFrom_append hnewline (by omega : 0 + rest.length < limit) []
    ((parts.map withoutReturn).reverse ++ []) []
  rw [List.append_nil rest] at hlast
  rw [hcuts.spelled, hlast] at hscan
  rw [scan, hscan, ofText, hsplit, scanFrom]
  cases rest with
  | nil => simp
  | cons b rest => simp [← ofReversed_reverse]

/-- A line that the scanner gives back as it is: no newline in it, no carriage return at its end,
and shorter than the limit. -/
structure IsLine (limit : Nat) (line : Bytes) : Prop where
  newline : Bytes.newline ∉ line
  /-- It does not end in a carriage return. -/
  ending : line.getLast? ≠ some 0x0D
  fits : line.length < limit

/-- **Lines that end in a newline are read back.** -/
theorem scan_flatMap {limit : Nat} {lines : List Bytes} (h : ∀ line ∈ lines, IsLine limit line) :
    scan limit (lines.flatMap (· ++ [Bytes.newline])) = (lines, false) := by
  have hscan :=
    scanFrom_spell (fun line hline => ⟨(h line hline).newline, (h line hline).fits⟩) [] []
  have hsame : lines.map withoutReturn = lines := by
    refine (List.map_congr_left fun line hline => ?_).trans (List.map_id lines)
    exact if_neg (h line hline).ending
  rw [List.append_nil, List.append_nil, hsame] at hscan
  rw [scan]
  exact hscan.trans (by simp [scanFrom])

end ReplBridge.Lines
