import ReplBridge.Proofs.Json.Grammar
import ReplBridge.Proofs.Text.Blank
import ReplBridge.Repl.Frame

/-!
**A frame accounts for every line.**

What a line is depends on nothing but its text without the white space around it, and in particular
not on how lines end.  A frame grows line by line: each line is kept as a publication, becomes the
primary answer or is counted, and is one of these exactly once.  So the frame of an output is a
matter of its trimmed lines: the publications among them in order, the first answer, and the number
of the rest.  Lines do not cross a newline, and the frame of two outputs, one after the other, is
made of their frames.

Main definitions:

* `Repl.trimmedLines` — the lines that are not blank, without the white space around them;
* `Repl.IsPublication`, `Repl.IsAnswer` — what a line is, by the grammar of JSON;
* `Repl.Frame.counted` — the number of lines a frame accounts for;
* `Repl.Frame.append` — the frame of two outputs, by their frames.

Main results:

* `Repl.publication?_read`, `Repl.answer?_read` — what is found on a line;
* `Repl.Frame.counted_add`, `Repl.Frame.counted_addAll` — a line counts once, and so do all lines;
* `Repl.trimmedLines_append`, `Repl.trimmedLines_crlf` — the lines of two outputs, and other line
  ends;
* `Repl.classify_accounts` — **nothing is lost and nothing invented**.
-/

set_option autoImplicit false

namespace ReplBridge

/-- The member that a key looks up is the first one that the key names. -/
theorem Json.lookup?_eq_some_iff {key : Bytes} {members : List (Bytes × Json)} {v : Json} :
    lookup? key members = some v ↔ ∃ before k after, members = before ++ (k, v) :: after ∧
      unescape k = key ∧ ∀ m ∈ before, unescape m.1 ≠ key := by
  constructor
  · intro h
    induction members with
    | nil => cases h
    | cons m members ih =>
        obtain ⟨k, w⟩ := m
        rw [lookup?] at h
        split at h
        · rename_i hk
          cases h
          exact ⟨[], k, members, rfl, beq_iff_eq.1 hk, nofun⟩
        · rename_i hk
          obtain ⟨before, k', after, rfl, hkey, hbefore⟩ := ih h
          refine ⟨(k, w) :: before, k', after, rfl, hkey, ?_⟩
          exact List.forall_mem_cons.2 ⟨fun heq => hk (beq_iff_eq.2 heq), hbefore⟩
  · rintro ⟨before, k, after, rfl, rfl, hbefore⟩
    induction before with
    | nil => simp [lookup?]
    | cons m before ih =>
        obtain ⟨hm, hbefore⟩ := List.forall_mem_cons.1 hbefore
        rw [List.cons_append, lookup?, if_neg (by simpa using hm)]
        exact ih hbefore

namespace Repl

/-! ### What a line is -/

def Line.publication? : Line → Option Bytes
  | .publication text => some text
  | _ => none

def Line.answer? : Line → Option Bytes
  | .answer text => some text
  | _ => none

/-- **A publication**: an object whose first member named `diagnostics` is an array. -/
def IsPublication (line : Bytes) : Prop :=
  ∃ before key items after, Json.IsText (.object (before ++ (key, .array items) :: after)) line ∧
    Json.unescape key = utf8 "diagnostics" ∧ ∀ m ∈ before, Json.unescape m.1 ≠ utf8 "diagnostics"

/-- **An answer**: any other object or array. -/
def IsAnswer (line : Bytes) : Prop :=
  ¬ IsPublication line ∧
    ((∃ members, Json.IsText (.object members) line) ∨ ∃ items, Json.IsText (.array items) line)

theorem isPublication_eq_true_iff {j : Json} : isPublication j = true ↔
    ∃ before key items after, j = .object (before ++ (key, .array items) :: after) ∧
      Json.unescape key = utf8 "diagnostics" ∧
      ∀ m ∈ before, Json.unescape m.1 ≠ utf8 "diagnostics" := by
  constructor
  · intro h
    unfold isPublication at h
    split at h
    · rename_i value hvalue
      cases j with
      | object members =>
          obtain ⟨before, key, after, rfl, hkey, hbefore⟩ := Json.lookup?_eq_some_iff.1 hvalue
          cases value with
          | array items => exact ⟨before, key, items, after, rfl, hkey, hbefore⟩
          | _ => cases h
      | _ => cases hvalue
    · cases h
  · rintro ⟨before, key, items, after, rfl, hkey, hbefore⟩
    have hvalue : Json.member? (utf8 "diagnostics")
        (.object (before ++ (key, .array items) :: after)) = some (.array items) :=
      Json.lookup?_eq_some_iff.2 ⟨before, key, after, rfl, hkey, hbefore⟩
    rw [isPublication, hvalue]
    rfl

theorem isPublication_iff {line : Bytes} :
    (Json.parse? line).any isPublication = true ↔ IsPublication line := by
  rw [Option.any_eq_true]
  constructor
  · rintro ⟨j, hj, hpublication⟩
    obtain ⟨before, key, items, after, rfl, hkey, hbefore⟩ :=
      isPublication_eq_true_iff.1 hpublication
    exact ⟨before, key, items, after, Json.parse?_eq_some_iff.1 hj, hkey, hbefore⟩
  · rintro ⟨before, key, items, after, htext, hkey, hbefore⟩
    exact ⟨_, Json.parse?_eq_some_iff.2 htext,
      isPublication_eq_true_iff.2 ⟨before, key, items, after, rfl, hkey, hbefore⟩⟩

theorem isAnswer_iff {line : Bytes} :
    (Json.parse? line).any (fun j => !isPublication j && (j.isObject || j.isArray)) = true ↔
      IsAnswer line := by
  rw [IsAnswer, ← isPublication_iff, Option.any_eq_true]
  constructor
  · rintro ⟨j, hj, hanswer⟩
    rw [Bool.and_eq_true, Bool.not_eq_true'] at hanswer
    refine ⟨by simp [hj, hanswer.1], ?_⟩
    have htext := Json.parse?_eq_some_iff.1 hj
    cases j with
    | object members => exact .inl ⟨members, htext⟩
    | array items => exact .inr ⟨items, htext⟩
    | _ => cases hanswer.2
  · rintro ⟨hnot, ⟨members, htext⟩ | ⟨items, htext⟩⟩
    · have hj := Json.parse?_eq_some_iff.2 htext
      simp only [hj, Option.any_some, Bool.not_eq_true] at hnot
      exact ⟨_, hj, by simp [hnot, Json.isObject]⟩
    · exact ⟨_, Json.parse?_eq_some_iff.2 htext, rfl⟩

instance : DecidablePred IsPublication := fun _ => decidable_of_iff _ isPublication_iff

instance : DecidablePred IsAnswer := fun _ => decidable_of_iff _ isAnswer_iff

theorem publication?_read {line : Bytes} (h : Blank.Trimmed line) :
    (Line.read line).publication? = Option.guard (fun l => IsPublication l) line := by
  have hdecide : decide (IsPublication line) = (Json.parse? line).any isPublication :=
    Bool.eq_iff_iff.2 (by rw [isPublication_iff, decide_eq_true_eq])
  rw [Option.guard, hdecide, Line.read, h.trim]
  cases Json.parse? line with
  | none => rfl
  | some j =>
      cases hpublication : isPublication j with
      | true => simp [hpublication, Line.publication?]
      | false =>
          simp only [hpublication, Option.any_some, Bool.false_eq_true, if_false]
          split <;> rfl

theorem answer?_read {line : Bytes} (h : Blank.Trimmed line) :
    (Line.read line).answer? = Option.guard (fun l => IsAnswer l) line := by
  have hdecide : decide (IsAnswer line) =
      (Json.parse? line).any fun j => !isPublication j && (j.isObject || j.isArray) :=
    Bool.eq_iff_iff.2 (by rw [isAnswer_iff, decide_eq_true_eq])
  rw [Option.guard, hdecide, Line.read, h.trim]
  cases Json.parse? line with
  | none => rfl
  | some j =>
      cases hpublication : isPublication j with
      | true => simp [hpublication, Line.answer?]
      | false =>
          simp only [hpublication, Option.any_some, Bool.not_false, Bool.true_and,
            Bool.false_eq_true, if_false]
          split <;> rfl

/-! ### Lines -/

/-- **The lines of a text** that are not blank, without the white space around them. -/
def trimmedLines (text : Bytes) : List Bytes :=
  ((Bytes.split [Bytes.newline] text).map Blank.trim).filter (· ≠ [])

theorem trimmed_of_mem_trimmedLines {text line : Bytes} (h : line ∈ trimmedLines text) :
    Blank.Trimmed line := by
  obtain ⟨raw, -, rfl⟩ := List.mem_map.1 (List.mem_filter.1 h).1
  exact Blank.trimmed_trim raw

/-- Carriage returns at the end of a line are white space. -/
theorem trim_dropEndWhile (line : Bytes) :
    Blank.trim (Bytes.dropEndWhile (· == Bytes.carriageReturn) line) = Blank.trim line := by
  have hwhite (n : Nat) : Blank.White (List.replicate n Bytes.carriageReturn) := by
    refine ⟨List.replicate n [Bytes.carriageReturn], ?_, by simp⟩
    intro e he
    rw [List.eq_of_mem_replicate he]
    decide
  have hall : ∀ b ∈ line.reverse.takeWhile (· == Bytes.carriageReturn),
      b = Bytes.carriageReturn := by
    intro b hb
    have hb := List.mem_takeWhile_imp hb
    exact beq_iff_eq.1 hb
  have hline : line = Bytes.dropEndWhile (· == Bytes.carriageReturn) line ++
      (line.reverse.takeWhile (· == Bytes.carriageReturn)).reverse := by
    rw [Bytes.dropEndWhile, ← List.reverse_append, List.takeWhile_append_dropWhile,
      List.reverse_reverse]
  -- The line is what is left and some carriage returns, which are white space.
  rw [List.eq_replicate_of_mem hall, List.reverse_replicate] at hline
  conv_rhs => rw [hline]
  exact (Blank.trim_surround Blank.white_nil (hwhite _) _).symm

theorem map_trim_lines (text : Bytes) : (lines text).map Blank.trim = trimmedLines text := by
  have hblank : (fun line => !Blank.isBlank line) = (fun line => decide (line ≠ [])) ∘ Blank.trim := by
    funext line
    rw [Function.comp_apply, Bool.eq_iff_iff]
    simp [← Blank.isBlank_iff]
  have htrim : Blank.trim ∘ Bytes.dropEndWhile (· == Bytes.carriageReturn) = Blank.trim :=
    funext trim_dropEndWhile
  rw [lines, trimmedLines, hblank, ← List.filter_map, List.map_map, htrim]

/-- White space around a line makes no difference. -/
theorem read_trim (line : Bytes) : Line.read (Blank.trim line) = Line.read line := by
  rw [Line.read, Line.read, (Blank.trimmed_trim line).trim]

theorem map_read_lines (text : Bytes) :
    (lines text).map Line.read = (trimmedLines text).map Line.read := by
  rw [← map_trim_lines, List.map_map]
  exact List.map_congr_left fun line _ => (read_trim line).symm

/-- **Lines do not cross a newline.** -/
theorem trimmedLines_append (a b : Bytes) :
    trimmedLines (a ++ Bytes.newline :: b) = trimmedLines a ++ trimmedLines b := by
  rw [trimmedLines, Bytes.split_append_cons, List.map_append, List.filter_append]
  rfl

/-- **Lines may end either way.** -/
theorem trimmedLines_crlf (text : Bytes) : trimmedLines (Bytes.crlf text) = trimmedLines text := by
  obtain ⟨parts, rest, hsplit, hcrlf⟩ := Bytes.split_crlf text
  have htrim (part : Bytes) : Blank.trim (part ++ [Bytes.carriageReturn]) = Blank.trim part :=
    Blank.trim_surround Blank.white_nil Blank.white_return part
  -- Every line but the last has got a carriage return, which trimming takes off.
  rw [trimmedLines, trimmedLines, hsplit, hcrlf, List.map_append, List.map_append, List.map_map]
  congr 2
  exact List.map_congr_left fun part _ => htrim part

/-! ### One line after the other -/

/-- The number of lines that a frame accounts for. -/
def Frame.counted (f : Frame) : Nat :=
  f.discarded + f.diagnostics.length + if f.primary.isSome then 1 else 0

namespace Frame

theorem diagnostics_add (f : Frame) (line : Line) :
    (f.add line).diagnostics = f.diagnostics ++ line.publication?.toList := by
  cases line with
  | publication text => rfl
  | answer text => cases h : f.primary <;> simp [add, h, Line.publication?]
  | noise => simp [add, Line.publication?]

theorem primary_add (f : Frame) (line : Line) :
    (f.add line).primary = f.primary.or line.answer? := by
  cases line with
  | publication text => simp [add, Line.answer?]
  | answer text => cases h : f.primary <;> simp [add, h, Line.answer?]
  | noise => simp [add, Line.answer?]

theorem counted_add (f : Frame) (line : Line) : (f.add line).counted = f.counted + 1 := by
  have hnoise : f.discarded + 1 + f.diagnostics.length + (if f.primary.isSome then 1 else 0) =
      f.counted + 1 := by
    unfold counted
    omega
  cases line with
  | publication text =>
      have hlength : (f.add (.publication text)).diagnostics.length = f.diagnostics.length + 1 :=
        List.length_append
      rw [← hnoise, counted, hlength]
      show f.discarded + (f.diagnostics.length + 1) + (if f.primary.isSome then 1 else 0) = _
      omega
  | answer text =>
      cases h : f.primary with
      | none => simp [add, counted, h]
      | some first => simpa [add, counted, h] using hnoise
  | noise => exact hnoise

/-- The text of a frame plays no part in what is found in it. -/
theorem add_text (f : Frame) (text : Bytes) (line : Line) :
    ({ f with text } : Frame).add line = { f.add line with text } := by
  cases line with
  | answer answer => cases h : f.primary <;> simp [add, h]
  | _ => rfl

/-- The lines of an output, one after the other. -/
def addAll (f : Frame) (found : List Line) : Frame := found.foldl add f

theorem diagnostics_addAll (f : Frame) (found : List Line) :
    (f.addAll found).diagnostics = f.diagnostics ++ found.filterMap Line.publication? := by
  induction found generalizing f with
  | nil => simp [addAll]
  | cons line found ih =>
      refine (ih (f.add line)).trans ?_
      rw [diagnostics_add, List.append_assoc]
      cases h : line.publication? <;> simp [h]

theorem primary_addAll (f : Frame) (found : List Line) :
    (f.addAll found).primary = f.primary.or (found.findSome? Line.answer?) := by
  induction found generalizing f with
  | nil => simp [addAll]
  | cons line found ih =>
      refine (ih (f.add line)).trans ?_
      rw [primary_add, Option.or_assoc, List.findSome?_cons]
      cases line.answer? <;> rfl

theorem counted_addAll (f : Frame) (found : List Line) :
    (f.addAll found).counted = f.counted + found.length := by
  induction found generalizing f with
  | nil => rfl
  | cons line found ih =>
      refine (ih (f.add line)).trans ?_
      rw [counted_add, List.length_cons]
      omega

theorem addAll_text (f : Frame) (text : Bytes) (found : List Line) :
    ({ f with text } : Frame).addAll found = { f.addAll found with text } := by
  induction found generalizing f with
  | nil => rfl
  | cons line found ih =>
      refine Eq.trans ?_ (ih (f.add line))
      rw [← add_text]
      rfl

theorem text_addAll (f : Frame) (found : List Line) : (f.addAll found).text = f.text := by
  rw [show f = { f with text := f.text } from rfl, addAll_text]

end Frame

/-! ### Frames -/

theorem classify_eq (text : Bytes) :
    classify text = ({ text } : Frame).addAll ((trimmedLines text).map Line.read) := by
  rw [← map_read_lines, Frame.addAll, List.foldl_map]
  rfl

theorem text_classify (text : Bytes) : (classify text).text = text := by
  rw [classify_eq, Frame.text_addAll]

theorem diagnostics_classify (text : Bytes) :
    (classify text).diagnostics = (trimmedLines text).filter fun l => IsPublication l := by
  have hread : ((trimmedLines text).map Line.read).filterMap Line.publication? =
      (trimmedLines text).filterMap (Option.guard fun l => IsPublication l) := by
    rw [List.filterMap_map]
    exact List.filterMap_congr fun line hline =>
      publication?_read (trimmed_of_mem_trimmedLines hline)
  rw [classify_eq, Frame.diagnostics_addAll, List.nil_append]
  exact hread.trans (congrFun List.filterMap_eq_filter _)

theorem primary_classify (text : Bytes) :
    (classify text).primary = (trimmedLines text).find? fun l => IsAnswer l := by
  have hread : ∀ ls : List Bytes, (∀ l ∈ ls, Blank.Trimmed l) →
      (ls.map Line.read).findSome? Line.answer? = ls.find? fun l => IsAnswer l := by
    intro ls h
    induction ls with
    | nil => rfl
    | cons l ls ih =>
        obtain ⟨hl, hls⟩ := List.forall_mem_cons.1 h
        rw [List.map_cons, List.findSome?_cons, answer?_read hl, List.find?_cons, ih hls,
          Option.guard]
        cases decide (IsAnswer l) <;> rfl
  rw [classify_eq, Frame.primary_addAll, Option.none_or]
  exact hread _ fun l => trimmed_of_mem_trimmedLines

/-- **Every line is accounted for.** -/
theorem length_trimmedLines (text : Bytes) :
    (trimmedLines text).length = (classify text).discarded + (classify text).diagnostics.length +
      (if (classify text).primary.isSome then 1 else 0) := by
  have hcounted := Frame.counted_addAll { text } ((trimmedLines text).map Line.read)
  rw [← classify_eq, List.length_map] at hcounted
  exact (hcounted.trans (Nat.zero_add _)).symm

/-- **The frame of two outputs**, one after the other and a newline between them.  The first answer
stays the primary one. -/
def Frame.append (f g : Frame) : Frame where
  text := f.text ++ Bytes.newline :: g.text
  primary := f.primary.or g.primary
  diagnostics := f.diagnostics ++ g.diagnostics
  discarded := f.discarded + g.discarded + if f.primary.isSome && g.primary.isSome then 1 else 0

theorem classify_append (a b : Bytes) :
    classify (a ++ Bytes.newline :: b) = (classify a).append (classify b) := by
  have hdiagnostics : (classify (a ++ Bytes.newline :: b)).diagnostics =
      (classify a).diagnostics ++ (classify b).diagnostics := by
    rw [diagnostics_classify, trimmedLines_append, List.filter_append, ← diagnostics_classify,
      ← diagnostics_classify]
  have hprimary : (classify (a ++ Bytes.newline :: b)).primary =
      (classify a).primary.or (classify b).primary := by
    rw [primary_classify, trimmedLines_append, List.find?_append, ← primary_classify,
      ← primary_classify]
  have hdiscarded : (classify (a ++ Bytes.newline :: b)).discarded =
      (classify a).discarded + (classify b).discarded +
        if (classify a).primary.isSome && (classify b).primary.isSome then 1 else 0 := by
    -- Both sides make up for the same lines.
    have hlength := length_trimmedLines (a ++ Bytes.newline :: b)
    rw [trimmedLines_append, List.length_append, length_trimmedLines a, length_trimmedLines b,
      hdiagnostics, hprimary, List.length_append, Option.isSome_or] at hlength
    cases ha : (classify a).primary.isSome <;> cases hb : (classify b).primary.isSome <;>
      simp only [ha, hb, Bool.or_false, Bool.or_true, Bool.and_true, Bool.and_false,
        Bool.false_eq_true, if_true, if_false] at hlength ⊢ <;> omega
  have htext : (classify (a ++ Bytes.newline :: b)).text =
      (classify a).text ++ Bytes.newline :: (classify b).text := by
    simp only [text_classify]
  rw [Frame.append, ← hprimary, ← hdiagnostics, ← hdiscarded, ← htext]

theorem classify_crlf (text : Bytes) :
    classify (Bytes.crlf text) = { classify text with text := Bytes.crlf text } := by
  rw [classify_eq, classify_eq, trimmedLines_crlf]
  exact Frame.addAll_text { text } (Bytes.crlf text) _

/-- **Nothing is lost and nothing invented.**  The publications are kept in order, the primary answer
is the first, and every other line counts; the frame of two outputs is made of theirs; and how lines
end makes no difference. -/
theorem classify_accounts (a b : Bytes) :
    (classify a).diagnostics = (trimmedLines a).filter (fun l => IsPublication l) ∧
    (classify a).primary = (trimmedLines a).find? (fun l => IsAnswer l) ∧
    (trimmedLines a).length = (classify a).discarded + (classify a).diagnostics.length +
      (if (classify a).primary.isSome then 1 else 0) ∧
    classify (a ++ Bytes.newline :: b) = (classify a).append (classify b) ∧
    classify (Bytes.crlf a) = { classify a with text := Bytes.crlf a } :=
  ⟨diagnostics_classify a, primary_classify a, length_trimmedLines a, classify_append a b,
    classify_crlf a⟩

end Repl

end ReplBridge
