import ReplBridge.Console.Command
import ReplBridge.Proofs.Text.Words

/-!
**What a line at the console asks for.**

The console trims a line to see whether it begins with a colon, and cuts it into words to see which
of its own commands it is.  Here a line is described by its words alone: which command it sends to
the compiler, if any, and whether it asks for the end.  Every line does at most one of the two, and
whatever else a line may be does not mean that the session is over.

Main definitions:

* `Console.question?` — the question that one of the console's own commands asks;
* `Console.sent?` — **what a line sends to the compiler**;
* `Console.Quits` — a line that asks for the end.

Main results:

* `Console.read_of_words` — a line is read by its words;
* `Console.command?_read` — **a line sends what it means**;
* `Console.read_of_quits`, `Console.read_cases` — what a line can be.
-/

set_option autoImplicit false

namespace ReplBridge

theorem utf8_inj {s t : String} : utf8 s = utf8 t ↔ s = t := by
  constructor
  · intro h
    have hdata : s.toUTF8.data = t.toUTF8.data := Array.toList_inj.1 h
    exact String.toByteArray_inj.1 (ByteArray.ext hdata)
  · rintro rfl
    rfl

namespace Console

/-! ### By words -/

/-- The only argument, if there is just one. -/
def only? : List Bytes → Option Bytes
  | [path] => some path
  | _ => none

/-- The place that three arguments name, if the numbers among them are right. -/
def place? : List Bytes → Option Place
  | [path, lineArg, columnArg] => do
    let line ← numberFrom? 1 lineArg
    let column ← numberFrom? 0 columnArg
    return { path, line, column }
  | _ => none

/-- The question that one of the console's own commands asks.  Help asks none, and neither does a
command that there is not or one whose arguments are wrong. -/
def question? (name : Bytes) (args : List Bytes) : Option Analysis.Query :=
  if name = utf8 ":hover" then (place? args).map fun p => .hover p.path p.line p.column
  else if name = utf8 ":def" then (place? args).map fun p => .definition p.path p.line p.column
  else if name = utf8 ":symbols" then (only? args).map .symbols
  else if name = utf8 ":complete" then (only? args).map .completion
  else if name = utf8 ":validate" then (only? args).map .validate
  else none

/-- **What a line sends to the compiler**: the command of the question it asks if its first word
begins with a colon, and otherwise itself, without the white space around it. -/
def sent? (line : Bytes) : Option Bytes := do
  let name ← (Blank.fields line).head?
  if name.head? = some 0x3A then
    return (← question? name (Blank.fields line).tail).command
  else return Blank.trim line

/-- A line that asks for the end: the first of its words does. -/
def Quits (line : Bytes) : Prop :=
  (Blank.fields line).head? = some (utf8 ":quit") ∨ (Blank.fields line).head? = some (utf8 ":q")

/-! ### How a line is read -/

theorem read_of_blank {line : Bytes} (h : Blank.fields line = []) : Action.read line = .none := by
  rw [Action.read, Blank.fields_eq_nil_iff.1 h]

/-- **A line is read by its words.** -/
theorem read_of_words {line name : Bytes} {args : List Bytes}
    (h : Blank.fields line = name :: args) :
    Action.read line =
      if name.head? = some 0x3A then Action.ofCommand name args
      else .execute (Blank.trim line) := by
  cases htrim : Blank.trim line with
  | nil =>
      rw [Blank.fields_eq_nil_iff.2 htrim] at h
      cases h
  | cons b rest =>
      -- The first word begins with the byte that the trimmed line begins with.
      obtain ⟨word, more, hwords⟩ := Blank.fields_cons htrim
      obtain ⟨rfl, rfl⟩ := List.cons.inj (h.symm.trans hwords)
      have hsame : Blank.fields (b :: rest) = (b :: word) :: args := by
        rw [← htrim, Blank.fields_trim, h]
      rw [Action.read, htrim]
      by_cases hb : b = 0x3A
      · subst hb
        simp [hsame]
      · simp [hb]

theorem command?_aboutPlace (name : Bytes) (args : List Bytes)
    (q : Bytes → Int → Int → Analysis.Query) :
    (Action.aboutPlace name args q).command? =
      (place? args).map fun p => (q p.path p.line p.column).command := by
  rcases args with _ | ⟨path, _ | ⟨lineArg, _ | ⟨columnArg, _ | ⟨more, rest⟩⟩⟩⟩
  · rfl
  · rfl
  · rfl
  · simp only [Action.aboutPlace, Place.read, place?]
    cases numberFrom? 1 lineArg <;> cases numberFrom? 0 columnArg <;> rfl
  · rfl

theorem command?_aboutFile (name : Bytes) (args : List Bytes) (q : Bytes → Analysis.Query) :
    (Action.aboutFile name args q).command? = (only? args).map fun path => (q path).command := by
  rcases args with _ | ⟨path, _ | ⟨more, rest⟩⟩ <;> rfl

/-- One of the console's own commands sends the question it asks. -/
theorem command?_ofCommand (name : Bytes) (args : List Bytes) :
    (Action.ofCommand name args).command? = (question? name args).map Analysis.Query.command := by
  by_cases hquit : name = utf8 ":quit" ∨ name = utf8 ":q"
  · rcases hquit with rfl | rfl <;> simp [Action.ofCommand, question?, utf8_inj, Action.command?]
  by_cases hhelp : name = utf8 ":help" ∨ name = utf8 ":h"
  · rcases hhelp with rfl | rfl <;> simp [Action.ofCommand, question?, utf8_inj, Action.command?]
  simp only [Action.ofCommand, Bool.or_eq_true, beq_iff_eq, if_neg hquit, if_neg hhelp, question?]
  split_ifs
  · rw [command?_aboutPlace, Option.map_map]
    rfl
  · rw [command?_aboutPlace, Option.map_map]
    rfl
  · rw [command?_aboutFile, Option.map_map]
    rfl
  · rw [command?_aboutFile, Option.map_map]
    rfl
  · rw [command?_aboutFile, Option.map_map]
    rfl
  · rfl

/-- **A line sends what it means.** -/
theorem command?_read (line : Bytes) : (Action.read line).command? = sent? line := by
  cases hwords : Blank.fields line with
  | nil =>
      rw [read_of_blank hwords, sent?, hwords]
      rfl
  | cons name args =>
      rw [read_of_words hwords, sent?, hwords]
      simp only [List.head?_cons, List.tail_cons, Option.bind_eq_bind, Option.bind_some]
      split_ifs
      · rw [command?_ofCommand]
        cases question? name args <;> rfl
      · rfl

/-! ### What a line can be -/

theorem aboutPlace_cases (name : Bytes) (args : List Bytes)
    (q : Bytes → Int → Int → Analysis.Query) :
    (∃ asked, Action.aboutPlace name args q = .query asked) ∨
      ∃ fault, Action.aboutPlace name args q = .wrong fault ∧ fault.wraps .terminated = false := by
  unfold Action.aboutPlace
  cases Place.read args with
  | ok p => exact .inl ⟨_, rfl⟩
  | error cause => exact .inr ⟨_, rfl, rfl⟩

theorem aboutFile_cases (name : Bytes) (args : List Bytes) (q : Bytes → Analysis.Query) :
    (∃ asked, Action.aboutFile name args q = .query asked) ∨
      ∃ fault, Action.aboutFile name args q = .wrong fault ∧ fault.wraps .terminated = false := by
  unfold Action.aboutFile
  split
  · exact .inl ⟨_, rfl⟩
  · exact .inr ⟨_, rfl, rfl⟩

/-- What the console's own commands come to, other than the end. -/
theorem ofCommand_cases {name : Bytes} (h : ¬ (name = utf8 ":quit" ∨ name = utf8 ":q"))
    (args : List Bytes) :
    Action.ofCommand name args = .help ∨ (∃ asked, Action.ofCommand name args = .query asked) ∨
      ∃ fault, Action.ofCommand name args = .wrong fault ∧ fault.wraps .terminated = false := by
  simp only [Action.ofCommand, Bool.or_eq_true, beq_iff_eq, if_neg h]
  split_ifs
  · exact .inl rfl
  · exact .inr (aboutPlace_cases name args .hover)
  · exact .inr (aboutPlace_cases name args .definition)
  · exact .inr (aboutFile_cases name args .symbols)
  · exact .inr (aboutFile_cases name args .completion)
  · exact .inr (aboutFile_cases name args .validate)
  · exact .inr (.inr ⟨_, rfl, rfl⟩)

/-- **A line whose first word asks for the end** does. -/
theorem read_of_quits {line : Bytes} (h : Quits line) : Action.read line = .quit := by
  cases hwords : Blank.fields line with
  | nil => simp [Quits, hwords] at h
  | cons name args =>
      simp only [Quits, hwords, List.head?_cons, Option.some.injEq] at h
      have hcolon : name.head? = some 0x3A := by
        rcases h with rfl | rfl <;> decide
      rw [read_of_words hwords, if_pos hcolon]
      simp only [Action.ofCommand, Bool.or_eq_true, beq_iff_eq, if_pos h]

/-- **What a line comes to that does not ask for the end.** -/
theorem read_cases {line : Bytes} (h : ¬ Quits line) :
    Action.read line = .none ∨ (∃ command, Action.read line = .execute command) ∨
      Action.read line = .help ∨ (∃ asked, Action.read line = .query asked) ∨
      ∃ fault, Action.read line = .wrong fault ∧ fault.wraps .terminated = false := by
  cases hwords : Blank.fields line with
  | nil => exact .inl (read_of_blank hwords)
  | cons name args =>
      rw [read_of_words hwords]
      split_ifs with hcolon
      · refine .inr (.inr (ofCommand_cases ?_ args))
        simpa [Quits, hwords] using h
      · exact .inr (.inl ⟨_, rfl⟩)

end Console

end ReplBridge
