import ReplBridge.Analysis.Command
import ReplBridge.Proofs.Text.Decimal

/-!
**A command says one thing only.**

A path may hold anything: quotes, a backslash at its end, a line feed and the text of another
command.  It stands in a command as a string literal, and whatever could end the literal or the line
is spelled by two harmless bytes there.  So a reader that stops at the first quote that is not part
of an escape has read all of the literal and nothing else, and it has the path.  From there a
command can be taken apart: the name ends at the first space, the literal where its reader stops,
and a number at the next space.

Main definitions:

* `Analysis.Spells` — what a literal holds, and the text that it spells;
* `Analysis.Unbroken` — a text without line feeds, carriage returns and tabs;
* `Analysis.Query.name`, `Analysis.Query.path`, `Analysis.Query.place?` — what a question is made
  of.

Main results:

* `Analysis.readLiteral_eq_some_iff` — the reader takes exactly the literals;
* `Analysis.readLiteral_quote` — **a literal reads back**, whatever stands after it;
* `Analysis.command_eq` — what a command is made of;
* `Analysis.command_says_one_thing` — **a command is one line, and determines its question**.
-/

set_option autoImplicit false

namespace ReplBridge.Analysis

/-! ### String literals -/

/-- A byte is spelled by itself, or by a backslash and a byte that stands for it. -/
theorem spellByte_cases (b : UInt8) :
    (∃ c, spellByte b = [0x5C, c] ∧ escaped? c = some b ∧ c ≠ 0x0A ∧ c ≠ 0x0D ∧ c ≠ 0x09) ∨
      spellByte b = [b] ∧ b ≠ 0x22 ∧ b ≠ 0x5C ∧ b ≠ 0x0A ∧ b ≠ 0x0D ∧ b ≠ 0x09 := by
  by_cases hslash : b = 0x5C
  · subst hslash
    exact .inl ⟨0x5C, by decide⟩
  by_cases hquote : b = 0x22
  · subst hquote
    exact .inl ⟨0x22, by decide⟩
  by_cases hfeed : b = 0x0A
  · subst hfeed
    exact .inl ⟨0x6E, by decide⟩
  by_cases hreturn : b = 0x0D
  · subst hreturn
    exact .inl ⟨0x72, by decide⟩
  by_cases htab : b = 0x09
  · subst htab
    exact .inl ⟨0x74, by decide⟩
  · refine .inr ⟨?_, hquote, hslash, hfeed, hreturn, htab⟩
    simp [spellByte, hslash, hquote, hfeed, hreturn, htab]

/-- **What stands between the quotes of a literal**, and the text it spells: a quote stands there
only behind a backslash. -/
inductive Spells : Bytes → Bytes → Prop where
  | done : Spells [] []
  | plain {b : UInt8} {body s : Bytes} (hquote : b ≠ 0x22) (hslash : b ≠ 0x5C)
      (h : Spells body s) : Spells (b :: body) (b :: s)
  | escaped {b c : UInt8} {body s : Bytes} (hc : escaped? c = some b) (h : Spells body s) :
      Spells (0x5C :: c :: body) (b :: s)

theorem readBody_plain {b : UInt8} (hquote : b ≠ 0x22) (hslash : b ≠ 0x5C) (t : Bytes) :
    readBody (b :: t) = (readBody t).map fun p => (b :: p.1, p.2) := by
  rw [readBody]
  · simp [hslash]
  · exact hquote
  · intro c rest hb
    exact absurd hb hslash

theorem readBody_of_spells {body s : Bytes} (h : Spells body s) (rest : Bytes) :
    readBody (body ++ 0x22 :: rest) = some (s, rest) := by
  induction h with
  | done => rfl
  | plain hquote hslash _ ih =>
      rw [List.cons_append, readBody_plain hquote hslash, ih]
      rfl
  | escaped hc _ ih => simp only [List.cons_append, readBody, hc, ih]

theorem spells_of_readBody {t s rest : Bytes} (h : readBody t = some (s, rest)) :
    ∃ body, Spells body s ∧ t = body ++ 0x22 :: rest := by
  fun_induction readBody t generalizing s with
  | case1 => cases h
  | case2 after =>
      cases h
      exact ⟨[], .done, rfl⟩
  | case3 c t b s' after hread hc ih =>
      cases h
      obtain ⟨body, hbody, rfl⟩ := ih hread
      exact ⟨0x5C :: c :: body, .escaped hc hbody, rfl⟩
  | case4 => cases h
  | case5 => cases h
  | case6 b t hquote _ hslash ih =>
      obtain ⟨⟨s', after⟩, hread, heq⟩ := Option.map_eq_some_iff.1 h
      cases heq
      obtain ⟨body, hbody, rfl⟩ := ih hread
      exact ⟨b :: body, .plain hquote (by simpa using hslash) hbody, rfl⟩

/-- **The reader takes a literal up to its closing quote**, which is the first quote that is not
part of an escape, and it takes nothing else. -/
theorem readLiteral_eq_some_iff {t s rest : Bytes} :
    readLiteral t = some (s, rest) ↔
      ∃ body, Spells body s ∧ t = 0x22 :: (body ++ 0x22 :: rest) := by
  constructor
  · intro h
    unfold readLiteral at h
    split at h
    · obtain ⟨body, hbody, rfl⟩ := spells_of_readBody h
      exact ⟨body, hbody, rfl⟩
    · cases h
  · rintro ⟨body, hbody, rfl⟩
    exact readBody_of_spells hbody rest

theorem spells_quoted (s : Bytes) : Spells (s.flatMap spellByte) s := by
  induction s with
  | nil => exact .done
  | cons b s ih =>
      rw [List.flatMap_cons]
      rcases spellByte_cases b with ⟨c, hspell, hc, -⟩ | ⟨hspell, hquote, hslash, -⟩
      · rw [hspell]
        exact .escaped hc ih
      · rw [hspell]
        exact .plain hquote hslash ih

/-- **A literal reads back**, whatever stands after it. -/
theorem readLiteral_quote (s rest : Bytes) : readLiteral (quote s ++ rest) = some (s, rest) :=
  readLiteral_eq_some_iff.2 ⟨_, spells_quoted s, by simp [quote]⟩

theorem quote_append_inj {s s' rest rest' : Bytes} (h : quote s ++ rest = quote s' ++ rest') :
    s = s' ∧ rest = rest' := by
  have hread : some (s, rest) = some (s', rest') := by
    rw [← readLiteral_quote s rest, h, readLiteral_quote s' rest']
  exact Prod.mk.inj (Option.some.inj hread)

/-! ### One line -/

/-- **Neither line feeds nor carriage returns nor tabs.** -/
def Unbroken (t : Bytes) : Prop := ∀ b ∈ t, b ≠ 0x0A ∧ b ≠ 0x0D ∧ b ≠ 0x09

instance (t : Bytes) : Decidable (Unbroken t) := inferInstanceAs (Decidable (∀ b ∈ t, _))

theorem Unbroken.append {t u : Bytes} (ht : Unbroken t) (hu : Unbroken u) : Unbroken (t ++ u) := by
  intro b hb
  rcases List.mem_append.1 hb with hb | hb
  · exact ht b hb
  · exact hu b hb

theorem unbroken_spellByte (b : UInt8) : Unbroken (spellByte b) := by
  rcases spellByte_cases b with ⟨c, hspell, -, hc⟩ | ⟨hspell, -, -, hb⟩
  · rw [hspell]
    intro d hd
    rcases List.mem_cons.1 hd with rfl | hd
    · decide
    · rw [List.mem_singleton.1 hd]
      exact hc
  · rw [hspell]
    intro d hd
    rw [List.mem_singleton.1 hd]
    exact hb

theorem unbroken_quote (s : Bytes) : Unbroken (quote s) := by
  have hmark : Unbroken [0x22] := by decide +kernel
  have hbody : Unbroken (s.flatMap spellByte) := by
    intro b hb
    obtain ⟨c, -, hc⟩ := List.mem_flatMap.1 hb
    exact unbroken_spellByte c b hc
  exact (hmark.append hbody).append hmark

theorem unbroken_ofInt (n : Int) : Unbroken (Decimal.ofInt n) := by
  intro b hb
  rcases Decimal.mem_ofInt hb with rfl | hdigit
  · decide
  · refine ⟨?_, ?_, ?_⟩ <;>
      · rintro rfl
        cases hdigit

theorem space_not_mem_ofInt (n : Int) : 0x20 ∉ Decimal.ofInt n := by
  intro h
  rcases Decimal.mem_ofInt h with hminus | hdigit
  · cases hminus
  · cases hdigit

/-! ### What a command is made of -/

/-- The name of the analysis that a question asks for. -/
def Query.name : Query → String
  | .hover _ _ _ => "text-document/hover"
  | .definition _ _ _ => "text-document/definition"
  | .symbols _ => "text-document/document-symbol"
  | .completion _ => "text-document/completion"
  | .validate _ => "validate"

def Query.path : Query → Bytes
  | .hover path _ _ | .definition path _ _ => path
  | .symbols path | .completion path | .validate path => path

/-- The line and the column, if the question is about a place. -/
def Query.place? : Query → Option (Int × Int)
  | .hover _ line column | .definition _ line column => some (line, column)
  | .symbols _ | .completion _ | .validate _ => none

/-- How a place stands in a command, behind the path. -/
def spellPlace : Option (Int × Int) → Bytes
  | none => []
  | some (line, column) => 0x20 :: Decimal.ofInt line ++ 0x20 :: Decimal.ofInt column

/-- **What a command is made of.** -/
theorem command_eq (q : Query) :
    q.command = utf8 "(Analysis." ++
      (utf8 q.name ++ 0x20 :: (quote q.path ++ (spellPlace q.place? ++ utf8 ")"))) := by
  cases q <;>
    simp [Query.command, placeCommand, documentCommand, Query.name, Query.path, Query.place?,
      spellPlace]

theorem Query.eq_of_parts {q q' : Query} (hname : q.name = q'.name) (hpath : q.path = q'.path)
    (hplace : q.place? = q'.place?) : q = q' := by
  cases q <;> cases q' <;> simp_all [Query.name, Query.path, Query.place?]

theorem unbroken_spellPlace (place : Option (Int × Int)) : Unbroken (spellPlace place) := by
  have hspace : Unbroken [0x20] := by decide +kernel
  cases place with
  | none => decide +kernel
  | some place =>
      exact (hspace.append (unbroken_ofInt place.1)).append
        (hspace.append (unbroken_ofInt place.2))

theorem name_plain (q : Query) : Unbroken (utf8 q.name) ∧ 0x20 ∉ utf8 q.name := by
  cases q <;> simp only [Query.name] <;> decide +kernel

theorem unbroken_command (q : Query) : Unbroken q.command := by
  have hspace : Unbroken [0x20] := by decide +kernel
  rw [command_eq]
  refine Unbroken.append (by decide +kernel) ((name_plain q).1.append (hspace.append ?_))
  exact (unbroken_quote q.path).append ((unbroken_spellPlace q.place?).append (by decide +kernel))

/-! ### Taking a command apart -/

/-- Two texts that are cut at their first space agree before it and after it. -/
theorem append_space_inj {u u' x x' : Bytes} (hu : 0x20 ∉ u) (hu' : 0x20 ∉ u')
    (h : u ++ 0x20 :: x = u' ++ 0x20 :: x') : u = u' ∧ x = x' := by
  -- One of the two beginnings continues the other, and what it has more begins with a space.
  rcases List.append_eq_append_iff.1 h with ⟨more, rfl, hx⟩ | ⟨more, rfl, hx⟩
  · cases more with
    | nil => exact ⟨by simp, by simpa using hx⟩
    | cons b more =>
        obtain ⟨rfl, -⟩ := List.cons.inj hx
        exact absurd (by simp) hu'
  · cases more with
    | nil => exact ⟨by simp, by simpa [eq_comm] using hx⟩
    | cons b more =>
        obtain ⟨rfl, -⟩ := List.cons.inj hx
        exact absurd (by simp) hu

theorem name_inj {q q' : Query} (h : utf8 q.name = utf8 q'.name) : q.name = q'.name := by
  refine String.toByteArray_inj.1 (ByteArray.ext ?_)
  exact Array.toList_inj.1 h

theorem spellPlace_injective : Function.Injective spellPlace := by
  intro place place' h
  cases place with
  | none =>
      cases place' with
      | none => rfl
      | some place' => cases h
  | some place =>
      cases place' with
      | none => cases h
      | some place' =>
          obtain ⟨-, h⟩ := List.cons.inj h
          obtain ⟨hline, hcolumn⟩ :=
            append_space_inj (space_not_mem_ofInt _) (space_not_mem_ofInt _) h
          rw [Prod.ext (Decimal.ofInt_injective hline) (Decimal.ofInt_injective hcolumn)]

theorem command_injective : Function.Injective Query.command := by
  intro q q' h
  rw [command_eq, command_eq] at h
  have hnamed := List.append_cancel_left h
  obtain ⟨hname, hquoted⟩ := append_space_inj (name_plain q).2 (name_plain q').2 hnamed
  obtain ⟨hpath, hplaced⟩ := quote_append_inj hquoted
  have hplace := spellPlace_injective (List.append_cancel_right hplaced)
  exact Query.eq_of_parts (name_inj hname) hpath hplace

/-- **A command says one thing only.**  It is one line without tabs, whatever the path.  A reader of
string literals, which takes exactly what stands up to the first quote that is not escaped, takes of
a quoted path and anything behind it the quoted path, and gives the path back.  Two questions that
differ in what is asked, in the path, the line or the column have different commands. -/
theorem command_says_one_thing :
    (∀ q : Query, Unbroken q.command) ∧
    (∀ t s rest : Bytes, readLiteral t = some (s, rest) ↔
      ∃ body, Spells body s ∧ t = 0x22 :: (body ++ 0x22 :: rest)) ∧
    (∀ path rest : Bytes, readLiteral (quote path ++ rest) = some (path, rest)) ∧
    Function.Injective Query.command :=
  ⟨unbroken_command, fun _ _ _ => readLiteral_eq_some_iff, readLiteral_quote, command_injective⟩

/-- A path that looks like the end of its command and the beginning of another. -/
example : readLiteral (quote (utf8 "a\\\" 1 2)\n(quit)") ++ utf8 " 1 2)") =
    some (utf8 "a\\\" 1 2)\n(quit)", utf8 " 1 2)") := by
  decide +kernel

end ReplBridge.Analysis
