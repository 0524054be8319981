import Mathlib.Data.List.TakeWhile
import ReplBridge.Json.Reader

/-!
**The literals of numbers.**

The reader goes through a number part by part, and whether a number may end depends on the part it
is in.  Read from the last part back to the first, the texts that lead to such an end are those of
the grammar: an optional sign, a zero or digits that do not begin with one, an optional fraction and
an optional exponent.

Main definitions:

* `Json.IsNumber` — the literals that the reader takes, part by part;
* `Json.Literal` — the literals of the grammar;
* `Json.NumberPart.Ends` — the texts that end a number from where it stands.

Main results:

* `Json.isNumber_iff` — **the reader takes the literals of the grammar**;
* `Json.run_isNumber` — a literal is read as far as it goes.
-/

set_option autoImplicit false

namespace ReplBridge.Json

variable {b : UInt8} {part : NumberPart} {s : Bytes}

/-! ### Part by part -/

/-- The part of a number that its first byte is. -/
def NumberPart.first? (b : UInt8) : Option NumberPart :=
  if b == 0x2D then some .minus
  else if b == 0x30 then some .zero
  else if Bytes.isDigit b then some .whole
  else none

def NumberPart.after? (part : NumberPart) : Bytes → Option NumberPart
  | [] => some part
  | b :: rest => (part.next? b).bind (·.after? rest)

/-- **The literals of numbers.** -/
inductive IsNumber : Bytes → Prop where
  | mk {b : UInt8} {rest : Bytes} {first last : NumberPart}
      (hfirst : NumberPart.first? b = some first) (hrest : first.after? rest = some last)
      (hend : last.isEnd = true) : IsNumber (b :: rest)

theorem not_isSpace_of_first? (h : NumberPart.first? b = some part) : isSpace b = false := by
  cases hspace : isSpace b with
  | false => rfl
  | true =>
      simp only [isSpace, Bool.or_eq_true, beq_iff_eq] at hspace
      rcases hspace with ((rfl | rfl) | rfl) | rfl <;> cases h

theorem begin_of_first? (h : NumberPart.first? b = some part) (stack : List Container) :
    Reader.begin stack b = some ⟨stack, .number part [b]⟩ := by
  unfold NumberPart.first? at h
  unfold Reader.begin
  split at h
  · rename_i hb
    obtain rfl := beq_iff_eq.1 hb
    cases h
    rfl
  split at h
  · rename_i hb
    obtain rfl := beq_iff_eq.1 hb
    cases h
    rfl
  split at h
  · rename_i hminus hzero hdigit
    cases h
    have hne (x : UInt8) (hx : Bytes.isDigit x = false) : (b == x) = false := by
      refine beq_eq_false_iff_ne.2 ?_
      rintro rfl
      simp [hx] at hdigit
    simp [hne 0x7B rfl, hne 0x5B rfl, hne 0x22 rfl, hne 0x2D rfl, hdigit]
    simpa using hzero
  · cases h

theorem run_after? {rest : Bytes} {part last : NumberPart} (h : part.after? rest = some last)
    (stack : List Container) (acc tail : Bytes) :
    Reader.run ⟨stack, .number part acc⟩ (rest ++ tail) =
      Reader.run ⟨stack, .number last (rest.reverse ++ acc)⟩ tail := by
  induction rest generalizing part acc with
  | nil =>
      cases h
      rfl
  | cons b rest ih =>
      obtain ⟨next, hnext, hrest⟩ := Option.bind_eq_some_iff.1 h
      simp [Reader.run, Reader.step, hnext, ih hrest]

/-- **A number is read as far as it goes.** -/
theorem run_isNumber {literal : Bytes} (h : IsNumber literal) (stack : List Container)
    (tail : Bytes) : ∃ last : NumberPart, last.isEnd = true ∧
      Reader.run ⟨stack, .value⟩ (literal ++ tail) =
        Reader.run ⟨stack, .number last literal.reverse⟩ tail := by
  obtain @⟨b, rest, first, last, hfirst, hrest, hend⟩ := h
  refine ⟨last, hend, ?_⟩
  have hstep : Reader.step ⟨stack, .value⟩ b = some ⟨stack, .number first [b]⟩ := by
    simp [Reader.step, not_isSpace_of_first? hfirst, begin_of_first? hfirst]
  simp [Reader.run, hstep, run_after? hrest]

/-! ### The grammar -/

def AllDigits (s : Bytes) : Prop := ∀ b ∈ s, Bytes.isDigit b = true

def Digits (s : Bytes) : Prop := s ≠ [] ∧ AllDigits s

/-- A zero, or digits of which the first is not zero. -/
def Whole (s : Bytes) : Prop :=
  s = [0x30] ∨ ∃ b rest, Bytes.isDigit b = true ∧ b ≠ 0x30 ∧ AllDigits rest ∧ s = b :: rest

/-- A point and digits, or nothing. -/
def Fraction (s : Bytes) : Prop := s = [] ∨ ∃ digits, Digits digits ∧ s = 0x2E :: digits

/-- A mark, an optional sign and digits, or nothing. -/
def Exponent (s : Bytes) : Prop :=
  s = [] ∨ ∃ mark sign digits, (mark = 0x65 ∨ mark = 0x45) ∧
    (sign = [] ∨ sign = [0x2B] ∨ sign = [0x2D]) ∧ Digits digits ∧ s = mark :: (sign ++ digits)

/-- **The literals of the grammar.** -/
def Literal (s : Bytes) : Prop :=
  ∃ sign whole fraction exponent, (sign = [] ∨ sign = [0x2D]) ∧ Whole whole ∧ Fraction fraction ∧
    Exponent exponent ∧ s = sign ++ (whole ++ (fraction ++ exponent))

theorem allDigits_cons :
    AllDigits (b :: s) ↔ Bytes.isDigit b = true ∧ AllDigits s := List.forall_mem_cons

theorem digits_cons : Digits (b :: s) ↔ Bytes.isDigit b = true ∧ AllDigits s := by
  simp [Digits, allDigits_cons]

/-- The digits at the front of a text end somewhere. -/
theorem exists_digits (s : Bytes) : ∃ digits t, AllDigits digits ∧ s = digits ++ t ∧
    ∀ b ∈ t.head?, Bytes.isDigit b = false := by
  refine ⟨s.takeWhile Bytes.isDigit, s.dropWhile Bytes.isDigit, ?_,
    List.takeWhile_append_dropWhile.symm, ?_⟩
  · intro b hb
    exact List.mem_takeWhile_imp hb
  · intro b hb
    have h := List.head?_dropWhile_not Bytes.isDigit s
    rw [Option.mem_def.1 hb] at h
    simpa using h

namespace NumberPart

/-- The text leads from the part to the end of a number. -/
def Ends (part : NumberPart) (s : Bytes) : Prop :=
  ∃ last, part.after? s = some last ∧ last.isEnd = true

theorem ends_nil : part.Ends [] ↔ part.isEnd = true := by
  simp [Ends, after?]

theorem ends_cons : part.Ends (b :: s) ↔ ∃ next, part.next? b = some next ∧ next.Ends s := by
  constructor
  · rintro ⟨last, hafter, hend⟩
    obtain ⟨next, hnext, hrest⟩ := Option.bind_eq_some_iff.1 hafter
    exact ⟨next, hnext, last, hrest, hend⟩
  · rintro ⟨next, hnext, last, hrest, hend⟩
    exact ⟨last, Option.bind_eq_some_iff.2 ⟨next, hnext, hrest⟩, hend⟩

/-- A part that digits go on with goes on with all of them. -/
theorem ends_digits_append (hloop : ∀ b, Bytes.isDigit b = true → part.next? b = some part)
    {digits : Bytes} (h : AllDigits digits) (s : Bytes) :
    part.Ends (digits ++ s) ↔ part.Ends s := by
  induction digits with
  | nil => exact Iff.rfl
  | cons b digits ih =>
      obtain ⟨hb, hdigits⟩ := allDigits_cons.1 h
      rw [List.cons_append, ends_cons, hloop b hb]
      simp [ih hdigits]

theorem loop_exponent (b : UInt8) (h : Bytes.isDigit b = true) :
    NumberPart.exponent.next? b = some .exponent := by
  simp [next?, h]

theorem loop_fraction (b : UInt8) (h : Bytes.isDigit b = true) :
    NumberPart.fraction.next? b = some .fraction := by
  simp [next?, h]

theorem loop_whole (b : UInt8) (h : Bytes.isDigit b = true) :
    NumberPart.whole.next? b = some .whole := by
  simp [next?, h]

theorem ends_exponent : NumberPart.exponent.Ends s ↔ AllDigits s := by
  constructor
  · intro h
    obtain ⟨digits, t, hdigits, rfl, hhead⟩ := exists_digits s
    rw [ends_digits_append loop_exponent hdigits] at h
    cases t with
    | nil => rwa [List.append_nil]
    | cons b t =>
        obtain ⟨next, hnext, -⟩ := ends_cons.1 h
        simp [next?, hhead b rfl] at hnext
  · intro h
    rw [← List.append_nil s, ends_digits_append loop_exponent h]
    exact ends_nil.2 rfl

theorem ends_exponentSign : NumberPart.exponentSign.Ends s ↔ Digits s := by
  cases s with
  | nil => simp [ends_nil, isEnd, Digits]
  | cons b s =>
      rw [ends_cons, digits_cons]
      cases hb : Bytes.isDigit b <;> simp [next?, hb, ends_exponent]

theorem ends_mark : NumberPart.mark.Ends s ↔
    ∃ sign digits, (sign = [] ∨ sign = [0x2B] ∨ sign = [0x2D]) ∧ Digits digits ∧
      s = sign ++ digits := by
  constructor
  · intro h
    cases s with
    | nil => cases ends_nil.1 h
    | cons b s =>
        obtain ⟨next, hnext, hrest⟩ := ends_cons.1 h
        simp only [next?] at hnext
        split at hnext
        · rename_i hsign
          cases hnext
          refine ⟨[b], s, .inr ?_, ends_exponentSign.1 hrest, rfl⟩
          simpa using hsign
        split at hnext
        · rename_i hdigit
          cases hnext
          exact ⟨[], b :: s, .inl rfl, digits_cons.2 ⟨hdigit, ends_exponent.1 hrest⟩, rfl⟩
        · cases hnext
  · rintro ⟨sign, digits, hsign, hdigits, rfl⟩
    rcases hsign with rfl | rfl | rfl
    · -- Without a sign the first digit must not be taken for one.
      cases digits with
      | nil => exact absurd rfl hdigits.1
      | cons b digits =>
          obtain ⟨hb, hdigits⟩ := digits_cons.1 hdigits
          have hnot : (b == 0x2B || b == 0x2D) = false := by
            cases hsign : (b == 0x2B || b == 0x2D) with
            | false => rfl
            | true =>
                simp only [Bool.or_eq_true, beq_iff_eq] at hsign
                rcases hsign with rfl | rfl <;> cases hb
          exact ends_cons.2 ⟨.exponent, by simp [next?, hnot, hb], ends_exponent.2 hdigits⟩
    · exact ends_cons.2 ⟨.exponentSign, rfl, ends_exponentSign.2 hdigits⟩
    · exact ends_cons.2 ⟨.exponentSign, rfl, ends_exponentSign.2 hdigits⟩

/-- Behind a fraction that has ended, an exponent may stand. -/
theorem ends_fraction_of_head {t : Bytes} (hhead : ∀ b ∈ t.head?, Bytes.isDigit b = false) :
    NumberPart.fraction.Ends t ↔ Exponent t := by
  cases t with
  | nil => simp [ends_nil, isEnd, Exponent]
  | cons b t =>
      have hb := hhead b rfl
      rw [ends_cons]
      constructor
      · rintro ⟨next, hnext, hrest⟩
        simp only [next?, hb, Bool.false_eq_true, if_false] at hnext
        split at hnext
        · rename_i hmark
          cases hnext
          obtain ⟨sign, digits, hsign, hdigits, rfl⟩ := ends_mark.1 hrest
          exact .inr ⟨b, sign, digits, by simpa using hmark, hsign, hdigits, rfl⟩
        · cases hnext
      · rintro (h | ⟨mark, sign, digits, hmark, hsign, hdigits, heq⟩)
        · cases h
        · obtain ⟨rfl, rfl⟩ := List.cons.inj heq
          refine ⟨.mark, ?_, ends_mark.2 ⟨sign, digits, hsign, hdigits, rfl⟩⟩
          rcases hmark with rfl | rfl <;> rfl

theorem exponent_head (h : Exponent s) : ∀ b ∈ s.head?, Bytes.isDigit b = false := by
  rcases h with rfl | ⟨mark, sign, digits, hmark, -, -, rfl⟩
  · nofun
  · intro b hb
    cases hb
    rcases hmark with rfl | rfl <;> rfl

theorem ends_fraction : NumberPart.fraction.Ends s ↔
    ∃ digits exponent, AllDigits digits ∧ Exponent exponent ∧ s = digits ++ exponent := by
  constructor
  · intro h
    obtain ⟨digits, t, hdigits, rfl, hhead⟩ := exists_digits s
    rw [ends_digits_append loop_fraction hdigits, ends_fraction_of_head hhead] at h
    exact ⟨digits, t, hdigits, h, rfl⟩
  · rintro ⟨digits, exponent, hdigits, hexponent, rfl⟩
    rw [ends_digits_append loop_fraction hdigits, ends_fraction_of_head (exponent_head hexponent)]
    exact hexponent

theorem ends_point : NumberPart.point.Ends s ↔
    ∃ digits exponent, Digits digits ∧ Exponent exponent ∧ s = digits ++ exponent := by
  constructor
  · intro h
    cases s with
    | nil => cases ends_nil.1 h
    | cons b s =>
        obtain ⟨next, hnext, hrest⟩ := ends_cons.1 h
        simp only [next?] at hnext
        split at hnext
        · rename_i hb
          cases hnext
          obtain ⟨digits, exponent, hdigits, hexponent, rfl⟩ := ends_fraction.1 hrest
          exact ⟨b :: digits, exponent, digits_cons.2 ⟨hb, hdigits⟩, hexponent, rfl⟩
        · cases hnext
  · rintro ⟨digits, exponent, hdigits, hexponent, rfl⟩
    cases digits with
    | nil => exact absurd rfl hdigits.1
    | cons b digits =>
        obtain ⟨hb, hdigits⟩ := digits_cons.1 hdigits
        refine ends_cons.2 ⟨.fraction, by simp [next?, hb], ?_⟩
        exact ends_fraction.2 ⟨digits, exponent, hdigits, hexponent, rfl⟩

/-- Behind a zero stands no digit, but a fraction or an exponent may. -/
theorem ends_zero : NumberPart.zero.Ends s ↔
    ∃ fraction exponent, Fraction fraction ∧ Exponent exponent ∧ s = fraction ++ exponent := by
  constructor
  · intro h
    cases s with
    | nil => exact ⟨[], [], .inl rfl, .inl rfl, rfl⟩
    | cons b s =>
        obtain ⟨next, hnext, hrest⟩ := ends_cons.1 h
        simp only [next?] at hnext
        split at hnext
        · rename_i hb
          cases hnext
          obtain rfl := beq_iff_eq.1 hb
          obtain ⟨digits, exponent, hdigits, hexponent, rfl⟩ := ends_point.1 hrest
          exact ⟨0x2E :: digits, exponent, .inr ⟨digits, hdigits, rfl⟩, hexponent, rfl⟩
        split at hnext
        · rename_i hmark
          cases hnext
          obtain ⟨sign, digits, hsign, hdigits, rfl⟩ := ends_mark.1 hrest
          refine ⟨[], _, .inl rfl, .inr ⟨b, sign, digits, ?_, hsign, hdigits, rfl⟩, rfl⟩
          simpa using hmark
        · cases hnext
  · rintro ⟨fraction, exponent, hfraction, hexponent, rfl⟩
    rcases hfraction with rfl | ⟨digits, hdigits, rfl⟩
    · rcases hexponent with rfl | ⟨mark, sign, digits, hmark, hsign, hdigits, rfl⟩
      · exact ends_nil.2 rfl
      · refine ends_cons.2 ⟨.mark, ?_, ends_mark.2 ⟨sign, digits, hsign, hdigits, rfl⟩⟩
        rcases hmark with rfl | rfl <;> rfl
    · exact ends_cons.2 ⟨.point, rfl, ends_point.2 ⟨digits, exponent, hdigits, hexponent, rfl⟩⟩

/-- Where no digit follows, other digits go on as a zero does. -/
theorem ends_whole_of_head {t : Bytes} (hhead : ∀ b ∈ t.head?, Bytes.isDigit b = false) :
    NumberPart.whole.Ends t ↔ NumberPart.zero.Ends t := by
  cases t with
  | nil => simp [ends_nil, isEnd]
  | cons b t =>
      have hsame : NumberPart.whole.next? b = NumberPart.zero.next? b := by
        simp [next?, hhead b rfl]
      rw [ends_cons, ends_cons, hsame]

theorem fraction_exponent_head {s t : Bytes} (hs : Fraction s) (ht : Exponent t) :
    ∀ b ∈ (s ++ t).head?, Bytes.isDigit b = false := by
  rcases hs with rfl | ⟨digits, -, rfl⟩
  · exact exponent_head ht
  · intro b hb
    cases hb
    rfl

theorem ends_whole : NumberPart.whole.Ends s ↔
    ∃ digits fraction exponent, AllDigits digits ∧ Fraction fraction ∧ Exponent exponent ∧
      s = digits ++ (fraction ++ exponent) := by
  constructor
  · intro h
    obtain ⟨digits, t, hdigits, rfl, hhead⟩ := exists_digits s
    rw [ends_digits_append loop_whole hdigits, ends_whole_of_head hhead, ends_zero] at h
    obtain ⟨fraction, exponent, hfraction, hexponent, rfl⟩ := h
    exact ⟨digits, fraction, exponent, hdigits, hfraction, hexponent, rfl⟩
  · rintro ⟨digits, fraction, exponent, hdigits, hfraction, hexponent, rfl⟩
    rw [ends_digits_append loop_whole hdigits,
      ends_whole_of_head (fraction_exponent_head hfraction hexponent)]
    exact ends_zero.2 ⟨fraction, exponent, hfraction, hexponent, rfl⟩

end NumberPart

theorem unsigned_iff : (∃ b rest part, NumberPart.first? b = some part ∧
      part ≠ .minus ∧ part.Ends rest ∧ s = b :: rest) ↔
    ∃ whole fraction exponent, Whole whole ∧ Fraction fraction ∧ Exponent exponent ∧
      s = whole ++ (fraction ++ exponent) := by
  constructor
  · rintro ⟨b, rest, part, hfirst, hpart, hends, rfl⟩
    unfold NumberPart.first? at hfirst
    split at hfirst
    · cases hfirst
      exact absurd rfl hpart
    split at hfirst
    · rename_i hzero
      cases hfirst
      obtain rfl := beq_iff_eq.1 hzero
      obtain ⟨fraction, exponent, hfraction, hexponent, rfl⟩ := NumberPart.ends_zero.1 hends
      exact ⟨[0x30], fraction, exponent, .inl rfl, hfraction, hexponent, rfl⟩
    split at hfirst
    · rename_i hzero hdigit
      cases hfirst
      obtain ⟨digits, fraction, exponent, hdigits, hfraction, hexponent, rfl⟩ :=
        NumberPart.ends_whole.1 hends
      refine ⟨b :: digits, fraction, exponent, .inr ⟨b, digits, hdigit, ?_, hdigits, rfl⟩,
        hfraction, hexponent, rfl⟩
      simpa using hzero
    · cases hfirst
  · rintro ⟨whole, fraction, exponent, hwhole, hfraction, hexponent, rfl⟩
    rcases hwhole with rfl | ⟨b, digits, hb, hzero, hdigits, rfl⟩
    · refine ⟨0x30, _, .zero, rfl, nofun, ?_, rfl⟩
      exact NumberPart.ends_zero.2 ⟨fraction, exponent, hfraction, hexponent, rfl⟩
    · have hminus : b ≠ 0x2D := by
        rintro rfl
        cases hb
      refine ⟨b, _, .whole, by simp [NumberPart.first?, hminus, hzero, hb], nofun, ?_, rfl⟩
      exact NumberPart.ends_whole.2
        ⟨digits, fraction, exponent, hdigits, hfraction, hexponent, rfl⟩

/-- Behind the sign stands what may begin a number, but no second sign. -/
theorem minus_next? (b : UInt8) :
    NumberPart.minus.next? b = (NumberPart.first? b).filter (· ≠ .minus) := by
  by_cases hminus : b = 0x2D
  · subst hminus
    rfl
  by_cases hzero : b = 0x30
  · subst hzero
    rfl
  · cases hdigit : Bytes.isDigit b <;>
      simp [NumberPart.next?, NumberPart.first?, hminus, hzero, hdigit, Option.filter]

theorem ends_minus : NumberPart.minus.Ends s ↔
    ∃ b rest part, NumberPart.first? b = some part ∧ part ≠ .minus ∧ part.Ends rest ∧
      s = b :: rest := by
  cases s with
  | nil => simp [NumberPart.ends_nil, NumberPart.isEnd]
  | cons b s =>
      rw [NumberPart.ends_cons, minus_next?]
      constructor
      · rintro ⟨next, hnext, hrest⟩
        obtain ⟨hfirst, hpart⟩ := Option.filter_eq_some_iff.1 hnext
        exact ⟨b, s, next, hfirst, by simpa using hpart, hrest, rfl⟩
      · rintro ⟨c, rest, part, hfirst, hpart, hrest, heq⟩
        obtain ⟨rfl, rfl⟩ := List.cons.inj heq
        exact ⟨part, Option.filter_eq_some_iff.2 ⟨hfirst, by simpa using hpart⟩, hrest⟩

/-- **The reader takes the literals of the grammar.** -/
theorem isNumber_iff : IsNumber s ↔ Literal s := by
  constructor
  · rintro @⟨b, rest, first, last, hfirst, hrest, hend⟩
    -- With a sign, the rest is a number without one.
    by_cases hminus : first = .minus
    · subst hminus
      have hb : b = 0x2D := by
        unfold NumberPart.first? at hfirst
        grind
      obtain ⟨whole, fraction, exponent, hwhole, hfraction, hexponent, rfl⟩ :=
        unsigned_iff.1 (ends_minus.1 ⟨last, hrest, hend⟩)
      exact ⟨[0x2D], whole, fraction, exponent, .inr rfl, hwhole, hfraction, hexponent, hb ▸ rfl⟩
    · obtain ⟨whole, fraction, exponent, hwhole, hfraction, hexponent, heq⟩ :=
        unsigned_iff.1 ⟨b, rest, first, hfirst, hminus, ⟨last, hrest, hend⟩, rfl⟩
      exact ⟨[], whole, fraction, exponent, .inl rfl, hwhole, hfraction, hexponent, heq⟩
  · rintro ⟨sign, whole, fraction, exponent, hsign, hwhole, hfraction, hexponent, rfl⟩
    have hunsigned := unsigned_iff.2 ⟨whole, fraction, exponent, hwhole, hfraction, hexponent, rfl⟩
    rcases hsign with rfl | rfl
    · obtain ⟨b, rest, part, hfirst, -, ⟨last, hrest, hend⟩, heq⟩ := hunsigned
      rw [List.nil_append, heq]
      exact .mk hfirst hrest hend
    · obtain ⟨last, hrest, hend⟩ := ends_minus.2 hunsigned
      have hfirst : NumberPart.first? 0x2D = some .minus := rfl
      exact .mk hfirst hrest hend

end ReplBridge.Json
