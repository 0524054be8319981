import ReplBridge.Json.Printer
import ReplBridge.Proofs.Text.Pieces

/-!
**What a text is spelled as, and what the spelling means.**

A text is spelled piece by piece: a character by itself, by a backslash and a letter, or by a
backslash and four hexadecimal digits.  Each spelling stands between quotes without ending the
string; it holds nothing that markup would read, so writing it out changes it no more; and it means
the character it was made for, whatever stands behind it.

Main definitions:

* `Json.Spelling` — the bytes that may stand between quotes;
* `Json.Spells` — the three ways in which a character is spelled.

Main results:

* `Json.run_spelling` — a string is read up to its end;
* `Json.spelling_rawOf`, `Json.guardMarkup_rawOf` — **what is spelled is a string, and is written as
  it is**;
* `Json.unescape_rawOf` — **what is spelled means the text**, up to stray bytes.
-/

set_option autoImplicit false

namespace ReplBridge

variable {s : Bytes} {c : Char} {b : UInt8}

theorem Bytes.hexValue?_hexDigit {n : Nat} (h : n < 16) :
    Bytes.hexValue? (Bytes.hexDigit n) = some n := by
  revert n
  decide

namespace Json

/-! ### Spellings -/

/-- **The bytes that may stand between quotes.** -/
inductive Spelling : Bytes → Prop where
  | nil : Spelling []
  | plain {b : UInt8} {rest : Bytes} (hcontrol : ¬ b < 0x20) (hquote : b ≠ 0x22)
      (hslash : b ≠ 0x5C) (hrest : Spelling rest) : Spelling (b :: rest)
  | short {e : UInt8} {rest : Bytes} (he : isShortEscape e = true) (hrest : Spelling rest) :
      Spelling (0x5C :: e :: rest)
  | unicode {a b c d : UInt8} {rest : Bytes}
      (hdigits : ∀ x ∈ [a, b, c, d], (Bytes.hexValue? x).isSome = true) (hrest : Spelling rest) :
      Spelling (0x5C :: 0x75 :: a :: b :: c :: d :: rest)

theorem Spelling.append {s t : Bytes} (hs : Spelling s) (ht : Spelling t) : Spelling (s ++ t) := by
  induction hs with
  | nil => exact ht
  | plain hcontrol hquote hslash _ ih => exact .plain hcontrol hquote hslash ih
  | short he _ ih => exact .short he ih
  | unicode hdigits _ ih => exact .unicode hdigits ih

theorem Spelling.flatMap {α : Type} {f : α → Bytes} {xs : List α} (h : ∀ x ∈ xs, Spelling (f x)) :
    Spelling (xs.flatMap f) := by
  induction xs with
  | nil => exact .nil
  | cons x xs ih =>
      rw [List.flatMap_cons]
      exact (h x (by simp)).append (ih fun y hy => h y (by simp [hy]))

/-- **A string is read up to its end.** -/
theorem run_spelling {raw : Bytes} (h : Spelling raw) (stack : List Container) (isKey : Bool)
    (acc rest : Bytes) :
    Reader.run ⟨stack, .string isKey acc .outside⟩ (raw ++ rest) =
      Reader.run ⟨stack, .string isKey (raw.reverse ++ acc) .outside⟩ rest := by
  induction h generalizing acc with
  | nil => rfl
  | @plain b raw hcontrol hquote hslash _ ih =>
      simp [Reader.run, Reader.step, Reader.stepString, hcontrol, hquote, hslash, ih]
  | @short e raw he _ ih =>
      simp [Reader.run, Reader.step, Reader.stepString, he, ih]
  | @unicode a b c d raw hdigits _ ih =>
      have hu : isShortEscape 0x75 = false := rfl
      simp only [List.mem_cons, List.not_mem_nil, or_false, forall_eq_or_imp, forall_eq] at hdigits
      obtain ⟨ha, hb, hc, hd⟩ := hdigits
      simp [Reader.run, Reader.step, Reader.stepString, hu, ha, hb, hc, hd, ih]

/-! ### The spelling of a character -/

/-- **The three ways in which a character is spelled**: by a backslash and a letter, by a backslash
and four hexadecimal digits, or by itself. -/
inductive Spells (c : Char) : Bytes → Prop where
  | short {e : UInt8} (he : isShortEscape e = true)
      (hmeans : ∀ rest, escapeAt (e :: rest) = (Utf8.encode c, 1)) : Spells c [0x5C, e]
  | unicode (hsmall : c.toNat < 0x10000) : Spells c (unicodeEscapeOf c.toNat)
  | plain (hcontrol : 0x20 ≤ c.toNat) (hquote : c ≠ '"') (hslash : c ≠ '\\')
      (hmarkup : isMarkup c = false) (hseparator : isSeparator c = false) :
      Spells c (Utf8.encode c)

theorem spells_spell (p : Utf8.Piece) : Spells p.char (spell true p) := by
  cases p with
  | stray b => exact .unicode (c := Utf8.replacement) (by decide)
  | scalar c =>
      simp only [spell, Utf8.Piece.char, beq_iff_eq, Bool.true_and]
      -- The seven characters that have a letter of their own.
      iterate 7
        split
        · rename_i h
          exact h ▸ .short rfl fun _ => rfl
      split
      · exact .unicode (by omega)
      split
      · rename_i h
        simp only [isMarkup, isSeparator, Bool.or_eq_true, beq_iff_eq] at h
        rcases h with ((rfl | rfl) | rfl) | rfl | rfl <;> exact .unicode (by decide)
      · rename_i hquote hslash _ _ _ _ _ hcontrol h
        simp only [Bool.or_eq_true, not_or, Bool.not_eq_true] at h
        exact .plain (Nat.not_lt.1 hcontrol) hquote hslash h.1 h.2

theorem unicodeEscapeOf_digits (n : Nat) : ∃ a b c d, unicodeEscapeOf n = [0x5C, 0x75, a, b, c, d] ∧
    (∀ x ∈ [a, b, c, d], (Bytes.hexValue? x).isSome = true) ∧
    ∀ rest, n < 0x10000 → hex4? (a :: b :: c :: d :: rest) = some n := by
  have hdigit (k : Nat) : Bytes.hexValue? (Bytes.hexDigit (k % 16)) = some (k % 16) :=
    Bytes.hexValue?_hexDigit (by omega)
  refine ⟨_, _, _, _, rfl, ?_, ?_⟩
  · simp [hdigit]
  · intro rest hsmall
    simp only [hex4?, hdigit, Option.bind_eq_bind, Option.bind_some, Option.pure_def,
      Option.some.injEq]
    omega

/-- A byte of a character that stands for itself. -/
theorem not_of_mem_encode {c d : Char} (hb : b ∈ Utf8.encode c) (hd : d.toNat < 0x80) (hne : c ≠ d)
    : b.toNat ≠ d.toNat := by
  intro heq
  have hc := Utf8.eq_of_mem_encode hb (by omega)
  exact hne (Char.toNat_inj.1 (hc.trans heq))

theorem Spells.spelling (h : Spells c s) : Spelling s := by
  cases h with
  | short he => exact .short he .nil
  | unicode =>
      obtain ⟨a, b, c, d, hbytes, hdigits, -⟩ := unicodeEscapeOf_digits c.toNat
      rw [hbytes]
      exact .unicode hdigits .nil
  | plain hcontrol hquote hslash =>
      have hbytes : ∀ b ∈ Utf8.encode c, ¬ b < 0x20 ∧ b ≠ 0x22 ∧ b ≠ 0x5C := by
        intro b hb
        refine ⟨?_, ?_, ?_⟩
        · intro hlow
          have hlow : b.toNat < 32 := UInt8.lt_iff_toNat_lt.1 hlow
          have hc := Utf8.eq_of_mem_encode hb (by omega)
          omega
        · intro heq
          exact not_of_mem_encode hb (d := '"') (by decide) hquote (heq ▸ rfl)
        · intro heq
          exact not_of_mem_encode hb (d := '\\') (by decide) hslash (heq ▸ rfl)
      generalize Utf8.encode c = bytes at hbytes
      induction bytes with
      | nil => exact .nil
      | cons b bytes ih =>
          obtain ⟨hb₁, hb₂, hb₃⟩ := hbytes b (by simp)
          exact .plain hb₁ hb₂ hb₃ (ih fun d hd => hbytes d (by simp [hd]))

/-- **What is spelled is a string.** -/
theorem spelling_rawOf (s : Bytes) : Spelling (rawOf s) :=
  Spelling.flatMap fun p _ => (spells_spell p).spelling

/-! ### Markup -/

/-- Bytes at which markup may begin. -/
def isGuarded (b : UInt8) : Bool := b == 0x3C || b == 0x3E || b == 0x26 || b == 0xE2

theorem guardMarkup_go_plain (h : ∀ b ∈ s, isGuarded b = false) (acc rest : Bytes) :
    guardMarkup.go acc 0 (s ++ rest) = guardMarkup.go (s.reverse ++ acc) 0 rest := by
  induction s generalizing acc with
  | nil => rfl
  | cons b s ih =>
      have hb := h b (by simp)
      simp only [isGuarded, Bool.or_eq_false_iff] at hb
      obtain ⟨⟨⟨h₁, h₂⟩, h₃⟩, h₄⟩ := hb
      simp only [List.cons_append, guardMarkup.go, h₁, h₂, h₃, h₄, Bool.or_self, Bool.false_eq_true,
        if_false]
      rw [ih fun d hd => h d (by simp [hd])]
      simp

/-- A line separator is not written as it is. -/
theorem guardMarkup_go_three {t u : UInt8} (h₁ : isGuarded t = false) (h₂ : isGuarded u = false)
    (hseparator : ¬ (t = 0x80 ∧ (u = 0xA8 ∨ u = 0xA9))) (acc rest : Bytes) :
    guardMarkup.go acc 0 (0xE2 :: t :: u :: rest) =
      guardMarkup.go ([u, t, 0xE2] ++ acc) 0 rest := by
  have hstep : guardMarkup.go acc 0 (0xE2 :: t :: u :: rest) =
      guardMarkup.go (0xE2 :: acc) 0 (t :: u :: rest) := by
    rw [guardMarkup.go, if_neg (by decide), if_pos (by decide)]
    · intro later heq
      obtain ⟨ht, heq⟩ := List.cons.inj heq
      exact hseparator ⟨ht, .inl (List.cons.inj heq).1⟩
    · intro later heq
      obtain ⟨ht, heq⟩ := List.cons.inj heq
      exact hseparator ⟨ht, .inr (List.cons.inj heq).1⟩
  rw [hstep]
  exact guardMarkup_go_plain (s := [t, u]) (by simp [h₁, h₂]) _ rest

theorem not_isGuarded (h₁ : b.toNat ≠ 0x3C) (h₂ : b.toNat ≠ 0x3E) (h₃ : b.toNat ≠ 0x26)
    (h₄ : b.toNat ≠ 0xE2) : isGuarded b = false := by
  simp only [isGuarded, Bool.or_eq_false_iff, beq_eq_false_iff_ne, ne_eq, ← UInt8.toNat_inj]
  exact ⟨⟨⟨h₁, h₂⟩, h₃⟩, h₄⟩

theorem not_isGuarded_of_high (h : 0x80 ≤ b.toNat) (hne : b.toNat ≠ 0xE2) : isGuarded b = false :=
  not_isGuarded (by omega) (by omega) (by omega) hne

theorem not_isGuarded_of_isTail (h : Utf8.isTail b = true) : isGuarded b = false := by
  rw [Utf8.isTail_iff] at h
  exact not_isGuarded_of_high h.1 (by omega)

/-- A character that is spelled as itself is written as it is. -/
theorem guardMarkup_go_encode (hmarkup : isMarkup c = false) (hseparator : isSeparator c = false)
    (acc rest : Bytes) :
    guardMarkup.go acc 0 (Utf8.encode c ++ rest) =
      guardMarkup.go ((Utf8.encode c).reverse ++ acc) 0 rest := by
  have hencoding := Utf8.encoding_encode c
  generalize hbytes : Utf8.encode c = s at hencoding
  cases hencoding with
  | @one b hb =>
      have hmem : b ∈ Utf8.encode c := by simp [hbytes]
      simp only [isMarkup, Bool.or_eq_false_iff, beq_eq_false_iff_ne] at hmarkup
      obtain ⟨⟨h₁, h₂⟩, h₃⟩ := hmarkup
      refine guardMarkup_go_plain ?_ _ _
      simpa using not_isGuarded (not_of_mem_encode hmem (by decide) h₁)
        (not_of_mem_encode hmem (by decide) h₂) (not_of_mem_encode hmem (by decide) h₃) (by omega)
  | two hlead hmore ht =>
      obtain ⟨hge, -, -, hkind⟩ := Utf8.lead?_spec hlead
      refine guardMarkup_go_plain ?_ _ _
      simpa using ⟨not_isGuarded_of_high (by omega) (by omega),
        not_isGuarded_of_isTail (Utf8.isTail_of_second hlead ht)⟩
  | @three b t u l hlead hmore ht hu =>
      obtain ⟨hge, -, -, hkind⟩ := Utf8.lead?_spec hlead
      have ht := not_isGuarded_of_isTail (Utf8.isTail_of_second hlead ht)
      have hu := not_isGuarded_of_isTail hu
      by_cases hb : b = 0xE2
      · subst hb
        refine guardMarkup_go_three ht hu ?_ acc rest
        -- These bytes would be a line separator.
        rintro ⟨rfl, rfl | rfl⟩
        · have hc : c = '\u2028' := Utf8.encode_injective hbytes
          simp [hc, isSeparator] at hseparator
        · have hc : c = '\u2029' := Utf8.encode_injective hbytes
          simp [hc, isSeparator] at hseparator
      · have hne : b.toNat ≠ 0xE2 := fun h => hb (UInt8.toNat_inj.1 h)
        refine guardMarkup_go_plain ?_ _ _
        simpa using ⟨not_isGuarded_of_high (by omega) hne, ht, hu⟩
  | four hlead hmore ht hu hv =>
      obtain ⟨hge, -, -, hkind⟩ := Utf8.lead?_spec hlead
      refine guardMarkup_go_plain ?_ _ _
      simpa using ⟨not_isGuarded_of_high (by omega) (by omega),
        not_isGuarded_of_isTail (Utf8.isTail_of_second hlead ht), not_isGuarded_of_isTail hu,
        not_isGuarded_of_isTail hv⟩

theorem not_isGuarded_of_hex (h : (Bytes.hexValue? b).isSome = true) : isGuarded b = false := by
  refine not_isGuarded ?_ ?_ ?_ ?_ <;>
  · intro hb
    rw [← Utf8.eq_ofNat hb] at h
    cases h

theorem not_isGuarded_of_short (h : isShortEscape b = true) : isGuarded b = false := by
  refine not_isGuarded ?_ ?_ ?_ ?_ <;>
  · intro hb
    rw [← Utf8.eq_ofNat hb] at h
    cases h

/-- An escape of four digits is written as it is. -/
theorem not_isGuarded_unicode {a b c d : UInt8}
    (h : ∀ x ∈ [a, b, c, d], (Bytes.hexValue? x).isSome = true) :
    ∀ x ∈ [0x5C, 0x75, a, b, c, d], isGuarded x = false := by
  intro x hx
  rcases List.mem_cons.1 hx with rfl | hx
  · rfl
  rcases List.mem_cons.1 hx with rfl | hx
  · rfl
  · exact not_isGuarded_of_hex (h x hx)

theorem Spells.guarded (h : Spells c s) (acc rest : Bytes) :
    guardMarkup.go acc 0 (s ++ rest) = guardMarkup.go (s.reverse ++ acc) 0 rest := by
  cases h with
  | short he =>
      have hslash : isGuarded 0x5C = false := rfl
      exact guardMarkup_go_plain (by simp [hslash, not_isGuarded_of_short he]) acc rest
  | unicode =>
      obtain ⟨a, b, c, d, hbytes, hdigits, -⟩ := unicodeEscapeOf_digits c.toNat
      rw [hbytes]
      exact guardMarkup_go_plain (not_isGuarded_unicode hdigits) acc rest
  | plain _ _ _ hmarkup hseparator => exact guardMarkup_go_encode hmarkup hseparator acc rest

/-- **What is spelled is written as it is.** -/
theorem guardMarkup_rawOf (s : Bytes) : guardMarkup (rawOf s) = rawOf s := by
  have hgo (ps : List Utf8.Piece) (acc : Bytes) :
      guardMarkup.go acc 0 (ps.flatMap (spell true)) = acc.reverse ++ ps.flatMap (spell true) := by
    induction ps generalizing acc with
    | nil => simp [guardMarkup.go]
    | cons p ps ih =>
        rw [List.flatMap_cons, (spells_spell p).guarded, ih]
        simp
  exact hgo _ []

/-! ### Meaning -/

theorem unescape_go_drop (acc : Bytes) (skip : Nat) (s : Bytes) :
    unescape.go acc skip s = unescape.go acc 0 (s.drop skip) := by
  induction s generalizing skip with
  | nil => cases skip <;> rfl
  | cons b rest ih =>
      cases skip with
      | zero => rfl
      | succ skip => exact ih skip

/-- A character of two bytes in UTF-16 or less reads back from its escape. -/
theorem unicodeEscape_digits {a b d e : UInt8} {rest : Bytes}
    (h : hex4? (a :: b :: d :: e :: rest) = some c.toNat) :
    unicodeEscape (a :: b :: d :: e :: rest) = (c, 4) := by
  have hvalid : c.toNat < 0xD800 ∨ 0xDFFF < c.toNat ∧ c.toNat < 0x110000 := c.valid
  have hhigh : isHighSurrogate c.toNat = false := by
    simp [isHighSurrogate]
    omega
  have hlow : isLowSurrogate c.toNat = false := by
    simp [isLowSurrogate]
    omega
  simp only [unicodeEscape, h, hhigh, hlow, Bool.false_eq_true, if_false, Char.ofNat_toNat]

/-- A character that stands for itself means itself. -/
theorem unescape_go_encode (hslash : c ≠ '\\') (acc rest : Bytes) :
    unescape.go acc 0 (Utf8.encode c ++ rest) =
      unescape.go ((Utf8.encode c).reverse ++ acc) 0 rest := by
  obtain ⟨b, more, hbytes, hpiece⟩ := Utf8.pieceAt_encode c
  have hb : b ≠ 0x5C := by
    intro heq
    have hmem : b ∈ Utf8.encode c := by simp [hbytes]
    exact not_of_mem_encode hmem (d := '\\') (by decide) hslash (heq ▸ rfl)
  have hstep : unescape.go acc 0 (b :: (more ++ rest)) =
      unescape.go ((Utf8.encode c).reverse ++ acc) more.length (more ++ rest) := by
    simp [unescape.go, hb, hpiece, Utf8.Piece.char]
  rw [hbytes, List.cons_append, hstep, unescape_go_drop, List.drop_left,
    hbytes]

/-- **A spelling means the character it was made for**, whatever stands behind it. -/
theorem Spells.means (h : Spells c s) (acc rest : Bytes) :
    unescape.go acc 0 (s ++ rest) = unescape.go ((Utf8.encode c).reverse ++ acc) 0 rest := by
  cases h with
  | @short e he hmeans =>
      simp [unescape.go, hmeans]
  | unicode hsmall =>
      obtain ⟨a, b, d, e, hbytes, -, hvalue⟩ := unicodeEscapeOf_digits c.toNat
      have hescape := unicodeEscape_digits (hvalue rest hsmall)
      simp [hbytes, unescape.go, escapeAt, hescape]
  | plain _ _ hslash => exact unescape_go_encode hslash acc rest

/-- **What is spelled means the text**, with U+FFFD for its stray bytes. -/
theorem unescape_rawOf (s : Bytes) : unescape (rawOf s) = Utf8.repair s := by
  have hgo (ps : List Utf8.Piece) (acc : Bytes) :
      unescape.go acc 0 (ps.flatMap (spell true)) =
        acc.reverse ++ ps.flatMap fun p => Utf8.encode p.char := by
    induction ps generalizing acc with
    | nil => simp [unescape.go]
    | cons p ps ih =>
        rw [List.flatMap_cons, (spells_spell p).means, ih]
        simp
  exact hgo _ []

theorem unescape_rawOf_of_valid (h : Utf8.valid s = true) : unescape (rawOf s) = s := by
  obtain ⟨cs, hpieces, hs⟩ := Utf8.chars_of_valid h
  rw [unescape_rawOf, Utf8.repair, hpieces, List.flatMap_map]
  exact hs.symm

end Json

end ReplBridge
