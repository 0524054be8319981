import Mathlib.Data.List.Infix
import ReplBridge.Proofs.Json.RoundTrip
import ReplBridge.Proofs.Text.Join

/-!
**Strings that markup does not read.**

Before a string is written, the characters that a page of markup would read are spelled as escapes.
At each place either such a character begins, and its escape is written for it, or the byte is
written as it is.  None of these characters begins with a continuation byte, and neither does an
escape; so what a longer encoding is made of does not change, and the whole means what it meant.

Main definitions:

* `Json.marks`, `Json.MarkupFree` — the characters, and texts without them.

Main results:

* `Json.guardMarkup_cons` — **what is written at one place**;
* `Json.Spelling.guardMarkup`, `Json.markupFree_guardMarkup`, `Json.unescape_guardMarkup` — **what is
  written is a string, holds none of the characters and means the same**.
-/

set_option autoImplicit false

namespace ReplBridge.Json

/-! ### One place -/

/-- **The characters that markup would read.** -/
def marks : List Char := ['<', '>', '&', '\u2028', '\u2029']

/-- **A text without them.** -/
def MarkupFree (s : Bytes) : Prop := ∀ c ∈ marks, ¬ Utf8.encode c <:+: s

theorem forall_marks {p : Bytes → Prop} : (∀ c ∈ marks, p (Utf8.encode c)) ↔
    p [0x3C] ∧ p [0x3E] ∧ p [0x26] ∧ p [0xE2, 0x80, 0xA8] ∧ p [0xE2, 0x80, 0xA9] := by
  have hbytes : marks.map Utf8.encode =
      [[0x3C], [0x3E], [0x26], [0xE2, 0x80, 0xA8], [0xE2, 0x80, 0xA9]] := by decide +kernel
  rw [← List.forall_mem_map, hbytes]
  simp

theorem mark_toNat {c : Char} (hc : c ∈ marks) :
    c.toNat < 0x10000 ∧ isLowSurrogate c.toNat = false ∧ c ≠ '\\' := by
  simp only [marks, List.mem_cons, List.not_mem_nil, or_false] at hc
  rcases hc with rfl | rfl | rfl | rfl | rfl <;> decide

/-- The first byte of such a character. -/
theorem exists_mark_head {c : Char} (hc : c ∈ marks) :
    ∃ b more, Utf8.encode c = b :: more ∧ isGuarded b = true ∧ ∀ t ∈ more, Utf8.isTail t = true := by
  have hall := (forall_marks (p := fun s => ∃ b more, s = b :: more ∧ isGuarded b = true ∧
    ∀ t ∈ more, Utf8.isTail t = true)).2
    ⟨⟨_, _, rfl, rfl, nofun⟩, ⟨_, _, rfl, rfl, nofun⟩, ⟨_, _, rfl, rfl, nofun⟩,
      ⟨_, _, rfl, rfl, by decide +kernel⟩, ⟨_, _, rfl, rfl, by decide +kernel⟩⟩
  exact hall c hc

theorem guardMarkup_go_cons (b : UInt8) (rest : Bytes) :
    (∃ c ∈ marks, ∃ more raw, Utf8.encode c = b :: more ∧ rest = more ++ raw ∧ ∀ acc,
      guardMarkup.go acc 0 (b :: rest) =
        guardMarkup.go ((unicodeEscapeOf c.toNat).reverse ++ acc) more.length rest) ∨
    (∀ c ∈ marks, ¬ Utf8.encode c <+: b :: rest) ∧ ∀ acc,
      guardMarkup.go acc 0 (b :: rest) = guardMarkup.go (b :: acc) 0 rest := by
  by_cases h₁ : b = 0x3C
  · subst h₁
    exact .inl ⟨'<', by decide, [], rest, by decide +kernel, rfl, fun _ => rfl⟩
  by_cases h₂ : b = 0x3E
  · subst h₂
    exact .inl ⟨'>', by decide, [], rest, by decide +kernel, rfl, fun _ => rfl⟩
  by_cases h₃ : b = 0x26
  · subst h₃
    exact .inl ⟨'&', by decide, [], rest, by decide +kernel, rfl, fun _ => rfl⟩
  by_cases h₄ : ∃ raw, b :: rest = 0xE2 :: 0x80 :: 0xA8 :: raw
  · obtain ⟨raw, heq⟩ := h₄
    obtain ⟨rfl, rfl⟩ := List.cons.inj heq
    exact .inl ⟨'\u2028', by decide, [0x80, 0xA8], raw, by decide +kernel, rfl, fun _ => rfl⟩
  by_cases h₅ : ∃ raw, b :: rest = 0xE2 :: 0x80 :: 0xA9 :: raw
  · obtain ⟨raw, heq⟩ := h₅
    obtain ⟨rfl, rfl⟩ := List.cons.inj heq
    exact .inl ⟨'\u2029', by decide, [0x80, 0xA9], raw, by decide +kernel, rfl, fun _ => rfl⟩
  refine .inr ⟨?_, ?_⟩
  · have hfirst {x : UInt8} (hx : b ≠ x) : ¬ [x] <+: b :: rest := by
      rintro ⟨t, heq⟩
      exact hx (List.cons.inj heq).1.symm
    refine (forall_marks (p := fun s => ¬ s <+: b :: rest)).2
      ⟨hfirst h₁, hfirst h₂, hfirst h₃, ?_, ?_⟩
    · rintro ⟨t, heq⟩
      exact h₄ ⟨t, heq.symm⟩
    · rintro ⟨t, heq⟩
      exact h₅ ⟨t, heq.symm⟩
  · intro acc
    by_cases hb : b = 0xE2
    · subst hb
      rw [guardMarkup.go, if_neg (by decide), if_pos (by decide)]
      · rintro raw rfl
        exact h₄ ⟨raw, rfl⟩
      · rintro raw rfl
        exact h₅ ⟨raw, rfl⟩
    · exact guardMarkup_go_plain (s := [b]) (by simp [isGuarded, h₁, h₂, h₃, hb]) acc rest

theorem guardMarkup_go (acc : Bytes) (skip : Nat) (s : Bytes) :
    guardMarkup.go acc skip s = acc.reverse ++ guardMarkup (s.drop skip) := by
  -- What is written so far stays, and the bytes of a character are skipped one by one.
  induction s generalizing acc skip with
  | nil => cases skip <;> simp [guardMarkup, guardMarkup.go]
  | cons b rest ih =>
      cases skip with
      | succ skip => simpa [guardMarkup.go] using ih acc skip
      | zero =>
          rw [List.drop_zero, guardMarkup]
          rcases guardMarkup_go_cons b rest with ⟨c, -, more, raw, -, -, hstep⟩ | ⟨-, hstep⟩
          · rw [hstep, hstep, ih, ih]
            simp
          · rw [hstep, hstep, ih, ih]
            simp

/-- **What is written at one place**: the escape of a character that markup would read, or the byte
that stands there. -/
theorem guardMarkup_cons (b : UInt8) (rest : Bytes) :
    (∃ c ∈ marks, ∃ more raw, Utf8.encode c = b :: more ∧ rest = more ++ raw ∧
      guardMarkup (b :: rest) = unicodeEscapeOf c.toNat ++ guardMarkup raw) ∨
    (∀ c ∈ marks, ¬ Utf8.encode c <+: b :: rest) ∧
      guardMarkup (b :: rest) = b :: guardMarkup rest := by
  rcases guardMarkup_go_cons b rest with ⟨c, hc, more, raw, hbytes, rfl, hstep⟩ | ⟨hfree, hstep⟩
  · refine .inl ⟨c, hc, more, raw, hbytes, rfl, ?_⟩
    rw [guardMarkup, hstep, guardMarkup_go, List.drop_left]
    simp
  · refine .inr ⟨hfree, ?_⟩
    rw [guardMarkup, hstep, guardMarkup_go]
    simp

/-- Bytes at which no such character begins are written as they are. -/
theorem guardMarkup_append {s : Bytes} (h : ∀ b ∈ s, isGuarded b = false) (rest : Bytes) :
    guardMarkup (s ++ rest) = s ++ guardMarkup rest := by
  rw [guardMarkup, guardMarkup_go_plain h, guardMarkup_go]
  simp

theorem guardMarkup_short {e : UInt8} (he : isShortEscape e = true) (rest : Bytes) :
    guardMarkup (0x5C :: e :: rest) = 0x5C :: e :: guardMarkup rest := by
  have hslash : isGuarded 0x5C = false := rfl
  exact guardMarkup_append (s := [0x5C, e]) (by simp [hslash, not_isGuarded_of_short he]) rest

theorem guardMarkup_unicode {a b c d : UInt8}
    (h : ∀ x ∈ [a, b, c, d], (Bytes.hexValue? x).isSome = true) (rest : Bytes) :
    guardMarkup (0x5C :: 0x75 :: a :: b :: c :: d :: rest) =
      0x5C :: 0x75 :: a :: b :: c :: d :: guardMarkup rest :=
  guardMarkup_append (not_isGuarded_unicode h) rest

/-- The continuation bytes at the front stay. -/
theorem takeWhile_guardMarkup (raw : Bytes) :
    (guardMarkup raw).takeWhile Utf8.isTail = raw.takeWhile Utf8.isTail := by
  induction raw with
  | nil => rfl
  | cons b rest ih =>
      rcases guardMarkup_cons b rest with ⟨c, hc, more, raw, hbytes, rfl, heq⟩ | ⟨-, heq⟩
      · obtain ⟨b', more', hbytes', hguarded, -⟩ := exists_mark_head hc
        obtain ⟨rfl, rfl⟩ := List.cons.inj (hbytes'.symm.trans hbytes)
        have hnot : Utf8.isTail b' = false := by
          cases htail : Utf8.isTail b' with
          | false => rfl
          | true =>
              rw [not_isGuarded_of_isTail htail] at hguarded
              cases hguarded
        rw [heq, List.takeWhile_cons_of_neg (by simp [hnot])]
        rfl
      · rw [heq, List.takeWhile_cons, List.takeWhile_cons, ih]

/-- Continuation bytes stand at the front of what is written as they stood before. -/
theorem prefix_guardMarkup {tails : Bytes} (h : ∀ t ∈ tails, Utf8.isTail t = true) (raw : Bytes) :
    tails <+: guardMarkup raw ↔ tails <+: raw := by
  have hrun (s : Bytes) : tails <+: s ↔ tails <+: s.takeWhile Utf8.isTail := by
    constructor
    · rintro ⟨t, rfl⟩
      rw [List.takeWhile_append_of_pos h]
      exact List.prefix_append _ _
    · exact fun hp => hp.trans (List.takeWhile_prefix _)
  rw [hrun, takeWhile_guardMarkup, ← hrun]

/-! ### Whole strings -/

theorem Spelling.of_cons {b : UInt8} {s : Bytes} (h : Spelling (b :: s)) (hb : b ≠ 0x5C) :
    Spelling s := by
  cases h with
  | plain _ _ _ hrest => exact hrest
  | short => exact absurd rfl hb
  | unicode => exact absurd rfl hb

theorem Spelling.of_append {s t : Bytes} (h : Spelling (s ++ t)) (hs : ∀ b ∈ s, b ≠ 0x5C) :
    Spelling t := by
  induction s with
  | nil => exact h
  | cons b s ih =>
      obtain ⟨hb, hs⟩ := List.forall_mem_cons.1 hs
      exact ih (h.of_cons hb) hs

theorem ne_slash_of_isTail {b : UInt8} (h : Utf8.isTail b = true) : b ≠ 0x5C := by
  rintro rfl
  cases h

theorem spelling_unicodeEscapeOf (n : Nat) : Spelling (unicodeEscapeOf n) := by
  obtain ⟨a, b, c, d, hbytes, hdigits, -⟩ := unicodeEscapeOf_digits n
  rw [hbytes]
  exact .unicode hdigits .nil

/-- **What is written is a string.** -/
theorem Spelling.guardMarkup {raw : Bytes} (h : Spelling raw) : Spelling (guardMarkup raw) := by
  -- On the length of the string, since a character is several bytes long.
  induction hn : raw.length using Nat.strongRecOn generalizing raw with
  | ind n ih =>
      cases h with
      | nil => exact .nil
      | @plain b rest hcontrol hquote hslash hrest =>
          rw [List.length_cons] at hn
          rcases guardMarkup_cons b rest with ⟨c, hc, more, raw, hbytes, rfl, heq⟩ | ⟨-, heq⟩
          · obtain ⟨b', more', hbytes', -, htails⟩ := exists_mark_head hc
            obtain ⟨rfl, rfl⟩ := List.cons.inj (hbytes'.symm.trans hbytes)
            have hraw := hrest.of_append fun t ht => ne_slash_of_isTail (htails t ht)
            rw [List.length_append] at hn
            rw [heq]
            exact (spelling_unicodeEscapeOf _).append (ih raw.length (by omega) hraw rfl)
          · rw [heq]
            exact .plain hcontrol hquote hslash (ih rest.length (by omega) hrest rfl)
      | @short e rest he hrest =>
          simp only [List.length_cons] at hn
          rw [guardMarkup_short he]
          exact .short he (ih rest.length (by omega) hrest rfl)
      | @unicode a b c d rest hdigits hrest =>
          simp only [List.length_cons] at hn
          rw [guardMarkup_unicode hdigits]
          exact .unicode hdigits (ih rest.length (by omega) hrest rfl)

theorem markupFree_append {s : Bytes} (h : ∀ b ∈ s, isGuarded b = false) {t : Bytes}
    (ht : MarkupFree t) : MarkupFree (s ++ t) := by
  intro c hc
  obtain ⟨b, more, hbytes, hguarded, -⟩ := exists_mark_head hc
  have hfree := ht c hc
  have hb : b ∉ s := by
    intro hmem
    rw [h b hmem] at hguarded
    cases hguarded
  rw [hbytes] at hfree ⊢
  rwa [Bytes.infix_append_of_head hb]

/-- **None of the characters is written.** -/
theorem markupFree_guardMarkup (raw : Bytes) : MarkupFree (guardMarkup raw) := by
  induction hn : raw.length using Nat.strongRecOn generalizing raw with
  | ind n ih =>
      cases raw with
      | nil =>
          intro c hc hin
          obtain ⟨b, more, hbytes, -⟩ := exists_mark_head hc
          rw [hbytes] at hin
          cases List.infix_nil.1 hin
      | cons b rest =>
          rw [List.length_cons] at hn
          rcases guardMarkup_cons b rest with ⟨c, hc, more, raw, hbytes, rfl, heq⟩ | ⟨hnot, heq⟩
          · obtain ⟨x, y, z, w, hescape, hdigits, -⟩ := unicodeEscapeOf_digits c.toNat
            rw [List.length_append] at hn
            rw [heq, hescape]
            exact markupFree_append (not_isGuarded_unicode hdigits) (ih raw.length (by omega) raw rfl)
          · rw [heq]
            intro c hc hin
            rcases List.infix_cons_iff.1 hin with hprefix | hin
            · obtain ⟨b', more, hbytes, -, htails⟩ := exists_mark_head hc
              rw [hbytes] at hprefix
              obtain ⟨rfl, hmore⟩ := List.cons_prefix_cons.1 hprefix
              refine hnot c hc ?_
              rw [hbytes]
              exact List.cons_prefix_cons.2 ⟨rfl, (prefix_guardMarkup htails rest).1 hmore⟩
            · exact ih rest.length (by omega) rest rfl c hc hin

/-! ### What strings mean -/

theorem escapeAt_short {e : UInt8} (h : isShortEscape e = true) :
    ∃ out, ∀ rest, escapeAt (e :: rest) = (out, 1) := by
  simp only [isShortEscape, Bool.or_eq_true, beq_iff_eq] at h
  rcases h with ((((((rfl | rfl) | rfl) | rfl) | rfl) | rfl) | rfl) | rfl <;>
    exact ⟨_, fun _ => rfl⟩

theorem lowSurrogate?_of_ne {b : UInt8} (hb : b ≠ 0x5C) (rest : Bytes) :
    lowSurrogate? (b :: rest) = none := by
  unfold lowSurrogate?
  split
  · rename_i heq
    exact absurd (List.cons.inj heq).1 hb
  · rfl

theorem lowSurrogate?_short {e : UInt8} (he : isShortEscape e = true) (rest : Bytes) :
    lowSurrogate? (0x5C :: e :: rest) = none := by
  unfold lowSurrogate?
  split
  · rename_i heq
    obtain ⟨rfl, -⟩ := List.cons.inj (List.cons.inj heq).2
    cases he
  · rfl

/-- An escape that is written is not the second half of a pair. -/
theorem lowSurrogate?_mark {c : Char} (hc : c ∈ marks) (rest : Bytes) :
    lowSurrogate? (unicodeEscapeOf c.toNat ++ rest) = none := by
  obtain ⟨x, y, z, w, hbytes, -, hvalue⟩ := unicodeEscapeOf_digits c.toNat
  obtain ⟨hlt, hlow, -⟩ := mark_toNat hc
  rw [hbytes]
  show (hex4? (x :: y :: z :: w :: rest)).filter isLowSurrogate = none
  rw [hvalue rest hlt, Option.filter_some, hlow]
  rfl

theorem lowSurrogate?_guardMarkup {raw : Bytes} (h : Spelling raw) :
    lowSurrogate? (guardMarkup raw) = lowSurrogate? raw := by
  cases h with
  | nil => rfl
  | @plain b rest _ _ hslash _ =>
      rw [lowSurrogate?_of_ne hslash]
      rcases guardMarkup_cons b rest with ⟨c, hc, more, raw, -, -, heq⟩ | ⟨-, heq⟩
      · rw [heq, lowSurrogate?_mark hc]
      · rw [heq, lowSurrogate?_of_ne hslash]
  | short he => rw [guardMarkup_short he, lowSurrogate?_short he, lowSurrogate?_short he]
  | unicode hdigits =>
      rw [guardMarkup_unicode hdigits]
      rfl

theorem pieceAt_guardMarkup {b : UInt8} {rest : Bytes}
    (h : Utf8.pieceAt b rest = (.stray b, 0)) : Utf8.pieceAt b (guardMarkup rest) = (.stray b, 0) := by
  rcases Utf8.pieceAt_cases b (guardMarkup rest) with hstray | ⟨more, later, heq, hencoding⟩
  · exact hstray
  · have hmore : more <+: rest :=
      (prefix_guardMarkup hencoding.isTail_of_mem rest).1 (heq ▸ List.prefix_append more later)
    obtain ⟨later, rfl⟩ := hmore
    obtain ⟨c, hpiece, -⟩ := Utf8.pieceAt_encoding hencoding later
    rw [h] at hpiece
    cases hpiece

/-- What an escape of four digits means depends on what stands behind it only by the second half of a
pair. -/
theorem unicodeEscape_cases {a b c d : UInt8}
    (h : ∀ x ∈ [a, b, c, d], (Bytes.hexValue? x).isSome = true) {rest rest' : Bytes}
    (hlow : lowSurrogate? rest' = lowSurrogate? rest) :
    ∃ out skip, unicodeEscape (a :: b :: c :: d :: rest) = (out, skip) ∧
      unicodeEscape (a :: b :: c :: d :: rest') = (out, skip) ∧
      (skip = 4 ∨ skip = 10 ∧ (lowSurrogate? rest).isSome = true) := by
  have hhex (t : Bytes) : hex4? (a :: b :: c :: d :: t) = hex4? [a, b, c, d] := rfl
  have hsome : hex4? [a, b, c, d] ≠ none := by
    simp only [List.forall_mem_cons, Option.isSome_iff_exists] at h
    obtain ⟨⟨x, hx⟩, ⟨y, hy⟩, ⟨z, hz⟩, ⟨w, hw⟩, -⟩ := h
    simp [hex4?, hx, hy, hz, hw]
  have hdrop (t : Bytes) : (a :: b :: c :: d :: t).drop 4 = t := rfl
  unfold unicodeEscape
  rw [hhex rest, hhex rest', hdrop rest, hdrop rest', hlow]
  cases hvalue : hex4? [a, b, c, d] with
  | none => exact absurd hvalue hsome
  | some u =>
      dsimp only
      split
      · cases hpair : lowSurrogate? rest with
        | none => exact ⟨_, _, rfl, rfl, .inl rfl⟩
        | some v => exact ⟨_, _, rfl, rfl, .inr ⟨rfl, rfl⟩⟩
      split
      · exact ⟨_, _, rfl, rfl, .inl rfl⟩
      · exact ⟨_, _, rfl, rfl, .inl rfl⟩

theorem unescape_go_short {e : UInt8} (h : isShortEscape e = true) :
    ∃ out : Bytes, ∀ acc rest, unescape.go acc 0 (0x5C :: e :: rest) =
      unescape.go (out.reverseAux acc) 0 rest := by
  obtain ⟨out, hout⟩ := escapeAt_short h
  refine ⟨out, ?_⟩
  intro acc rest
  rw [unescape.go, if_pos (by decide), hout]
  rfl

theorem unescape_go_unicode {a b c d : UInt8} {rest : Bytes} {out : Char} {skip : Nat}
    (h : unicodeEscape (a :: b :: c :: d :: rest) = (out, skip)) (acc : Bytes) :
    unescape.go acc 0 (0x5C :: 0x75 :: a :: b :: c :: d :: rest) =
      unescape.go ((Utf8.encode out).reverseAux acc) 0 ((a :: b :: c :: d :: rest).drop skip) := by
  have hescape : escapeAt (0x75 :: a :: b :: c :: d :: rest) = (Utf8.encode out, skip + 1) := by
    simp [escapeAt, h]
  rw [unescape.go, if_pos (by decide), hescape]
  exact unescape_go_drop _ skip _

theorem unescape_go_guardMarkup {raw : Bytes} (h : Spelling raw) (acc : Bytes) :
    unescape.go acc 0 (guardMarkup raw) = unescape.go acc 0 raw := by
  induction hn : raw.length using Nat.strongRecOn generalizing raw acc with
  | ind n ih =>
      have hshorter {t : Bytes} (ht : Spelling t) (hlen : t.length < n) (acc : Bytes) :
          unescape.go acc 0 (guardMarkup t) = unescape.go acc 0 t := ih t.length hlen ht acc rfl
      cases h with
      | nil => rfl
      | @plain b rest hcontrol hquote hslash hrest =>
          rw [List.length_cons] at hn
          rcases guardMarkup_cons b rest with ⟨c, hc, more, raw, hbytes, rfl, heq⟩ | ⟨-, heq⟩
          · -- A character that is written as its escape.
            obtain ⟨hsmall, -, hslash⟩ := mark_toNat hc
            have hraw : Spelling raw := by
              have htails := Utf8.encoding_encode c
              rw [hbytes] at htails
              exact hrest.of_append fun t ht => ne_slash_of_isTail (htails.isTail_of_mem t ht)
            rw [List.length_append] at hn
            rw [heq, (Spells.unicode hsmall).means, ← List.cons_append, ← hbytes,
              unescape_go_encode hslash]
            exact hshorter hraw (by omega) _
          rw [heq]
          rcases Utf8.pieceAt_cases b rest with hstray | ⟨more, later, rfl, hencoding⟩
          · -- A byte that begins no encoding, now as before.
            rw [unescape.go, if_neg (by simpa using hslash), pieceAt_guardMarkup hstray, unescape.go,
              if_neg (by simpa using hslash), hstray]
            exact hshorter hrest (by omega) _
          · -- A character that stands for itself.
            obtain ⟨c, -, hbytes⟩ := Utf8.pieceAt_encoding hencoding later
            have htails := hencoding.isTail_of_mem
            have hne : c ≠ '\\' := by
              rintro rfl
              have hone : Utf8.encode '\\' = [0x5C] := by decide +kernel
              exact hslash (List.cons.inj (hbytes.symm.trans hone)).1
            have hlater := hrest.of_append fun t ht => ne_slash_of_isTail (htails t ht)
            rw [guardMarkup_append fun t ht => not_isGuarded_of_isTail (htails t ht),
              ← List.cons_append, ← List.cons_append, ← hbytes, unescape_go_encode hne,
              unescape_go_encode hne]
            rw [List.length_append] at hn
            exact hshorter hlater (by omega) _
      | @short e rest he hrest =>
          simp only [List.length_cons] at hn
          obtain ⟨out, hout⟩ := unescape_go_short he
          rw [guardMarkup_short he, hout, hout]
          exact hshorter hrest (by omega) _
      | @unicode a b c d rest hdigits hrest =>
          simp only [List.length_cons] at hn
          obtain ⟨out, skip, hbefore, hafter, hskip⟩ :=
            unicodeEscape_cases hdigits (lowSurrogate?_guardMarkup hrest)
          rw [guardMarkup_unicode hdigits, unescape_go_unicode hbefore, unescape_go_unicode hafter]
          rcases hskip with rfl | ⟨rfl, hpair⟩
          · exact hshorter hrest (by omega) _
          · -- The second half of a pair is an escape too.
            cases hrest with
            | nil => cases hpair
            | plain _ _ hslash _ =>
                rw [lowSurrogate?_of_ne hslash] at hpair
                cases hpair
            | short he _ =>
                rw [lowSurrogate?_short he] at hpair
                cases hpair
            | @unicode x y z w later hdigits' hlater =>
                rw [guardMarkup_unicode hdigits']
                simp only [List.length_cons] at hn
                exact hshorter hlater (by omega) _

/-- **What is written means the same.** -/
theorem unescape_guardMarkup {raw : Bytes} (h : Spelling raw) :
    unescape (guardMarkup raw) = unescape raw :=
  unescape_go_guardMarkup h []

end ReplBridge.Json
