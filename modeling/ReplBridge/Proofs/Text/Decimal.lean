import ReplBridge.Text.Decimal

/-!
**Numbers in decimal read back.**

A natural number is written as the ASCII digits of its decimal representation, so reading the digits
one after another, each shifting what was read before it, gives the number back.  An integer has at
most a sign in front of them.

Main results:

* `Decimal.ofNat_eq` — a number is written digit by digit;
* `Decimal.nat?_ofNat`, `Decimal.int?_ofInt` — **what is written reads back**;
* `Decimal.isDigit_of_mem_ofNat`, `Decimal.mem_ofInt`, `Decimal.mem_of_int?` — which bytes it is
  written with and read from;
* `Decimal.ofNat_head` — no leading zeros.
-/

set_option autoImplicit false

namespace ReplBridge

/-- The bytes of an ASCII text are its characters, one by one. -/
theorem utf8_ofList {cs : List Char} (h : ∀ c ∈ cs, c.toNat < 128) :
    utf8 (String.ofList cs) = cs.map Bytes.ascii := by
  have hbytes : utf8 (String.ofList cs) = cs.flatMap String.utf8EncodeChar := by
    simp [utf8, List.utf8Encode]
  rw [hbytes]
  clear hbytes
  induction cs with
  | nil => rfl
  | cons c cs ih =>
      have hc : c.val.toNat ≤ 127 := Nat.le_of_lt_succ (h c (by simp))
      have hone : String.utf8EncodeChar c = [Bytes.ascii c] := if_pos hc
      rw [List.flatMap_cons, hone, ih fun d hd => h d (by simp [hd])]
      rfl

namespace Decimal

theorem toNat_ascii {c : Char} (h : c.isDigit = true) : (Bytes.ascii c).toNat = c.toNat := by
  obtain ⟨-, hle⟩ := Char.isDigit_iff_toNat.1 h
  have hle : c.toNat ≤ 57 := hle
  simp only [Bytes.ascii, UInt8.toNat_ofNat']
  omega

theorem isDigit_ascii {c : Char} (h : c.isDigit = true) : Bytes.isDigit (Bytes.ascii c) = true := by
  obtain ⟨hge, hle⟩ := Char.isDigit_iff_toNat.1 h
  simp only [Bytes.isDigit, Bytes.within, Bool.and_eq_true, decide_eq_true_eq,
    UInt8.le_iff_toNat_le, toNat_ascii h]
  exact ⟨hge, hle⟩

theorem isDigit_of_mem_toDigits {n : Nat} {c : Char} (h : c ∈ Nat.toDigits 10 n) :
    c.isDigit = true :=
  Nat.isDigit_of_mem_toDigits (by omega) (by omega) h

theorem ofNat_eq (n : Nat) : ofNat n = (Nat.toDigits 10 n).map Bytes.ascii := by
  rw [ofNat, Nat.toString_eq_repr, Nat.repr_eq_ofList_toDigits]
  refine utf8_ofList ?_
  intro c hc
  obtain ⟨-, hle⟩ := Char.isDigit_iff_toNat.1 (isDigit_of_mem_toDigits hc)
  exact Nat.lt_of_le_of_lt hle (by decide)

theorem isDigit_of_mem_ofNat {n : Nat} {b : UInt8} (h : b ∈ ofNat n) : Bytes.isDigit b = true := by
  rw [ofNat_eq] at h
  obtain ⟨c, hc, rfl⟩ := List.mem_map.1 h
  exact isDigit_ascii (isDigit_of_mem_toDigits hc)

/-- A number below ten is one digit. -/
theorem ofNat_of_lt {n : Nat} (h : n < 10) : ofNat n = [Bytes.ascii n.digitChar] := by
  rw [ofNat_eq, Nat.toDigits_of_lt_base h]
  rfl

/-- A number from ten on is the number without its last digit, and that digit. -/
theorem ofNat_of_ge {n : Nat} (h : 10 ≤ n) :
    ofNat n = ofNat (n / 10) ++ [Bytes.ascii (n % 10).digitChar] := by
  rw [ofNat_eq, ofNat_eq, Nat.toDigits_of_base_le (by omega) h, List.map_append]
  rfl

/-- **No leading zero**, except in zero itself. -/
theorem ofNat_head {n : Nat} (h : 0 < n) : ∃ b rest, ofNat n = b :: rest ∧ b ≠ 0x30 := by
  induction n using Nat.strongRecOn with
  | ind n ih =>
      rcases Nat.lt_or_ge n 10 with hlt | hge
      · refine ⟨_, _, ofNat_of_lt hlt, ?_⟩
        have hdigit : n.digitChar.isDigit = true := by simp [Nat.isDigit_digitChar, hlt]
        rw [ne_eq, ← UInt8.toNat_inj, toNat_ascii hdigit, Nat.toNat_digitChar_of_lt_ten hlt]
        show ¬ 48 + n = 48
        omega
      · obtain ⟨b, rest, hbytes, hb⟩ := ih (n / 10) (by omega) (by omega)
        exact ⟨b, _, by rw [ofNat_of_ge hge, hbytes, List.cons_append], hb⟩

/-- The value of digits, read from the left, is that of the characters they are. -/
theorem foldl_shift {cs : List Char} (h : ∀ c ∈ cs, c.isDigit = true) (n : Nat) :
    (cs.map Bytes.ascii).foldl shift n = Nat.ofDigitChars 10 cs n := by
  induction cs generalizing n with
  | nil => rfl
  | cons c cs ih =>
      have hc : shift n (Bytes.ascii c) = 10 * n + (c.toNat - '0'.toNat) := by
        rw [shift, toNat_ascii (h c (by simp))]
        rfl
      rw [List.map_cons, List.foldl_cons, hc, ih fun d hd => h d (by simp [hd])]
      rfl

theorem value_ofNat (n : Nat) : value (ofNat n) = n := by
  rw [value, ofNat_eq, foldl_shift fun c => isDigit_of_mem_toDigits]
  exact Nat.ofDigitChars_toDigits (by omega) (by omega)

/-- **A natural number reads back.** -/
theorem nat?_ofNat (n : Nat) : nat? (ofNat n) = some n := by
  have hfull : (ofNat n).isEmpty = false := by
    rw [ofNat_eq, List.isEmpty_map]
    exact List.isEmpty_eq_false_iff.2 Nat.toDigits_ne_nil
  have hdigits : (ofNat n).any (!Bytes.isDigit ·) = false := by
    refine List.any_eq_false.2 ?_
    intro b hb
    simp [isDigit_of_mem_ofNat hb]
  simp [nat?, hfull, hdigits, value_ofNat]

/-- **An integer reads back.** -/
theorem int?_ofInt (n : Int) : int? (ofInt n) = some n := by
  cases n with
  | negSucc n =>
      have hsign : ofInt (.negSucc n) = 0x2D :: ofNat (n + 1) := rfl
      rw [hsign, int?, nat?_ofNat]
      rfl
  | ofNat n =>
      have hplain : ofInt (.ofNat n) = ofNat n := rfl
      rw [hplain]
      -- A text that begins with a digit has no sign.
      unfold int?
      split
      · rename_i digits heq
        have hminus := isDigit_of_mem_ofNat (n := n) (b := 0x2D) (by simp [heq])
        cases hminus
      · rename_i digits heq
        have hplus := isDigit_of_mem_ofNat (n := n) (b := 0x2B) (by simp [heq])
        cases hplus
      · rw [nat?_ofNat]
        rfl

theorem ofInt_injective : Function.Injective ofInt := by
  intro n m h
  have hread : some n = some m := by rw [← int?_ofInt n, h, int?_ofInt m]
  exact Option.some.inj hread

theorem mem_ofInt {n : Int} {b : UInt8} (h : b ∈ ofInt n) : b = 0x2D ∨ Bytes.isDigit b = true := by
  cases n with
  | ofNat n => exact .inr (isDigit_of_mem_ofNat h)
  | negSucc n =>
      rcases List.mem_cons.1 h with rfl | h
      · exact .inl rfl
      · exact .inr (isDigit_of_mem_ofNat h)

theorem isDigit_of_nat? {s : Bytes} (h : nat? s ≠ none) {b : UInt8} (hb : b ∈ s) :
    Bytes.isDigit b = true := by
  unfold nat? at h
  split at h
  · exact absurd rfl h
  · rename_i hall
    rw [Bool.or_eq_true, not_or, List.any_eq_true] at hall
    cases hdigit : Bytes.isDigit b with
    | true => rfl
    | false => exact absurd ⟨b, hb, by rw [hdigit]; rfl⟩ hall.2

/-- The bytes that a number may be read from. -/
theorem mem_of_int? {s : Bytes} {n : Int} (h : int? s = some n) {b : UInt8} (hb : b ∈ s) :
    b = 0x2D ∨ b = 0x2B ∨ Bytes.isDigit b = true := by
  unfold int? at h
  split at h
  · rcases List.mem_cons.1 hb with rfl | hb
    · exact .inl rfl
    · exact .inr (.inr (isDigit_of_nat? (fun hnone => by simp [hnone] at h) hb))
  · rcases List.mem_cons.1 hb with rfl | hb
    · exact .inr (.inl rfl)
    · exact .inr (.inr (isDigit_of_nat? (fun hnone => by simp [hnone] at h) hb))
  · exact .inr (.inr (isDigit_of_nat? (fun hnone => by simp [hnone] at h) hb))

/-- **An integer of 64 bits reads back.** -/
theorem int64?_ofInt {n : Int} (h : fits 64 n = true) : int64? (ofInt n) = some n := by
  rw [int64?, int?_ofInt, Option.filter_some, if_pos h]

end Decimal

end ReplBridge
