import ReplBridge.Proofs.Text.Decimal
import ReplBridge.Proofs.Text.Pieces
import ReplBridge.Time.Stamp

/-!
**A stamp reads back.**

Every number of a stamp is written with a fixed number of digits, so a reader that takes as many
gets the number and what stands behind it.  Only the fraction has no fixed length: its trailing
zeros are left out, and reading supplies as many zeros as are missing.

Main definitions:

* `Time.Stamp.Valid` — a time that a clock can show.

Main results:

* `Duration.value_padded` — digits that were padded have the value of the number;
* `Time.fraction_append` — **a fraction reads back**, whatever its trailing zeros;
* `Time.Stamp.read?_text` — **a stamp reads back**;
* `Time.Stamp.ascii_text` — a stamp is written in ASCII.
-/

set_option autoImplicit false

namespace ReplBridge

/-! ### Padded numbers -/

namespace Decimal

theorem tenTo_succ (k : Nat) : tenTo (k + 1) = tenTo k * 10 := rfl

theorem value_concat (digits : Bytes) (b : UInt8) :
    value (digits ++ [b]) = shift (value digits) b := by
  simp [value]

/-- A zero at the end makes a number ten times as large. -/
theorem value_append_zeros (digits : Bytes) (k : Nat) :
    value (digits ++ List.replicate k 0x30) = value digits * tenTo k := by
  induction k with
  | zero => simp [tenTo]
  | succ k ih =>
      rw [List.replicate_succ', ← List.append_assoc, value_concat, ih, shift, tenTo_succ]
      show 10 * (value digits * tenTo k) + 0 = value digits * (tenTo k * 10)
      rw [Nat.add_zero, Nat.mul_comm 10, Nat.mul_assoc]

end Decimal

namespace Duration

theorem toNat_digit (n : Nat) : (UInt8.ofNat (0x30 + n % 10)).toNat = 0x30 + n % 10 := by
  rw [UInt8.toNat_ofNat']
  omega

theorem isDigit_digit (n : Nat) : Bytes.isDigit (UInt8.ofNat (0x30 + n % 10)) = true := by
  simp only [Bytes.isDigit, Bytes.within, Bool.and_eq_true, decide_eq_true_eq,
    UInt8.le_iff_toNat_le, toNat_digit]
  exact ⟨Nat.le_add_right _ _, show 0x30 + n % 10 ≤ 0x39 by omega⟩

@[simp] theorem length_padded (places n : Nat) : (padded places n).length = places := by
  induction places generalizing n with
  | zero => rfl
  | succ places ih => simp [padded, ih]

theorem isDigit_of_mem_padded {places n : Nat} {b : UInt8} (h : b ∈ padded places n) :
    Bytes.isDigit b = true := by
  induction places generalizing n with
  | zero => cases h
  | succ places ih =>
      rcases List.mem_append.1 h with h | h
      · exact ih h
      · rw [List.mem_singleton.1 h]
        exact isDigit_digit n

/-- **Padded digits have the value of the number.** -/
theorem value_padded {places n : Nat} (h : n < Decimal.tenTo places) :
    Decimal.value (padded places n) = n := by
  induction places generalizing n with
  | zero =>
      have hzero : n = 0 := Nat.lt_one_iff.1 h
      rw [hzero]
      rfl
  | succ places ih =>
      have hsmall : n / 10 < Decimal.tenTo places := by
        rw [Decimal.tenTo_succ] at h
        exact Nat.div_lt_of_lt_mul (Nat.mul_comm _ 10 ▸ h)
      rw [padded, Decimal.value_concat, ih hsmall, Decimal.shift, toNat_digit]
      show 10 * (n / 10) + (0x30 + n % 10 - 0x30) = n
      omega

end Duration

namespace Time

open Duration (padded)

/-! ### Numbers of fixed length -/

theorem padded_two (n : Nat) : ∃ a b, padded 2 n = [a, b] ∧
    Bytes.isDigit a = true ∧ Bytes.isDigit b = true :=
  ⟨_, _, rfl, Duration.isDigit_digit (n / 10), Duration.isDigit_digit n⟩

theorem twoDigits?_padded {n : Nat} (h : n < 100) (short : Bool) (rest : Bytes) :
    twoDigits? short (padded 2 n ++ rest) = some (n, rest) := by
  have hvalue : Decimal.value (padded 2 n) = n := Duration.value_padded h
  obtain ⟨a, b, htwo, ha, hb⟩ := padded_two n
  rw [htwo] at hvalue ⊢
  simp [twoDigits?, ha, hb, hvalue]

theorem fourDigits?_padded {n : Nat} (h : n < 10000) (rest : Bytes) :
    fourDigits? (padded 4 n ++ rest) = some (n, rest) := by
  have hvalue : Decimal.value (padded 4 n) = n := Duration.value_padded h
  have htake : (padded 4 n ++ rest).take 4 = padded 4 n := List.take_left' (by simp)
  have hdrop : (padded 4 n ++ rest).drop 4 = rest := List.drop_left' (by simp)
  have hdigits : (padded 4 n).all Bytes.isDigit = true :=
    List.all_eq_true.2 fun b hb => Duration.isDigit_of_mem_padded hb
  simp [fourDigits?, htake, hdrop, hdigits, hvalue]

theorem pass?_cons (b : UInt8) (rest : Bytes) : pass? b (b :: rest) = some rest := by
  simp [pass?]

/-! ### Fractions -/

/-- What is left out at the end of digits are zeros. -/
theorem dropEndWhile_append_zeros (s : Bytes) :
    ∃ k, Bytes.dropEndWhile (· == 0x30) s ++ List.replicate k 0x30 = s := by
  have hzeros : s.reverse.takeWhile (· == 0x30) =
      List.replicate (s.reverse.takeWhile (· == 0x30)).length 0x30 := by
    refine List.eq_replicate_iff.2 ⟨rfl, ?_⟩
    intro b hb
    exact beq_iff_eq.1 (List.all_eq_true.1 List.all_takeWhile b hb)
  refine ⟨(s.reverse.takeWhile (· == 0x30)).length, ?_⟩
  rw [← List.reverse_replicate, ← hzeros, Bytes.dropEndWhile, ← List.reverse_append,
    List.takeWhile_append_dropWhile, List.reverse_reverse]

/-- A fraction of nine places is its digits, up to zeros behind them. -/
theorem dropEndWhile_padded {n : Nat} (h : n < Decimal.tenTo 9) :
    ∃ digits, Bytes.dropEndWhile (· == 0x30) (padded 9 n) = digits ∧ digits.length ≤ 9 ∧
      (∀ b ∈ digits, Bytes.isDigit b = true) ∧
      Decimal.value digits * Decimal.tenTo (9 - digits.length) = n := by
  obtain ⟨k, hpadded⟩ := dropEndWhile_append_zeros (padded 9 n)
  generalize Bytes.dropEndWhile (· == 0x30) (padded 9 n) = digits at hpadded
  have hlength : digits.length + k = 9 := by
    rw [← Duration.length_padded 9 n, ← hpadded, List.length_append, List.length_replicate]
  have hvalue : Decimal.value digits * Decimal.tenTo k = n := by
    rw [← Duration.value_padded h, ← hpadded, Decimal.value_append_zeros]
  refine ⟨digits, rfl, by omega, ?_, ?_⟩
  · intro b hb
    exact Duration.isDigit_of_mem_padded (hpadded ▸ List.mem_append_left _ hb)
  · have hmissing : 9 - digits.length = k := by omega
    rw [hmissing, hvalue]

/-- What cannot continue a fraction. -/
def endsFraction (b : UInt8) : Bool := !(Bytes.isDigit b || b == 0x2E || b == 0x2C)

/-- **A fraction reads back**, in front of what cannot continue it. -/
theorem fraction_append {n : Nat} (h : n < Decimal.tenTo 9) {b : UInt8} (hb : endsFraction b = true)
    (rest : Bytes) : fraction (Duration.fraction 9 n ++ b :: rest) = (n, b :: rest) := by
  obtain ⟨digits, hdigits, hlength, hall, hvalue⟩ := dropEndWhile_padded h
  simp only [endsFraction, Bool.not_eq_true', Bool.or_eq_false_iff] at hb
  obtain ⟨⟨hdigit, hpoint⟩, hcomma⟩ := hb
  have htake : (digits ++ b :: rest).takeWhile Bytes.isDigit = digits := by
    rw [List.takeWhile_append_of_pos hall, List.takeWhile_cons_of_neg (by simp [hdigit]),
      List.append_nil]
  cases digits with
  | nil =>
      -- No digits are no fraction, and what stands there instead of a point is left alone.
      have hzero : n = 0 := by simpa [Decimal.value] using hvalue.symm
      have hfraction : Duration.fraction 9 n = [] := by
        simp [Duration.fraction, hdigits]
      rw [hfraction, List.nil_append]
      simp [fraction, hpoint, hcomma, hzero]
  | cons d ds =>
      have hfraction : Duration.fraction 9 n = 0x2E :: d :: ds := by
        simp [Duration.fraction, hdigits]
      have hkept : (d :: ds).take 9 = d :: ds := List.take_of_length_le hlength
      have hdrop : (d :: ds ++ b :: rest).drop (d :: ds).length = b :: rest := List.drop_left
      simp only [hfraction, List.cons_append, fraction]
      rw [← List.cons_append, htake, hkept, hdrop, hvalue]
      rfl

/-! ### Stamps -/

theorem zone?_signed {sign : UInt8} (hsign : sign = 0x2B ∨ sign = 0x2D) {hours minutes : Nat}
    (hhours : hours < 24) (hminutes : minutes < 60) :
    zone? (sign :: padded 2 hours ++ 0x3A :: padded 2 minutes) =
      some (if sign == 0x2D then -(60 * hours + minutes : Int) else 60 * hours + minutes) := by
  have hhour : Decimal.value (padded 2 hours) = hours :=
    Duration.value_padded (Nat.lt_trans hhours (by decide))
  have hminute : Decimal.value (padded 2 minutes) = minutes :=
    Duration.value_padded (Nat.lt_trans hminutes (by decide))
  obtain ⟨a, b, htwo, ha, hb⟩ := padded_two hours
  obtain ⟨c, d, htwo', hc, hd⟩ := padded_two minutes
  rw [htwo] at hhour ⊢
  rw [htwo'] at hminute ⊢
  have hbound : ¬ (24 < hours ∨ 60 < minutes) := by omega
  simp [zone?, ha, hb, hc, hd, hhour, hminute, hbound, hsign]

theorem zone?_zoneText {ahead : Int} (h : ahead.natAbs < 24 * 60) :
    zone? (Stamp.zoneText ahead) = some ahead := by
  have hhours : ahead.natAbs / 60 < 24 := by omega
  have hminutes : ahead.natAbs % 60 < 60 := Nat.mod_lt _ (by decide)
  unfold Stamp.zoneText
  split
  · rename_i hzero
    rw [hzero]
    decide +kernel
  · show zone? ((if ahead < 0 then 0x2D else 0x2B) :: _ ++ _) = _
    split
    · rw [zone?_signed (.inr rfl) hhours hminutes]
      show some (-_) = _
      congr 1
      omega
    · rw [zone?_signed (.inl rfl) hhours hminutes]
      show some (60 * _ + _) = _
      congr 1
      omega

/-- **A time that a clock can show**, in a year of four digits, and less than a day away from
universal time. -/
structure Stamp.Valid (t : Stamp) : Prop where
  /-- The year has four digits. -/
  year : t.year < 10000
  month : 1 ≤ t.month ∧ t.month ≤ 12
  day : 1 ≤ t.day ∧ t.day ≤ daysIn t.month t.year
  hour : t.hour < 24
  minute : t.minute < 60
  second : t.second < 60
  /-- The fraction is less than a second. -/
  nanos : t.nanos < Decimal.tenTo 9
  /-- The clock is less than a day ahead or behind. -/
  ahead : t.ahead.natAbs < 24 * 60

instance (t : Stamp) : Decidable t.Valid :=
  decidable_of_iff (t.year < 10000 ∧ (1 ≤ t.month ∧ t.month ≤ 12) ∧
      (1 ≤ t.day ∧ t.day ≤ daysIn t.month t.year) ∧ t.hour < 24 ∧ t.minute < 60 ∧ t.second < 60 ∧
      t.nanos < Decimal.tenTo 9 ∧ t.ahead.natAbs < 24 * 60)
    ⟨fun ⟨year, month, day, hour, minute, second, nanos, ahead⟩ =>
        ⟨year, month, day, hour, minute, second, nanos, ahead⟩,
      fun h => ⟨h.year, h.month, h.day, h.hour, h.minute, h.second, h.nanos, h.ahead⟩⟩

theorem daysIn_le (month year : Nat) : daysIn month year ≤ 31 := by
  unfold daysIn
  split
  · split <;> decide
  · split <;> decide

theorem date?_append {t : Stamp} (h : t.Valid) (rest : Bytes) :
    date? false (padded 4 t.year ++
        0x2D :: (padded 2 t.month ++ 0x2D :: (padded 2 t.day ++ rest))) =
      some ({ year := t.year, month := t.month, day := t.day }, rest) := by
  have hmonth : t.month < 100 := Nat.lt_of_le_of_lt h.month.2 (by decide)
  have hday : t.day < 100 :=
    Nat.lt_of_le_of_lt (Nat.le_trans h.day.2 (daysIn_le _ _)) (by decide)
  simp [date?, fourDigits?_padded h.year, pass?_cons, twoDigits?_padded hmonth,
    twoDigits?_padded hday, h.month, h.day]

theorem zoneText_head (ahead : Int) :
    ∃ b rest, Stamp.zoneText ahead = b :: rest ∧ endsFraction b = true := by
  unfold Stamp.zoneText
  split
  · exact ⟨0x5A, [], by decide +kernel, by decide⟩
  · split
    · exact ⟨0x2D, _, rfl, by decide⟩
    · exact ⟨0x2B, _, rfl, by decide⟩

/-- **A stamp reads back.** -/
theorem Stamp.read?_text {t : Stamp} (h : t.Valid) : Stamp.read? {} t.text = some t := by
  have hhour : t.hour < 100 := Nat.lt_trans h.hour (by decide)
  have hminute : t.minute < 100 := Nat.lt_trans h.minute (by decide)
  have hsecond : t.second < 100 := Nat.lt_trans h.second (by decide)
  obtain ⟨b, rest, hzone, hb⟩ := zoneText_head t.ahead
  have htext : t.text = padded 4 t.year ++ 0x2D :: (padded 2 t.month ++ 0x2D :: (padded 2 t.day ++
      0x54 :: (padded 2 t.hour ++ 0x3A :: (padded 2 t.minute ++ 0x3A :: (padded 2 t.second ++
        (Duration.fraction 9 t.nanos ++ b :: rest)))))) := by
    simp [text, hzone]
  have hahead : zone? (b :: rest) = some t.ahead := hzone ▸ zone?_zoneText h.ahead
  rw [htext, Stamp.read?]
  simp [date?_append h, Divider.pass?, pass?_cons, twoDigits?_padded hhour,
    twoDigits?_padded hminute, twoDigits?_padded hsecond, fraction_append h.nanos hb, hahead,
    h.hour, h.minute, h.second]

/-! ### ASCII -/

@[simp] theorem ascii_padded (places n : Nat) : Utf8.Ascii (padded places n) := by
  intro b hb
  have hdigit := Duration.isDigit_of_mem_padded hb
  simp only [Bytes.isDigit, Bytes.within, Bool.and_eq_true, decide_eq_true_eq] at hdigit
  exact UInt8.lt_of_le_of_lt hdigit.2 (by decide)

@[simp] theorem ascii_fraction (places n : Nat) : Utf8.Ascii (Duration.fraction places n) := by
  obtain ⟨k, hpadded⟩ := dropEndWhile_append_zeros (padded places n)
  have hascii := ascii_padded places n
  rw [← hpadded, Utf8.ascii_append] at hascii
  unfold Duration.fraction
  simp only
  split
  · nofun
  · exact Utf8.ascii_cons.2 ⟨by decide, hascii.1⟩

@[simp] theorem ascii_zoneText (ahead : Int) : Utf8.Ascii (Stamp.zoneText ahead) := by
  unfold Stamp.zoneText
  split
  · decide +kernel
  · have hsign : (if ahead < 0 then 0x2D else 0x2B : UInt8) < 0x80 := by
      split <;> decide
    simp [hsign]

theorem Stamp.ascii_text (t : Stamp) : Utf8.Ascii t.text := by
  simp [text]

end Time

end ReplBridge
