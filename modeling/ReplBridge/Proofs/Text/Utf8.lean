import ReplBridge.Text.Utf8

/-!
**The encodings of scalars.**

An encoding is one byte below 80, or a leading byte and as many bytes behind it as the leading byte
announces.  The bytes behind it are continuation bytes, and the first of them lies between the
bounds that the leading byte sets.

Main definitions:

* `Utf8.Encoding` — the well-formed encodings, by their length;
* `Utf8.announced` — how many bytes a byte announces behind it.

Main results:

* `Utf8.lead?_spec` — where leading bytes lie, and what they announce;
* `Utf8.encoding_encode` — **every scalar has a well-formed encoding**;
* `Utf8.Encoding.eq_singleton` — only a byte that stands alone is below 80;
* `Utf8.incomplete_of_append`, `Utf8.Encoding.unfinished` — what comes before the end of an
  encoding.
-/

set_option autoImplicit false

namespace ReplBridge

variable {b t : UInt8}

/-- What holds of 256 bytes holds of all. -/
theorem Bytes.forall_byte {P : UInt8 → Prop} (h : ∀ n : Fin 256, P (.ofFin n)) (b : UInt8) :
    P b := by
  simpa using h b.toFin

theorem Bytes.within_iff {lo hi b : UInt8} :
    Bytes.within lo hi b = true ↔ lo.toNat ≤ b.toNat ∧ b.toNat ≤ hi.toNat := by
  simp [Bytes.within, UInt8.le_iff_toNat_le]

namespace Utf8

theorem isTail_iff : isTail b = true ↔ 0x80 ≤ b.toNat ∧ b.toNat ≤ 0xBF := by
  simp [isTail, Bytes.within_iff]

/-- Where leading bytes lie, and what they announce. -/
theorem lead?_spec {l : Lead} (h : lead? b = some l) :
    0xC2 ≤ b.toNat ∧ 0x80 ≤ l.lo.toNat ∧ l.hi.toNat ≤ 0xBF ∧
      (l.more = 1 ∧ b.toNat ≤ 0xDF ∨ l.more = 2 ∧ 0xE0 ≤ b.toNat ∧ b.toNat ≤ 0xEF ∨
        l.more = 3 ∧ 0xF0 ≤ b.toNat ∧ b.toNat ≤ 0xF4) := by
  unfold lead? at h
  simp only [Bytes.within_iff, beq_iff_eq, ← UInt8.toNat_inj] at h
  split at h
  · cases h
    simp_all
  split at h
  · cases h
    simp_all
  split at h
  · cases h
    simp_all
  split at h
  · cases h
    simp at *
    omega
  split at h
  · cases h
    simp_all
  split at h
  · cases h
    simp at *
    omega
  split at h
  · cases h
    simp_all
  · cases h

theorem lead?_of_ascii (h : b.toNat < 0x80) : lead? b = none := by
  cases hlead : lead? b with
  | none => rfl
  | some l =>
      have := (lead?_spec hlead).1
      omega

theorem not_isTail_of_lead {l : Lead} (h : lead? b = some l) : isTail b = false := by
  have hspec := (lead?_spec h).1
  rw [Bool.eq_false_iff, ne_eq, isTail_iff]
  omega

theorem isTail_of_second {l : Lead} (h : lead? b = some l) (ht : Bytes.within l.lo l.hi t = true) :
    isTail t = true := by
  obtain ⟨-, hlo, hhi, -⟩ := lead?_spec h
  rw [Bytes.within_iff] at ht
  rw [isTail_iff]
  omega

/-! ### Encodings -/

/-- **The well-formed encodings**, by their length. -/
inductive Encoding : Bytes → Prop where
  | one {b : UInt8} (hb : b.toNat < 0x80) : Encoding [b]
  | two {b t : UInt8} {l : Lead} (hlead : lead? b = some l) (hmore : l.more = 1)
      (ht : Bytes.within l.lo l.hi t = true) : Encoding [b, t]
  | three {b t u : UInt8} {l : Lead} (hlead : lead? b = some l) (hmore : l.more = 2)
      (ht : Bytes.within l.lo l.hi t = true) (hu : isTail u = true) : Encoding [b, t, u]
  | four {b t u v : UInt8} {l : Lead} (hlead : lead? b = some l) (hmore : l.more = 3)
      (ht : Bytes.within l.lo l.hi t = true) (hu : isTail u = true) (hv : isTail v = true) :
      Encoding [b, t, u, v]

theorem toNat_ofNat {n : Nat} (h : n < 256) : (UInt8.ofNat n).toNat = n := by
  simp [UInt8.toNat_ofNat']
  omega

theorem lead_two (hb : 0xC2 ≤ b.toNat ∧ b.toNat ≤ 0xDF) (ht : isTail t = true) :
    ∃ l, lead? b = some l ∧ l.more = 1 ∧ Bytes.within l.lo l.hi t = true := by
  have hwithin : Bytes.within 0xC2 0xDF b = true := by simpa [Bytes.within_iff] using hb
  exact ⟨⟨1, 0x80, 0xBF⟩, by simp [lead?, hwithin], rfl, ht⟩

/-- Three bytes encode neither what two can encode nor a surrogate. -/
theorem lead_three (hb : 0xE0 ≤ b.toNat ∧ b.toNat ≤ 0xEF) (ht : isTail t = true)
    (hshort : b.toNat = 0xE0 → 0xA0 ≤ t.toNat) (hsurrogate : b.toNat = 0xED → t.toNat ≤ 0x9F) :
    ∃ l, lead? b = some l ∧ l.more = 2 ∧ Bytes.within l.lo l.hi t = true := by
  rw [isTail_iff] at ht
  have htwo : Bytes.within 0xC2 0xDF b = false := by
    rw [Bool.eq_false_iff, ne_eq, Bytes.within_iff]
    simp
    omega
  by_cases hfirst : b.toNat = 0xE0
  · have hb' : b = 0xE0 := UInt8.toNat_inj.1 hfirst
    refine ⟨⟨2, 0xA0, 0xBF⟩, by simp [lead?, hb', Bytes.within], rfl, ?_⟩
    exact Bytes.within_iff.2 ⟨hshort hfirst, ht.2⟩
  by_cases hmiddle : b.toNat = 0xED
  · have hb' : b = 0xED := UInt8.toNat_inj.1 hmiddle
    refine ⟨⟨2, 0x80, 0x9F⟩, by simp [lead?, hb', Bytes.within], rfl, ?_⟩
    exact Bytes.within_iff.2 ⟨ht.1, hsurrogate hmiddle⟩
  · have hb₁ : (b == 0xE0) = false := by simpa [← UInt8.toNat_inj] using hfirst
    have hb₂ : (b == 0xED) = false := by simpa [← UInt8.toNat_inj] using hmiddle
    have hwithin : Bytes.within 0xE1 0xEF b = true := by
      rw [Bytes.within_iff]
      simp
      omega
    refine ⟨⟨2, 0x80, 0xBF⟩, by simp [lead?, htwo, hb₁, hb₂, hwithin], rfl, ?_⟩
    exact Bytes.within_iff.2 ht

/-- Four bytes encode neither what three can encode nor what is no scalar. -/
theorem lead_four (hb : 0xF0 ≤ b.toNat ∧ b.toNat ≤ 0xF4) (ht : isTail t = true)
    (hshort : b.toNat = 0xF0 → 0x90 ≤ t.toNat) (hlong : b.toNat = 0xF4 → t.toNat ≤ 0x8F) :
    ∃ l, lead? b = some l ∧ l.more = 3 ∧ Bytes.within l.lo l.hi t = true := by
  rw [isTail_iff] at ht
  have htwo : Bytes.within 0xC2 0xDF b = false := by
    rw [Bool.eq_false_iff, ne_eq, Bytes.within_iff]
    simp
    omega
  have hthree : Bytes.within 0xE1 0xEF b = false := by
    rw [Bool.eq_false_iff, ne_eq, Bytes.within_iff]
    simp
    omega
  have hb₁ : (b == 0xE0) = false := by
    simp [← UInt8.toNat_inj]
    omega
  have hb₂ : (b == 0xED) = false := by
    simp [← UInt8.toNat_inj]
    omega
  by_cases hfirst : b.toNat = 0xF0
  · have hb' : b = 0xF0 := UInt8.toNat_inj.1 hfirst
    refine ⟨⟨3, 0x90, 0xBF⟩, by simp [lead?, hb', Bytes.within], rfl, ?_⟩
    exact Bytes.within_iff.2 ⟨hshort hfirst, ht.2⟩
  have hb₃ : (b == 0xF0) = false := by simpa [← UInt8.toNat_inj] using hfirst
  by_cases hlast : b.toNat = 0xF4
  · have hb' : b = 0xF4 := UInt8.toNat_inj.1 hlast
    refine ⟨⟨3, 0x80, 0x8F⟩, by simp [lead?, hb', Bytes.within], rfl, ?_⟩
    exact Bytes.within_iff.2 ⟨ht.1, hlong hlast⟩
  · have hwithin : Bytes.within 0xF1 0xF3 b = true := by
      rw [Bytes.within_iff]
      simp
      omega
    refine ⟨⟨3, 0x80, 0xBF⟩, by simp [lead?, htwo, hthree, hb₁, hb₂, hb₃, hwithin], rfl, ?_⟩
    exact Bytes.within_iff.2 ht

/-- **Every scalar has a well-formed encoding.** -/
theorem encoding_encode (c : Char) : Encoding (encode c) := by
  have hvalid : c.val.toNat < 0xD800 ∨ 0xDFFF < c.val.toNat ∧ c.val.toNat < 0x110000 := c.valid
  have htail (n : Nat) : (UInt8.ofNat (n % 64 + 128)).toNat = n % 64 + 128 := toNat_ofNat (by omega)
  have hisTail (n : Nat) : isTail (UInt8.ofNat (n % 64 + 128)) = true := by
    rw [isTail_iff, htail]
    omega
  unfold encode String.utf8EncodeChar
  dsimp only
  split
  · exact .one (by rw [toNat_ofNat] <;> omega)
  split
  · have hb : (UInt8.ofNat (c.val.toNat / 64 % 32 + 192)).toNat = c.val.toNat / 64 % 32 + 192 :=
      toNat_ofNat (by omega)
    obtain ⟨l, hlead, hmore, ht⟩ := lead_two (b := UInt8.ofNat (c.val.toNat / 64 % 32 + 192))
      (by omega) (hisTail c.val.toNat)
    exact .two hlead hmore ht
  split
  · have hb : (UInt8.ofNat (c.val.toNat / 4096 % 16 + 224)).toNat =
        c.val.toNat / 4096 % 16 + 224 := toNat_ofNat (by omega)
    have hsecond := htail (c.val.toNat / 64)
    obtain ⟨l, hlead, hmore, ht⟩ := lead_three (b := UInt8.ofNat (c.val.toNat / 4096 % 16 + 224))
      (by omega) (hisTail (c.val.toNat / 64)) (by omega) (by omega)
    exact .three hlead hmore ht (hisTail _)
  · have hb : (UInt8.ofNat (c.val.toNat / 262144 % 8 + 240)).toNat =
        c.val.toNat / 262144 % 8 + 240 := toNat_ofNat (by omega)
    have hsecond := htail (c.val.toNat / 4096)
    obtain ⟨l, hlead, hmore, ht⟩ := lead_four (b := UInt8.ofNat (c.val.toNat / 262144 % 8 + 240))
      (by omega) (hisTail (c.val.toNat / 4096)) (by omega) (by omega)
    exact .four hlead hmore ht (hisTail _) (hisTail _)

/-- Behind the first byte stand continuation bytes. -/
theorem Encoding.isTail_of_mem {more : Bytes} (h : Encoding (b :: more)) :
    ∀ t ∈ more, isTail t = true := by
  cases h with
  | one => nofun
  | two hlead _ ht => simpa using isTail_of_second hlead ht
  | three hlead _ ht hu => simpa using ⟨isTail_of_second hlead ht, hu⟩
  | four hlead _ ht hu hv => simpa using ⟨isTail_of_second hlead ht, hu, hv⟩

/-- Only a byte that stands alone is below 80. -/
theorem Encoding.eq_singleton {s : Bytes} (h : Encoding s) (hb : b ∈ s) (hlow : b.toNat < 0x80) :
    s = [b] := by
  have hhigh {a : UInt8} (ha : 0x80 ≤ a.toNat) : b ≠ a := by
    rintro rfl
    omega
  have htail {a : UInt8} (ha : isTail a = true) : b ≠ a := hhigh (isTail_iff.1 ha).1
  cases h with
  | one => simp_all
  | two hlead _ ht =>
      have hfirst := (lead?_spec hlead).1
      simp [hhigh (Nat.le_trans (by omega) hfirst), htail (isTail_of_second hlead ht)] at hb
  | three hlead _ ht hu =>
      have hfirst := (lead?_spec hlead).1
      simp [hhigh (Nat.le_trans (by omega) hfirst), htail (isTail_of_second hlead ht),
        htail hu] at hb
  | four hlead _ ht hu hv =>
      have hfirst := (lead?_spec hlead).1
      simp [hhigh (Nat.le_trans (by omega) hfirst), htail (isTail_of_second hlead ht),
        htail hu, htail hv] at hb

/-- How many bytes a byte announces behind it. -/
def announced (b : UInt8) : Nat := (lead? b).elim 0 Lead.more

theorem announced_of_tail (h : isTail b = true) : announced b = 0 := by
  unfold announced
  cases hlead : lead? b with
  | none => rfl
  | some l =>
      rw [not_isTail_of_lead hlead] at h
      cases h

theorem announced_of_encoding {more : Bytes} (h : Encoding (b :: more)) :
    announced b = more.length := by
  unfold announced
  cases h with
  | one hb => simp [lead?_of_ascii hb]
  | two hlead hmore ht => simp [hlead, hmore]
  | three hlead hmore ht hu => simp [hlead, hmore]
  | four hlead hmore ht hu hv => simp [hlead, hmore]

/-- A scalar whose encoding has a byte below 80 is that byte. -/
theorem eq_of_mem_encode {c : Char} (hb : b ∈ encode c) (hlow : b.toNat < 0x80) :
    c.toNat = b.toNat := by
  have hone := (encoding_encode c).eq_singleton hb hlow
  unfold encode String.utf8EncodeChar at hone
  dsimp only at hone
  split at hone
  · simp only [List.cons.injEq, and_true] at hone
    rw [← hone, toNat_ofNat (by omega)]
    rfl
  · split at hone
    · simp at hone
    · split at hone <;> simp at hone

/-! ### Incomplete encodings -/

/-- What begins an encoding begins it at any length. -/
theorem incomplete_of_append {rest : Bytes} (h : incomplete (b :: rest ++ [t]) = true) :
    incomplete (b :: rest) = true := by
  match rest with
  | [] =>
      simp only [List.singleton_append, incomplete] at h
      split at h
      · rename_i l hlead
        simp [incomplete, hlead]
      · cases h
  | [u] =>
      simp only [List.cons_append, List.nil_append, incomplete] at h
      split at h
      · rename_i l hlead
        simp only [Bool.and_eq_true, decide_eq_true_eq] at h
        simp only [incomplete, hlead, Bool.and_eq_true, decide_eq_true_eq]
        exact ⟨by omega, h.1.2⟩
      · cases h
  | u :: v :: rest => simp [incomplete] at h

/-- What comes before the end of an encoding begins it and does not end it. -/
theorem Encoding.unfinished {s f : Bytes} (h : Encoding s) (hf : f <+: s) (hne : f ≠ s) :
    f = [] ∨ ∃ b ts, f = b :: ts ∧ isTail b = false ∧ (∀ t ∈ ts, isTail t = true) ∧
      incomplete (b :: ts) = true := by
  obtain ⟨rest, hs⟩ := hf
  cases f with
  | nil => exact .inl rfl
  | cons b ts =>
      refine .inr ⟨b, ts, rfl, ?_⟩
      cases h with
      | one hb => simp_all
      | two hlead hmore ht =>
          obtain ⟨rfl, hts⟩ := List.cons.inj hs
          match ts with
          | [] => exact ⟨not_isTail_of_lead hlead, by simp, by simp [incomplete, hlead]⟩
          | _ :: ts => simp_all
      | three hlead hmore ht hu =>
          obtain ⟨rfl, hts⟩ := List.cons.inj hs
          have htail := isTail_of_second hlead ht
          match ts with
          | [] => exact ⟨not_isTail_of_lead hlead, by simp, by simp [incomplete, hlead]⟩
          | [_] =>
              obtain ⟨rfl, -⟩ := List.cons.inj hts
              exact ⟨not_isTail_of_lead hlead, by simpa using htail,
                by simp [incomplete, hlead, hmore, ht]⟩
          | _ :: _ :: ts => simp_all
      | four hlead hmore ht hu hv =>
          obtain ⟨rfl, hts⟩ := List.cons.inj hs
          have htail := isTail_of_second hlead ht
          match ts with
          | [] => exact ⟨not_isTail_of_lead hlead, by simp, by simp [incomplete, hlead]⟩
          | [_] =>
              obtain ⟨rfl, -⟩ := List.cons.inj hts
              exact ⟨not_isTail_of_lead hlead, by simpa using htail,
                by simp [incomplete, hlead, hmore, ht]⟩
          | [_, _] =>
              obtain ⟨rfl, hrest⟩ := List.cons.inj hts
              obtain ⟨rfl, -⟩ := List.cons.inj hrest
              exact ⟨not_isTail_of_lead hlead, by simpa using ⟨htail, hu⟩,
                by simp [incomplete, hlead, hmore, ht, hu]⟩
          | _ :: _ :: _ :: ts => simp_all

end Utf8

end ReplBridge
