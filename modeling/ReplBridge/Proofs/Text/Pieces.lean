import ReplBridge.Proofs.Text.Utf8

/-!
**Reading bytes as UTF-8 loses nothing.**

At each place a text either begins with the encoding of a scalar, which is what is read there, or
the one byte is stray.  So the bytes of the pieces, one after the other, are the text; and a text
without stray bytes is the encodings of its characters.

Main definitions:

* `Utf8.Ascii` — a text of bytes below 80.

Main results:

* `Utf8.pieceAt_encoding` — an encoding is read as the scalar it encodes;
* `Utf8.pieceAt_encode` — **every scalar reads back**;
* `Utf8.flatMap_bytes_pieces` — **the pieces of a text make up the text**;
* `Utf8.valid_of_ascii`, `Utf8.chars_of_valid` — ASCII has no stray bytes, and a text without stray
  bytes is made of characters;
* `Utf8.valid_append`, `Utf8.cut_of_valid` — whole characters may be taken off the front of such a
  text, and **a cut leaves whole characters and at most the beginning of one more**;
* `Utf8.valid_before` — a byte below 80 is such a place where no character is cut.
-/

set_option autoImplicit false

namespace ReplBridge.Utf8

variable {b : UInt8} {s : Bytes}

/-! ### One piece -/

theorem encode_injective {c d : Char} (h : encode c = encode d) : c = d := by
  have hc := ByteArray.utf8DecodeChar?_utf8EncodeChar_append (b := ByteArray.empty) (c := c)
  have hd := ByteArray.utf8DecodeChar?_utf8EncodeChar_append (b := ByteArray.empty) (c := d)
  have h : String.utf8EncodeChar c = String.utf8EncodeChar d := h
  rw [h, hd] at hc
  exact (Option.some.inj hc).symm

theorem val_ofNat {n : Nat} (h : n < 0xD800 ∨ 0xDFFF < n ∧ n < 0x110000) :
    (Char.ofNat n).val.toNat = n := by
  have hvalid : n.isValidChar := h
  rw [Char.ofNat, dif_pos hvalid]
  rfl

theorem eq_ofNat {n : Nat} (h : b.toNat = n) : UInt8.ofNat n = b := by
  subst h
  exact UInt8.ofNat_toNat

theorem encode_one (hb : b.toNat < 0x80) : encode (Char.ofNat b.toNat) = [b] := by
  have hval := val_ofNat (n := b.toNat) (by omega)
  unfold encode String.utf8EncodeChar
  dsimp only
  rw [hval, if_pos (by omega), eq_ofNat rfl]

theorem encode_two {b t : UInt8} (hb : 0xC2 ≤ b.toNat ∧ b.toNat ≤ 0xDF)
    (ht : isTail t = true) : encode (Char.ofNat (64 * (b.toNat % 32) + t.toNat % 64)) = [b, t] := by
  rw [isTail_iff] at ht
  have hval := val_ofNat (n := 64 * (b.toNat % 32) + t.toNat % 64) (by omega)
  unfold encode String.utf8EncodeChar
  dsimp only
  rw [hval, if_neg (by omega), if_pos (by omega), eq_ofNat (b := b) (by omega),
    eq_ofNat (b := t) (by omega)]

theorem encode_three {b t u : UInt8} (hb : 0xE0 ≤ b.toNat ∧ b.toNat ≤ 0xEF)
    (ht : isTail t = true) (hu : isTail u = true) (hshort : b.toNat = 0xE0 → 0xA0 ≤ t.toNat)
    (hsurrogate : b.toNat = 0xED → t.toNat ≤ 0x9F) :
    encode (Char.ofNat (64 * (64 * (b.toNat % 16) + t.toNat % 64) + u.toNat % 64)) = [b, t, u] := by
  rw [isTail_iff] at ht hu
  have hval := val_ofNat (n := 64 * (64 * (b.toNat % 16) + t.toNat % 64) + u.toNat % 64) (by omega)
  unfold encode String.utf8EncodeChar
  dsimp only
  rw [hval, if_neg (by omega), if_neg (by omega), if_pos (by omega), eq_ofNat (b := b) (by omega),
    eq_ofNat (b := t) (by omega), eq_ofNat (b := u) (by omega)]

theorem encode_four {b t u v : UInt8} (hb : 0xF0 ≤ b.toNat ∧ b.toNat ≤ 0xF4)
    (ht : isTail t = true) (hu : isTail u = true) (hv : isTail v = true)
    (hshort : b.toNat = 0xF0 → 0x90 ≤ t.toNat) (hlong : b.toNat = 0xF4 → t.toNat ≤ 0x8F) :
    encode (Char.ofNat
      (64 * (64 * (64 * (b.toNat % 8) + t.toNat % 64) + u.toNat % 64) + v.toNat % 64)) =
      [b, t, u, v] := by
  rw [isTail_iff] at ht hu hv
  have hval := val_ofNat
    (n := 64 * (64 * (64 * (b.toNat % 8) + t.toNat % 64) + u.toNat % 64) + v.toNat % 64) (by omega)
  unfold encode String.utf8EncodeChar
  dsimp only
  rw [hval, if_neg (by omega), if_neg (by omega), if_neg (by omega), eq_ofNat (b := b) (by omega),
    eq_ofNat (b := t) (by omega), eq_ofNat (b := u) (by omega), eq_ofNat (b := v) (by omega)]

/-- The four leading bytes that do not allow every continuation byte behind them. -/
theorem lead?_bounds {l : Lead} (h : lead? b = some l) :
    (b.toNat = 0xE0 → 0xA0 ≤ l.lo.toNat) ∧ (b.toNat = 0xED → l.hi.toNat ≤ 0x9F) ∧
      (b.toNat = 0xF0 → 0x90 ≤ l.lo.toNat) ∧ (b.toNat = 0xF4 → l.hi.toNat ≤ 0x8F) := by
  refine ⟨?_, ?_, ?_, ?_⟩ <;>
  · intro hb
    rw [← eq_ofNat hb] at h
    cases h
    decide

theorem not_lt_of_high (h : 0x80 ≤ b.toNat) : ¬ b < 0x80 := by
  rw [UInt8.lt_iff_toNat_lt]
  exact Nat.not_lt.2 h

/-- **An encoding is read as the scalar it encodes.** -/
theorem pieceAt_encoding {more : Bytes} (h : Encoding (b :: more)) (rest : Bytes) :
    ∃ c, pieceAt b (more ++ rest) = (.scalar c, more.length) ∧ encode c = b :: more := by
  cases h with
  | one hb => exact ⟨_, if_pos (UInt8.lt_iff_toNat_lt.2 hb), encode_one hb⟩
  | @two _ t l hlead hmore ht =>
      obtain ⟨hge, -, -, hkind⟩ := lead?_spec hlead
      have htail := isTail_of_second hlead ht
      have hhigh := not_lt_of_high (b := b) (by omega)
      refine ⟨_, ?_, encode_two (by omega) htail⟩
      obtain ⟨n, lo, hi⟩ := l
      obtain rfl : n = 1 := hmore
      unfold pieceAt
      simp only [hhigh, hlead, List.cons_append, htail, if_true, if_false]
      rfl
  | @three _ t u l hlead hmore ht hu =>
      obtain ⟨hge, -, -, hkind⟩ := lead?_spec hlead
      obtain ⟨hshort, hsurrogate, -, -⟩ := lead?_bounds hlead
      have htail := isTail_of_second hlead ht
      have hwithin := Bytes.within_iff.1 ht
      have hhigh := not_lt_of_high (b := b) (by omega)
      refine ⟨_, ?_, encode_three (by omega) htail hu (by omega) (by omega)⟩
      obtain ⟨n, lo, hi⟩ := l
      obtain rfl : n = 2 := hmore
      unfold pieceAt
      simp only [hhigh, hlead, List.cons_append, ht, hu, Bool.and_true, if_true, if_false]
      rfl
  | @four _ t u v l hlead hmore ht hu hv =>
      obtain ⟨hge, -, -, hkind⟩ := lead?_spec hlead
      obtain ⟨-, -, hshort, hlong⟩ := lead?_bounds hlead
      have htail := isTail_of_second hlead ht
      have hwithin := Bytes.within_iff.1 ht
      have hhigh := not_lt_of_high (b := b) (by omega)
      refine ⟨_, ?_, encode_four (by omega) htail hu hv (by omega) (by omega)⟩
      obtain ⟨n, lo, hi⟩ := l
      obtain rfl : n = 3 := hmore
      unfold pieceAt
      simp only [hhigh, hlead, List.cons_append, ht, hu, hv, Bool.and_true, if_true, if_false]
      rfl

/-- **Every scalar reads back**, whatever stands behind it. -/
theorem pieceAt_encode (c : Char) : ∃ b more, encode c = b :: more ∧
    ∀ rest, pieceAt b (more ++ rest) = (.scalar c, more.length) := by
  have h := encoding_encode c
  cases hbytes : encode c with
  | nil =>
      rw [hbytes] at h
      cases h
  | cons b more =>
      rw [hbytes] at h
      refine ⟨b, more, rfl, fun rest => ?_⟩
      obtain ⟨d, hpiece, hd⟩ := pieceAt_encoding h rest
      rw [hpiece, encode_injective (hd.trans hbytes.symm)]

/-- What is read at a place is an encoding, or else the byte is stray. -/
theorem pieceAt_cases (b : UInt8) (rest : Bytes) :
    pieceAt b rest = (.stray b, 0) ∨ ∃ more later, rest = more ++ later ∧ Encoding (b :: more) := by
  by_cases hlow : b.toNat < 0x80
  · exact .inr ⟨[], rest, rfl, .one hlow⟩
  unfold pieceAt
  rw [if_neg (not_lt_of_high (Nat.not_lt.1 hlow))]
  split
  · rename_i lo hi t later hlead
    split
    · rename_i ht
      obtain ⟨hge, -, -, hkind⟩ := lead?_spec hlead
      obtain ⟨l, hlead, hmore, hsecond⟩ := lead_two (b := b) (by simp_all) ht
      exact .inr ⟨[t], later, rfl, .two hlead hmore hsecond⟩
    · exact .inl rfl
  · rename_i lo hi t u later hlead
    split
    · rename_i ht
      rw [Bool.and_eq_true] at ht
      exact .inr ⟨[t, u], later, rfl, .three hlead rfl ht.1 ht.2⟩
    · exact .inl rfl
  · rename_i lo hi t u v later hlead
    split
    · rename_i ht
      rw [Bool.and_eq_true, Bool.and_eq_true] at ht
      exact .inr ⟨[t, u, v], later, rfl, .four hlead rfl ht.1.1 ht.1.2 ht.2⟩
    · exact .inl rfl
  · exact .inl rfl

/-! ### All pieces -/

theorem pieces_go (acc : List Piece) (skip : Nat) (s : Bytes) :
    pieces.go acc skip s = acc.reverse ++ pieces (s.drop skip) := by
  -- The list of pieces grows by one, and the bytes of a piece are skipped one by one.
  induction s generalizing acc skip with
  | nil => cases skip <;> simp [pieces, pieces.go]
  | cons b rest ih =>
      cases skip with
      | succ skip => simpa [pieces.go] using ih acc skip
      | zero =>
          simp only [pieces, pieces.go, List.drop_zero]
          rw [ih, ih [_]]
          simp

/-- The first piece of a text, and those behind it. -/
theorem pieces_cons (b : UInt8) (rest : Bytes) :
    pieces (b :: rest) = (pieceAt b rest).1 :: pieces (rest.drop (pieceAt b rest).2) := by
  simp only [pieces, pieces.go]
  rw [pieces_go]
  rfl

/-- What is read at a place are the bytes that stand there. -/
theorem bytes_pieceAt (b : UInt8) (rest : Bytes) :
    (pieceAt b rest).1.bytes ++ rest.drop (pieceAt b rest).2 = b :: rest := by
  rcases pieceAt_cases b rest with hstray | ⟨more, later, rfl, hencoding⟩
  · rw [hstray]
    rfl
  · obtain ⟨c, hpiece, hbytes⟩ := pieceAt_encoding hencoding later
    rw [hpiece]
    simp [Piece.bytes, hbytes]

/-- **The pieces of a text make up the text.** -/
theorem flatMap_bytes_pieces (s : Bytes) : (pieces s).flatMap Piece.bytes = s := by
  -- A piece has one byte or more, so what stands behind it is shorter.
  induction hlen : s.length using Nat.strongRecOn generalizing s with
  | ind n ih =>
    cases s with
    | nil => rfl
    | cons b rest =>
        have hshorter : (rest.drop (pieceAt b rest).2).length < n := by
          rw [List.length_drop, ← hlen, List.length_cons]
          omega
        rw [pieces_cons, List.flatMap_cons, ih _ hshorter _ rfl, bytes_pieceAt]

/-- A text of bytes below 80. -/
def Ascii (s : Bytes) : Prop := ∀ b ∈ s, b < 0x80

instance (s : Bytes) : Decidable (Ascii s) := inferInstanceAs (Decidable (∀ b ∈ s, _))

@[simp] theorem ascii_cons : Ascii (b :: s) ↔ b < 0x80 ∧ Ascii s :=
  List.forall_mem_cons

@[simp] theorem ascii_append {s t : Bytes} : Ascii (s ++ t) ↔ Ascii s ∧ Ascii t :=
  List.forall_mem_append

theorem valid_of_ascii (h : Ascii s) : valid s = true := by
  induction s with
  | nil => rfl
  | cons b rest ih =>
      obtain ⟨hb, hrest⟩ := ascii_cons.1 h
      have hpiece : pieceAt b rest = (.scalar (Char.ofNat b.toNat), 0) := if_pos hb
      rw [valid, pieces_cons, hpiece]
      exact ih hrest

/-- **A text without stray bytes is made of characters.** -/
theorem chars_of_valid (h : valid s = true) : ∃ cs, pieces s = cs.map .scalar ∧ s = ofChars cs := by
  have hscalar : ∀ p ∈ pieces s, p = .scalar p.char := by
    intro p hp
    have hvalid := List.all_eq_true.1 h p hp
    cases p with
    | scalar c => rfl
    | stray b => cases hvalid
  have hpieces : pieces s = ((pieces s).map Piece.char).map .scalar := by
    rw [List.map_map]
    exact (List.map_id _).symm.trans (List.map_congr_left hscalar)
  refine ⟨(pieces s).map Piece.char, hpieces, ?_⟩
  have hbytes := flatMap_bytes_pieces s
  rw [hpieces, List.flatMap_map] at hbytes
  exact hbytes.symm

/-! ### Cutting a text without stray bytes -/

/-- The characters in front of a text are read first. -/
theorem pieces_ofChars_append (cs : List Char) (s : Bytes) :
    pieces (ofChars cs ++ s) = cs.map .scalar ++ pieces s := by
  induction cs with
  | nil => rfl
  | cons c cs ih =>
      obtain ⟨b, more, hbytes, hpiece⟩ := pieceAt_encode c
      have hfront : ofChars (c :: cs) ++ s = b :: (more ++ (ofChars cs ++ s)) := by
        simp [ofChars, hbytes]
      rw [hfront, pieces_cons, hpiece]
      simp [ih]

theorem valid_ofChars_append (cs : List Char) (s : Bytes) : valid (ofChars cs ++ s) = valid s := by
  simp [valid, pieces_ofChars_append]

/-- Whole characters may be taken off the front of a text. -/
theorem valid_append (h : valid s = true) (t : Bytes) : valid (s ++ t) = valid t := by
  obtain ⟨cs, -, rfl⟩ := chars_of_valid h
  exact valid_ofChars_append cs t

theorem valid_encode_append (c : Char) (s : Bytes) : valid (encode c ++ s) = valid s := by
  simpa [ofChars] using valid_ofChars_append [c] s

/-- **A cut leaves whole characters and at most the beginning of one more**, which goes on behind
the cut. -/
theorem cut_of_valid {s t : Bytes} (h : valid (s ++ t) = true) :
    ∃ whole f, s = whole ++ f ∧ valid whole = true ∧
      (f = [] ∨ ∃ c, f <+: encode c ∧ f ≠ encode c ∧ encode c <+: f ++ t) := by
  obtain ⟨cs, -, hcs⟩ := chars_of_valid h
  clear h
  induction cs generalizing s with
  | nil =>
      obtain ⟨rfl, -⟩ := List.append_eq_nil_iff.1 hcs
      exact ⟨[], [], rfl, rfl, .inl rfl⟩
  | cons c cs ih =>
      have hfirst : s ++ t = encode c ++ ofChars cs := hcs
      rcases List.append_eq_append_iff.1 hfirst with ⟨g, hg, rfl⟩ | ⟨s, rfl, hrest⟩
      · -- The cut is inside the first character, or right behind it.
        by_cases hne : s = encode c
        · refine ⟨s, [], (List.append_nil s).symm, ?_, .inl rfl⟩
          rw [hne, ← List.append_nil (encode c), valid_encode_append]
          rfl
        · refine ⟨[], s, rfl, rfl, .inr ⟨c, ⟨g, hg.symm⟩, hne, ?_⟩⟩
          rw [← List.append_assoc, ← hg]
          exact List.prefix_append _ _
      · obtain ⟨whole, f, rfl, hwhole, hf⟩ := ih hrest.symm
        refine ⟨encode c ++ whole, f, (List.append_assoc _ _ _).symm, ?_, hf⟩
        rw [valid_encode_append, hwhole]

/-- **A byte below 80 cuts no character.** -/
theorem valid_before (hb : b.toNat < 0x80) {s t : Bytes} (h : valid (s ++ b :: t) = true) :
    valid s = true := by
  obtain ⟨whole, f, rfl, hwhole, rfl | ⟨c, ⟨g, hg⟩, hne, hc⟩⟩ := cut_of_valid h
  · rwa [List.append_nil]
  · -- Else the byte would belong to the character that is cut, and it stands alone.
    rw [← hg, List.prefix_append_right_inj] at hc
    rcases List.prefix_cons_iff.1 hc with rfl | ⟨g, rfl, -⟩
    · exact absurd (by simpa using hg) hne
    · have hone := (encoding_encode c).eq_singleton (by simp [← hg]) hb
      have hf : f = [] := by
        rw [← hg] at hone
        have := congrArg List.length hone
        simp only [List.length_append, List.length_cons, List.length_nil] at this
        exact List.length_eq_zero_iff.1 (by omega)
      rwa [hf, List.append_nil]

end ReplBridge.Utf8
