import ReplBridge.Proofs.Terminal.Stream
import ReplBridge.Proofs.Text.Pieces

/-!
**A sanitizer holds little back, and lets no escape byte through.**

A terminal copies the bytes behind a leading byte without looking at them, as many as the leading
byte announces.  An escape byte among them would be shown.  In a text without stray bytes there is
none: a terminal that expects no more bytes of an encoding before a character expects none after
it, whatever escape sequence it is in.  So stripping such a text shows no escape byte, and it
remains to see that what a sanitizer has stripped at a time is such a text.

It is, since no cut is made inside a character.  What waits begins with an escape byte, or with the
character that is not yet whole.  The escape sequences need not be well formed, and need not end.

What waits is never much.  An escape sequence that is longer than `maxHeld` is not waited for, and
an encoding that has not ended has at most three bytes.

Main definitions:

* `Terminal.State.owed` — how many bytes of an encoding a terminal still expects.

Main results:

* `Terminal.length_held_le` — what waits is short;
* `Terminal.valid_ready` — **no cut is made inside a character**;
* `Terminal.owed_run_encoding` — a terminal reads an encoding to its end;
* `Terminal.esc_not_mem_strip` — **no escape byte is shown of a text without stray bytes**;
* `Terminal.Sanitizer.exists_parts` — what a sanitizer shows are the parts of the stream, stripped;
* `Terminal.Sanitizer.neither_leaks_nor_hoards` — **for every stream and however it is cut**.
-/

set_option autoImplicit false

namespace ReplBridge.Terminal

variable {q : State}

/-! ### How much waits -/

/-- An encoding that has not ended has at most three bytes. -/
theorem openScalar_le (back : Bytes) : openScalar back ≤ 3 := by
  unfold openScalar
  split
  · omega
  split
  · split <;> omega
  split
  · omega
  split
  · split <;> omega
  split
  · omega
  split
  · split <;> omega
  · omega

/-- An escape sequence that is waited for is not too long. -/
theorem length_openEscape_le (s : Bytes) : (beforeOpenEscape s).2.length ≤ maxHeld := by
  rcases beforeOpenEscape_cases s with ⟨-, heq⟩ | ⟨before, body, -, -, ⟨-, heq⟩ | ⟨hopen, heq⟩⟩
  · simp [heq]
  · simp [heq]
  · have hshort := (not_or.1 hopen).1
    rw [heq, List.length_cons]
    omega

/-- What waits is an escape sequence, and an encoding before it. -/
theorem length_held_le (s : Bytes) : (ready s).2.length ≤ 3 + (beforeOpenEscape s).2.length := by
  have hscalar := openScalar_le (beforeOpenEscape s).1.reverse
  simp only [ready, List.length_append, List.length_reverse, List.length_take]
  omega

/-! ### Where a text without stray bytes is divided -/

/-- Nothing waits after whole characters. -/
theorem openScalar_of_valid {s : Bytes} (h : Utf8.valid s = true) : openScalar s.reverse = 0 := by
  obtain ⟨cs, -, rfl⟩ := Utf8.chars_of_valid h
  rcases List.eq_nil_or_concat cs with rfl | ⟨cs, c, rfl⟩
  · rfl
  · have hlast : Utf8.ofChars (cs.concat c) = Utf8.ofChars cs ++ Utf8.encode c := by
      simp [Utf8.ofChars]
    rw [hlast, List.reverse_append]
    exact openScalar_encoding (Utf8.encoding_encode c) _

/-- **No cut is made inside a character**: what can be stripped now of the beginning of a text
without stray bytes is a text without stray bytes. -/
theorem valid_ready {s rest : Bytes} (h : Utf8.valid (s ++ rest) = true) :
    Utf8.valid (ready s).1 = true := by
  have huncut (heq : beforeOpenEscape s = (s, [])) : Utf8.valid (ready s).1 = true := by
    -- No escape sequence is waited for, so only the character that is cut.
    obtain ⟨whole, f, rfl, hwhole, hf⟩ := Utf8.cut_of_valid h
    have hopen : openScalar (whole ++ f).reverse = f.length := by
      have hnone := openScalar_of_valid hwhole
      rw [List.reverse_append]
      rcases hf with rfl | ⟨c, hf, hne, -⟩
      · exact hnone
      · exact openScalar_unfinished (Utf8.encoding_encode c) hf hne hnone
    have hready : (ready (whole ++ f)).1 = whole := by
      simp only [ready, heq, hopen]
      simp
    rwa [hready]
  rcases beforeOpenEscape_cases s with
    ⟨-, heq⟩ | ⟨before, body, rfl, -, ⟨-, heq⟩ | ⟨-, heq⟩⟩
  · exact huncut heq
  · exact huncut heq
  · -- The cut is before an escape byte, where a character has ended.
    rw [List.append_assoc, List.cons_append] at h
    have hbefore := Utf8.valid_before (by decide) h
    have hready : (ready (before ++ esc :: body)).1 = before := by
      simp [ready, heq, openScalar_of_valid hbefore]
    rwa [hready]

/-! ### The bytes that a terminal still expects -/

/-- How many bytes of an encoding are still to come. -/
def State.owed : State → Nat
  | .scalar n => n + 1
  | _ => 0

/-- A state's own rules for a byte begin no encoding. -/
theorem step_own_or_anywhere (hq : q.owed = 0) (b : UInt8) :
    (step q b).1.owed = 0 ∨ step q b = anywhere b := by
  cases q with
  | scalar n => cases hq
  | _ =>
      simp only [step, afterEscape]
      repeat' split
      all_goals simp [State.owed]

theorem owed_anywhere : ∀ b : UInt8,
    (anywhere b).1.owed = 0 ∨ (anywhere b).1.owed = Utf8.announced b :=
  Bytes.forall_byte (by decide +kernel)

/-- Outside every encoding, a terminal expects as many bytes as were announced, or none. -/
theorem owed_step (hq : q.owed = 0) (b : UInt8) :
    (step q b).1.owed = 0 ∨ (step q b).1.owed = Utf8.announced b := by
  rcases step_own_or_anywhere hq b with hnone | heq
  · exact .inl hnone
  · rw [heq]
    exact owed_anywhere b

theorem owed_step_inside (hq : q.owed ≠ 0) (b : UInt8) : (step q b).1.owed = q.owed - 1 := by
  match q with
  | .scalar 0 => rfl
  | .scalar (n + 1) => rfl

theorem run_cons_snd (q : State) (b : UInt8) (s : Bytes) :
    (run [] q (b :: s)).2 = (run [] (step q b).1 s).2 := by
  simp only [run]
  split
  · rename_i q' hstep
    rw [run_kept]
    simp [hstep]
  · rename_i q' hstep
    simp [hstep]

/-- Every continuation byte is one less to come. -/
theorem owed_run_tails (q : State) {ts : Bytes} (h : ∀ t ∈ ts, Utf8.isTail t = true) :
    (run [] q ts).2.owed = q.owed - ts.length := by
  induction ts generalizing q with
  | nil => rfl
  | cons t ts ih =>
      rw [run_cons_snd, ih _ fun u hu => h u (by simp [hu]), List.length_cons]
      by_cases hq : q.owed = 0
      · have ht := Utf8.announced_of_tail (h t (by simp))
        rcases owed_step hq t with hstep | hstep <;> omega
      · have hstep := owed_step_inside hq t
        omega

/-- **A terminal reads an encoding to its end**, in whichever sequence it stands. -/
theorem owed_run_encoding (hq : q.owed = 0) {s : Bytes} (h : Utf8.Encoding s) :
    (run [] q s).2.owed = 0 := by
  cases s with
  | nil => exact hq
  | cons b ts =>
      have hlength := Utf8.announced_of_encoding h
      rw [run_cons_snd, owed_run_tails _ h.isTail_of_mem]
      rcases owed_step hq b with hstep | hstep <;> omega

/-! ### What is shown of a text without stray bytes -/

theorem run_subset (q : State) (s : Bytes) : (run [] q s).1 ⊆ s := by
  induction s generalizing q with
  | nil => exact List.Subset.refl []
  | cons b s ih =>
      simp only [run]
      split
      · rename_i q' hstep
        rw [run_kept]
        exact List.cons_subset_cons b (ih q')
      · rename_i q' hstep
        exact List.subset_cons_of_subset b (ih q')

/-- Only inside an encoding is an escape byte shown. -/
theorem step_esc (hq : q.owed = 0) : (step q esc).2 = false := by
  cases q with
  | scalar n => cases hq
  | _ => decide

theorem esc_not_mem_run_encode (hq : q.owed = 0) (c : Char) :
    esc ∉ (run [] q (Utf8.encode c)).1 := by
  by_cases hesc : esc ∈ Utf8.encode c
  · have hone := (Utf8.encoding_encode c).eq_singleton hesc (by decide)
    have hstep := step_esc hq
    rw [hone]
    simp only [run]
    split
    · rename_i q' hkept
      rw [hkept] at hstep
      cases hstep
    · simp
  · exact fun hmem => hesc (run_subset q _ hmem)

/-- The terminal never expects a byte between two characters. -/
theorem esc_not_mem_run (hq : q.owed = 0) (cs : List Char) :
    esc ∉ (run [] q (Utf8.ofChars cs)).1 := by
  induction cs generalizing q with
  | nil => simp [Utf8.ofChars, run]
  | cons c cs ih =>
      have hsplit : Utf8.ofChars (c :: cs) = Utf8.encode c ++ Utf8.ofChars cs := rfl
      rw [hsplit, run_append, List.mem_append, not_or]
      exact ⟨esc_not_mem_run_encode hq c, ih (owed_run_encoding hq (Utf8.encoding_encode c))⟩

/-- **No escape byte is shown of a text without stray bytes**, whatever its escape sequences. -/
theorem esc_not_mem_strip {s : Bytes} (h : Utf8.valid s = true) : esc ∉ strip s := by
  obtain ⟨cs, -, rfl⟩ := Utf8.chars_of_valid h
  exact esc_not_mem_run rfl cs

/-! ### Chunk by chunk -/

namespace Sanitizer

/-- **What is shown are the parts of the stream, stripped.**  If the stream goes on to be a text
without stray bytes, every part is one. -/
theorem exists_parts (chunks : List Bytes) :
    ∃ parts : List Bytes, (writeAll {} chunks).2 = parts.map strip ∧
      parts.flatten = (ready chunks.flatten).1 ∧
      ∀ rest, Utf8.valid (chunks.flatten ++ rest) = true →
        ∀ part ∈ parts, Utf8.valid part = true := by
  induction chunks using List.reverseRecOn with
  | nil => exact ⟨[], rfl, rfl, by simp⟩
  | append_singleton chunks chunk ih =>
      obtain ⟨parts, hshown, hparts, hvalid⟩ := ih
      have hready := ready_append chunks.flatten chunk
      rw [← held_writeAll] at hready
      rw [writeAll_concat, List.flatten_append, List.flatten_singleton, hready]
      refine ⟨parts ++ [(ready ((writeAll {} chunks).1.held ++ chunk)).1], ?_, ?_, ?_⟩
      · rw [hshown, List.map_append]
        rfl
      · rw [List.flatten_append, hparts, List.flatten_singleton]
      · intro rest hrest part hpart
        have hbefore : Utf8.valid (chunks.flatten ++ (chunk ++ rest)) = true := by
          rwa [← List.append_assoc]
        rcases List.mem_append.1 hpart with hpart | hpart
        · exact hvalid _ hbefore part hpart
        · -- What had been stripped before is taken off the front of what has been stripped now.
          have hnow := valid_ready hrest
          rw [hready, Utf8.valid_append (valid_ready hbefore)] at hnow
          rwa [List.mem_singleton.1 hpart]

/-- **A sanitizer neither leaks escape bytes nor hoards output**, for every stream and however it
is cut into chunks.  All of the stream but what waits has been stripped and shown; after every
chunk, at most 4099 bytes wait, and at most 3 if no escape byte has come; and if the stream has no
stray bytes, neither what a chunk shows nor what the flush at the end shows holds an escape byte. -/
theorem neither_leaks_nor_hoards (chunks : List Bytes) :
    (∃ parts : List Bytes, (writeAll {} chunks).2 = parts.map strip ∧
      parts.flatten ++ (writeAll {} chunks).1.held = chunks.flatten) ∧
    (∀ k, (writeAll {} (chunks.take k)).1.held.length ≤ 4099 ∧
      (esc ∉ (chunks.take k).flatten → (writeAll {} (chunks.take k)).1.held.length ≤ 3)) ∧
    (Utf8.valid chunks.flatten = true →
      (∀ text ∈ (writeAll {} chunks).2, esc ∉ text) ∧ esc ∉ (writeAll {} chunks).1.flush) := by
  obtain ⟨parts, hshown, hparts, hvalid⟩ := exists_parts chunks
  have hjoin := ready_join chunks.flatten
  refine ⟨⟨parts, hshown, ?_⟩, ?_, ?_⟩
  · rw [hparts, held_writeAll, hjoin]
  · intro k
    rw [held_writeAll]
    have hheld := length_held_le (chunks.take k).flatten
    refine ⟨?_, fun hfree => ?_⟩
    · have hescape := length_openEscape_le (chunks.take k).flatten
      unfold maxHeld at hescape
      omega
    · simpa [beforeOpenEscape_of_free hfree] using hheld
  · intro h
    have hrest : Utf8.valid (chunks.flatten ++ []) = true := by rwa [List.append_nil]
    refine ⟨?_, ?_⟩
    · intro text htext
      rw [hshown] at htext
      obtain ⟨part, hpart, rfl⟩ := List.mem_map.1 htext
      exact esc_not_mem_strip (hvalid [] hrest part hpart)
    · rw [flush, held_writeAll]
      rw [← hjoin, Utf8.valid_append (valid_ready hrest)] at h
      exact esc_not_mem_strip h

/-- It happens: two characters that are cut, a title that never ends, a control sequence that another
escape byte breaks off, and a lone escape byte at the end. -/
theorem neither_leaks_nor_hoards_unterminated :
    let chunks : List Bytes := [[0xC3], [0xA9, 0x1B, 0x5D, 0x41, 0xE2, 0x82],
      [0xAC, 0x1B, 0x5B, 0x1B, 0x4D, 0x62], [0x1B, 0x50, 0x1B]]
    Utf8.valid chunks.flatten = true ∧
      (writeAll {} (chunks.take 1)).1.held.length ≤ 3 ∧
      (writeAll {} (chunks.take 2)).1.held = [0x1B, 0x5D, 0x41, 0xE2, 0x82] ∧
      (writeAll {} chunks).2 = [[], [0xC3, 0xA9], [0x62], []] ∧
      (writeAll {} chunks).1.held = [0x1B] ∧
      (∀ text ∈ (writeAll {} chunks).2, esc ∉ text) ∧ esc ∉ (writeAll {} chunks).1.flush := by
  intro chunks
  have hvalid : Utf8.valid chunks.flatten = true := by decide
  obtain ⟨-, hheld, hclean⟩ := neither_leaks_nor_hoards chunks
  exact ⟨hvalid, (hheld 1).2 (by decide), by decide, by decide, by decide, hclean hvalid⟩

end Sanitizer

end ReplBridge.Terminal
