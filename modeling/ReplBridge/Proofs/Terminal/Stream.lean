import ReplBridge.Proofs.Terminal.Sequence

/-!
**A sanitizer shows every scalar as soon as it is whole, and nothing else.**

Let a stream of scalars and well-formed escape sequences be cut into chunks in any way, inside a
sequence or inside an encoding too.  Each chunk is stripped by a terminal that begins anew, so the
cut has to be invisible: whatever the sanitizer lets go of must leave the terminal where the next
part can be read from the beginning.

Two facts make it so.  What is let go of is the whole items that have come, and at most the string
before a terminator of which only the escape byte has come.  And after such a string the next part
begins with that escape byte, which a terminal reads alike inside the string and outside.

Main definitions:

* `Terminal.Item` — a scalar, or a well-formed escape sequence that is short enough to wait for;
* `Terminal.shown` — the scalars among the items that are whole within a number of bytes;
* `Terminal.Sanitizer.writeAll` — several chunks, one after another;
* `Terminal.Divided` — what is shown of a text, when the next part can be read anew.

Main results:

* `Terminal.divided_items` — where a stream of items is divided;
* `Terminal.Divided.write` — one more chunk;
* `Terminal.Sanitizer.writeAll_eq_shown` — **what is shown after each chunk is the scalars that are
  whole by then, and at the end nothing is left**.
-/

set_option autoImplicit false

namespace ReplBridge.Terminal

/-! ### Items -/

/-- **What a stream is made of**: scalars, and well-formed escape sequences that are waited for. -/
inductive Item where
  | scalar (c : Char) (hc : c ≠ '\x1b')
  | sequence (s : Bytes) (hs : Sequence s) (hshort : s.length ≤ maxHeld)

namespace Item

def bytes : Item → Bytes
  | .scalar c _ => Utf8.encode c
  | .sequence s _ _ => s

/-- What is to be shown of an item. -/
def text : Item → Bytes
  | .scalar c _ => Utf8.encode c
  | .sequence _ _ _ => []

end Item

/-- **The scalars among the items that are whole** within the first `n` bytes. -/
def shown : Nat → List Item → Bytes
  | _, [] => []
  | n, i :: items =>
    if i.bytes.length ≤ n then i.text ++ shown (n - i.bytes.length) items else []

/-! ### Scalars -/

theorem esc_not_mem_encode {c : Char} (hc : c ≠ '\x1b') : esc ∉ Utf8.encode c := by
  intro hmem
  have hval : c.toNat = 27 := Utf8.eq_of_mem_encode hmem (by decide)
  exact hc (Char.toNat_inj.1 hval)

theorem step_ground_ascii : ∀ b : UInt8, b.toNat < 0x80 → b ≠ esc →
    step .ground b = (.ground, true) :=
  Bytes.forall_byte (by decide +kernel)

theorem step_ground_lead : ∀ b : UInt8,
    (0xC2 ≤ b.toNat ∧ b.toNat ≤ 0xDF → step .ground b = (.scalar 0, true)) ∧
      (0xE0 ≤ b.toNat ∧ b.toNat ≤ 0xEF → step .ground b = (.scalar 1, true)) ∧
      (0xF0 ≤ b.toNat ∧ b.toNat ≤ 0xF4 → step .ground b = (.scalar 2, true)) :=
  Bytes.forall_byte (by decide +kernel)

theorem step_scalar_last (b : UInt8) : step (.scalar 0) b = (.ground, true) := rfl

theorem step_scalar_more (n : Nat) (b : UInt8) : step (.scalar (n + 1)) b = (.scalar n, true) := rfl

theorem run_encoding {s : Bytes} (h : Utf8.Encoding s) (hesc : esc ∉ s) :
    run [] .ground s = (s, .ground) := by
  cases h with
  | one hb =>
      have hne := List.ne_of_not_mem_cons hesc
      simp [run, step_ground_ascii _ hb hne.symm]
  | @two b t l hlead hmore ht =>
      obtain ⟨hlow, -, -, hbounds⟩ := Utf8.lead?_spec hlead
      have hfirst := (step_ground_lead b).1 (by omega)
      simp [run, hfirst, step_scalar_last]
  | @three b t u l hlead hmore ht hu =>
      obtain ⟨-, -, -, hbounds⟩ := Utf8.lead?_spec hlead
      have hfirst := (step_ground_lead b).2.1 (by omega)
      simp [run, hfirst, step_scalar_more 0, step_scalar_last]
  | @four b t u v l hlead hmore ht hu hv =>
      obtain ⟨-, -, -, hbounds⟩ := Utf8.lead?_spec hlead
      have hfirst := (step_ground_lead b).2.2 (by omega)
      simp [run, hfirst, step_scalar_more 1, step_scalar_more 0, step_scalar_last]

theorem openScalar_ascii {b : UInt8} (hb : b.toNat < 0x80) (back : Bytes) :
    openScalar (b :: back) = 0 := by
  have htail : Utf8.isTail b = false := by
    rw [Bool.eq_false_iff, ne_eq, Utf8.isTail_iff]
    omega
  simp [openScalar, htail, Utf8.incomplete, Utf8.lead?_of_ascii hb]

/-- Nothing waits after a whole encoding. -/
theorem openScalar_encoding {s : Bytes} (h : Utf8.Encoding s) (back : Bytes) :
    openScalar (s.reverse ++ back) = 0 := by
  cases h with
  | one hb => exact openScalar_ascii hb back
  | two hlead hmore ht =>
      have htail := Utf8.isTail_of_second hlead ht
      simp [openScalar, htail, Utf8.not_isTail_of_lead hlead, Utf8.incomplete, hlead, hmore]
  | three hlead hmore ht hu =>
      have htail := Utf8.isTail_of_second hlead ht
      simp [openScalar, htail, hu, Utf8.not_isTail_of_lead hlead, Utf8.incomplete, hlead, hmore]
  | four hlead hmore ht hu hv =>
      have htail := Utf8.isTail_of_second hlead ht
      simp [openScalar, htail, hu, hv]

/-- An encoding that is not yet whole waits. -/
theorem openScalar_unfinished {s f : Bytes} (h : Utf8.Encoding s) (hf : f <+: s) (hne : f ≠ s)
    {back : Bytes} (hback : openScalar back = 0) : openScalar (f.reverse ++ back) = f.length := by
  rcases h.unfinished hf hne with rfl | ⟨b, ts, rfl, hb, hts, hopen⟩
  · simpa using hback
  · rw [List.reverse_cons, List.append_assoc, List.singleton_append,
      openScalar_of_incomplete hb (fun t ht => hts t (List.mem_reverse.1 ht)) (by simpa using hopen)]
    simp

/-! ### Texts after which nothing waits -/

/-- **A text after which nothing waits**, and what is shown of it. -/
structure Closed (w text : Bytes) : Prop where
  /-- Every escape sequence is whole, whatever comes next. -/
  shut : ∀ v, esc ∉ v → beforeOpenEscape (w ++ v) = (w ++ v, [])
  /-- Every encoding is whole. -/
  whole : openScalar w.reverse = 0
  /-- The terminal is outside every sequence. -/
  reads : run [] .ground w = (text, .ground)

theorem ready_of_closed {w text : Bytes} (h : Closed w text) : ready w = (w, []) := by
  have hshut := h.shut [] (by simp)
  rw [List.append_nil] at hshut
  simp [ready, hshut, h.whole]

theorem openScalar_of_ascii (w : Bytes) {s : Bytes} (hne : s ≠ []) (h : ∀ b ∈ s, b.toNat < 0x80) :
    openScalar (w ++ s).reverse = 0 := by
  obtain ⟨front, b, rfl⟩ := (List.eq_nil_or_concat s).resolve_left hne
  rw [List.concat_eq_append, ← List.append_assoc, List.reverse_append, List.reverse_singleton,
    List.singleton_append]
  exact openScalar_ascii (h b (by simp)) _

theorem Opener.drops_terminated {core : Bytes} {q : State} (h : Opener core q) :
    Drops .ground (esc :: core ++ [esc, 0x5C]) .ground :=
  h.drops.append (.cons h.ends (.cons step_escape_backslash (.nil _)))

/-- A well-formed sequence leaves nothing to wait for. -/
theorem Closed.append_sequence {w text s : Bytes} (h : Closed w text) (hs : Sequence s) :
    Closed (w ++ s) text := by
  have hrun (hdrops : Drops .ground s .ground) : run [] .ground (w ++ s) = (text, .ground) := by
    unfold Drops at hdrops
    rw [run_append, h.reads, hdrops]
    simp
  rcases hs.shape with ⟨core, rfl, hplain⟩ | ⟨core, q, rfl, hopener⟩
  · refine ⟨?_, ?_, hrun hplain.drops⟩
    · intro v hv
      have hpast : Past (core ++ v) := .inr (escapeComplete_append hplain.whole v)
      simpa using beforeOpenEscape_of_past w (by simp [hplain.free, hv]) hpast
    · exact openScalar_of_ascii w (by simp) (by simpa [esc] using hplain.ascii)
  · refine ⟨?_, ?_, hrun hopener.drops_terminated⟩
    · intro v hv
      have hpast : Past (0x5C :: v) := .inr (escapeComplete_append (s := [0x5C]) (by decide) v)
      have hfree : esc ∉ 0x5C :: v := List.not_mem_cons_of_ne_of_not_mem (by decide) hv
      simpa using beforeOpenEscape_of_past (w ++ esc :: core) hfree hpast
    · rw [← List.append_assoc]
      exact openScalar_of_ascii _ (by simp) (by decide +kernel)

theorem Closed.append {w text : Bytes} (h : Closed w text) (i : Item) :
    Closed (w ++ i.bytes) (text ++ i.text) := by
  cases i with
  | scalar c hc =>
      have hencoding := Utf8.encoding_encode c
      have hesc := esc_not_mem_encode hc
      refine ⟨?_, ?_, ?_⟩
      · intro v hv
        rw [List.append_assoc]
        exact h.shut _ (by simp [Item.bytes, hesc, hv])
      · rw [List.reverse_append]
        exact openScalar_encoding hencoding _
      · rw [run_append, h.reads]
        simp [Item.bytes, Item.text, run_encoding hencoding hesc]
  | sequence s hs hshort => simpa [Item.bytes, Item.text] using h.append_sequence hs

theorem closed_nil : Closed [] [] :=
  ⟨fun _ hv => beforeOpenEscape_of_free hv, rfl, rfl⟩

theorem closed_items (items : List Item) :
    Closed (items.flatMap Item.bytes) (items.flatMap Item.text) := by
  induction items using List.reverseRecOn with
  | nil => exact closed_nil
  | append_singleton items i ih => simpa using ih.append i

/-! ### Where a stream is divided -/

/-- **What is shown of a text so far**, when the next part can be read anew: the terminal is outside
every sequence, or the next part begins with an escape byte that ends the string it is in. -/
def Divided (p text : Bytes) : Prop :=
  ∃ q, run [] .ground (ready p).1 = (text, q) ∧
    (q = .ground ∨ (ready p).2 = [esc] ∧ step q esc = (.escape, false))

theorem Closed.divided {w text : Bytes} (h : Closed w text) : Divided w text :=
  ⟨.ground, by rw [ready_of_closed h]; exact h.reads, .inl rfl⟩

theorem divided_of_held {w text held p : Bytes} (h : Closed w text) (hready : ready p = (w, held)) :
    Divided p text :=
  ⟨.ground, by rw [hready]; exact h.reads, .inl rfl⟩

theorem ready_encoding {w text s f : Bytes} (h : Closed w text) (hs : Utf8.Encoding s)
    (hesc : esc ∉ s) (hf : f <+: s) (hne : f ≠ s) : ready (w ++ f) = (w, f) := by
  have hshut := h.shut f fun hmem => hesc (hf.subset hmem)
  have hopen := openScalar_unfinished hs hf hne h.whole
  rw [← List.reverse_append] at hopen
  simp only [ready, hshut, hopen]
  simp

/-- The beginning of an escape sequence waits. -/
theorem ready_escape {w g : Bytes} (hw : openScalar w.reverse = 0) (hesc : esc ∉ g)
    (hshort : g.length + 1 ≤ maxHeld) (hopen : escapeComplete g = false) :
    ready (w ++ esc :: g) = (w, esc :: g) := by
  have hnot : ¬ Past g := by
    rintro (hlong | hwhole)
    · omega
    · rw [hopen] at hwhole
      cases hwhole
  simp [ready, beforeOpenEscape_of_open w hesc hnot, hw]

/-- **An item that is not yet whole shows nothing.** -/
theorem divided_unfinished {w text f : Bytes} (h : Closed w text) (i : Item) (hf : f <+: i.bytes)
    (hne : f ≠ i.bytes) : Divided (w ++ f) text := by
  cases i with
  | scalar c hc =>
      exact divided_of_held h
        (ready_encoding h (Utf8.encoding_encode c) (esc_not_mem_encode hc) hf hne)
  | sequence s hs hshort =>
      have hlen := hf.length_le
      simp only [Item.bytes] at hf hne hlen
      rcases hs.shape with ⟨core, rfl, hplain⟩ | ⟨core, q, rfl, hopener⟩
      · rcases List.prefix_cons_iff.1 hf with rfl | ⟨g, rfl, hg⟩
        · simpa using h.divided
        · have hproper : g ≠ core := fun heq => hne (by rw [heq])
          rw [List.length_cons] at hlen
          exact divided_of_held h (ready_escape h.whole (fun hmem => hplain.free (hg.subset hmem))
            (by omega) (hplain.unfinished g hg hproper))
      · have hsplit : esc :: core ++ [esc, 0x5C] = (esc :: core ++ [esc]) ++ [0x5C] := by simp
        rw [hsplit] at hf hne
        rcases List.prefix_concat_iff.1 hf with rfl | hf
        · exact absurd rfl hne
        rcases List.prefix_concat_iff.1 hf with rfl | hf
        · -- Only the escape byte of the terminator has come: the string is let go of.
          have hready : ready (w ++ (esc :: core ++ [esc])) = (w ++ esc :: core, [esc]) := by
            have hlast := openScalar_of_ascii w (s := esc :: core) (by simp)
              (by simpa [esc] using hopener.ascii)
            simpa using ready_escape (g := []) hlast (by simp) (by decide) rfl
          have hdrops := hopener.drops
          unfold Drops at hdrops
          refine ⟨q, ?_, .inr ⟨by rw [hready], hopener.ends⟩⟩
          rw [hready, run_append, h.reads, hdrops]
          simp
        · rcases List.prefix_cons_iff.1 hf with rfl | ⟨g, rfl, hg⟩
          · simpa using h.divided
          · rw [List.length_cons] at hlen
            exact divided_of_held h (ready_escape h.whole
              (fun hmem => hopener.free (hg.subset hmem)) (by omega) (hopener.unfinished g hg))

/-- **Where a stream of items is divided**: what is shown are the scalars that are whole. -/
theorem divided_items {items : List Item} {p : Bytes} (hp : p <+: items.flatMap Item.bytes)
    {w text : Bytes} (h : Closed w text) : Divided (w ++ p) (text ++ shown p.length items) := by
  induction items generalizing p w text with
  | nil =>
      obtain rfl : p = [] := by simpa using hp
      simpa [shown] using h.divided
  | cons i items ih =>
      rw [List.flatMap_cons] at hp
      by_cases hlen : i.bytes.length ≤ p.length
      · obtain ⟨p', rfl⟩ := List.prefix_of_prefix_length_le (List.prefix_append _ _) hp hlen
        have hrest : p' <+: items.flatMap Item.bytes := (List.prefix_append_right_inj _).1 hp
        simpa [shown] using ih hrest (h.append i)
      · have hf : p <+: i.bytes :=
          List.prefix_of_prefix_length_le hp (List.prefix_append _ _) (by omega)
        have hne : p ≠ i.bytes := by
          rintro rfl
          omega
        simpa [shown, hlen] using divided_unfinished h i hf hne

theorem divided_stream {items : List Item} {p : Bytes} (hp : p <+: items.flatMap Item.bytes) :
    Divided p (shown p.length items) := by
  have h := divided_items hp closed_nil
  rwa [List.nil_append, List.nil_append] at h

/-! ### Chunk by chunk -/

/-- Inside a string and outside, a terminal reads an escape byte alike. -/
theorem run_esc {q : State} (hq : step q esc = (.escape, false)) {part rest : Bytes}
    (h : part <+: esc :: rest) : (run [] q part).1 = strip part := by
  rcases List.prefix_cons_iff.1 h with rfl | ⟨g, rfl, -⟩
  · rfl
  · simp [strip, run, hq, step_ground_esc]

/-- **One more chunk**: what it shows is what is new. -/
theorem Divided.write {p chunk text text' : Bytes} (h : Divided p text)
    (h' : Divided (p ++ chunk) text') : text' = text ++ strip (ready ((ready p).2 ++ chunk)).1 := by
  obtain ⟨q, hreads, hq⟩ := h
  obtain ⟨q', hreads', -⟩ := h'
  rw [ready_append, run_append, hreads] at hreads'
  have hnew : (run [] q (ready ((ready p).2 ++ chunk)).1).1 =
      strip (ready ((ready p).2 ++ chunk)).1 := by
    rcases hq with rfl | ⟨hheld, hesc⟩
    · rfl
    · -- What waited is the escape byte, and the new part begins with it.
      rw [hheld, List.singleton_append]
      exact run_esc hesc ⟨_, ready_join (esc :: chunk)⟩
  rw [← hnew]
  exact (congrArg Prod.fst hreads').symm

namespace Sanitizer

/-- Takes several chunks, and gives what each of them shows. -/
def writeAll (s : Sanitizer) : List Bytes → Sanitizer × List Bytes
  | [] => (s, [])
  | chunk :: chunks =>
    let later := (s.write chunk).1.writeAll chunks
    (later.1, (s.write chunk).2 :: later.2)

theorem writeAll_append (s : Sanitizer) (chunks more : List Bytes) :
    s.writeAll (chunks ++ more) =
      (((s.writeAll chunks).1.writeAll more).1,
        (s.writeAll chunks).2 ++ ((s.writeAll chunks).1.writeAll more).2) := by
  induction chunks generalizing s with
  | nil => rfl
  | cons chunk chunks ih => simp [writeAll, ih]

theorem writeAll_concat (s : Sanitizer) (chunks : List Bytes) (chunk : Bytes) :
    s.writeAll (chunks ++ [chunk]) =
      (((s.writeAll chunks).1.write chunk).1,
        (s.writeAll chunks).2 ++ [((s.writeAll chunks).1.write chunk).2]) := by
  rw [writeAll_append]
  rfl

/-- What waits after several chunks waits after all of them at once. -/
theorem held_writeAll (chunks : List Bytes) :
    (writeAll {} chunks).1.held = (ready chunks.flatten).2 := by
  induction chunks using List.reverseRecOn with
  | nil => rfl
  | append_singleton chunks chunk ih =>
      rw [writeAll_concat, List.flatten_append, List.flatten_singleton, ready_append, ← ih]
      rfl

/-- What several chunks of a stream show. -/
theorem shown_writeAll {items : List Item} {chunks : List Bytes}
    (h : chunks.flatten <+: items.flatMap Item.bytes) :
    (writeAll {} chunks).2.flatten = shown chunks.flatten.length items := by
  induction chunks using List.reverseRecOn with
  | nil =>
      obtain ⟨q, hreads, -⟩ := divided_stream h
      exact congrArg Prod.fst hreads
  | append_singleton chunks chunk ih =>
      rw [List.flatten_append, List.flatten_singleton] at h ⊢
      have hbefore := (List.prefix_append _ _).trans h
      rw [(divided_stream hbefore).write (divided_stream h), ← held_writeAll, ← ih hbefore,
        writeAll_concat, List.flatten_append, List.flatten_singleton]
      rfl

/-- **What is shown after each chunk is the scalars that are whole by then, and at the end nothing
is left.**  The items may be cut into chunks in any way. -/
theorem writeAll_eq_shown (items : List Item) (chunks : List Bytes)
    (h : chunks.flatten = items.flatMap Item.bytes) :
    (∀ k, (writeAll {} (chunks.take k)).2.flatten =
      shown (chunks.take k).flatten.length items) ∧
    (writeAll {} chunks).1.flush = [] := by
  refine ⟨?_, ?_⟩
  · intro k
    refine shown_writeAll ?_
    rw [← h]
    exact ⟨(chunks.drop k).flatten, by rw [← List.flatten_append, List.take_append_drop]⟩
  · have hclosed : Closed (items.flatMap Item.bytes) (items.flatMap Item.text) := closed_items items
    rw [flush, held_writeAll, h, ready_of_closed hclosed]
    rfl

/-- It happens: a colour, a scalar of two bytes and a title with its terminator, byte by byte. -/
theorem writeAll_eq_shown_bytewise :
    ∃ items : List Item,
      items.map Item.bytes = [[0x1B, 0x5B, 0x33, 0x32, 0x6D], [0xC3, 0xA9],
        [0x1B, 0x5D, 0x30, 0x1B, 0x5C], [0x62]] ∧
      let chunks := (items.flatMap Item.bytes).map fun b => [b]
      chunks.flatten = items.flatMap Item.bytes ∧ chunks.length = 13 ∧
        (writeAll {} (chunks.take 6)).2.flatten = [] ∧
        (writeAll {} (chunks.take 7)).2.flatten = [0xC3, 0xA9] ∧
        (writeAll {} (chunks.take 13)).2.flatten = [0xC3, 0xA9, 0x62] ∧
        (writeAll {} chunks).1.flush = [] := by
  let items : List Item := [
    .sequence [0x1B, 0x5B, 0x33, 0x32, 0x6D] (.control (@Header.mk [] [0x33, 0x32] [] 0x6D
      (by decide) (by decide +kernel) (by decide +kernel) (by decide +kernel) (by decide)))
      (by decide),
    .scalar 'é' (by decide),
    .sequence [0x1B, 0x5D, 0x30, 0x1B, 0x5C] (@Sequence.commandString [0x30] (by decide +kernel))
      (by decide),
    .scalar 'b' (by decide)]
  refine ⟨items, by decide, ?_⟩
  intro chunks
  have hchunks : chunks.flatten = items.flatMap Item.bytes := by decide
  obtain ⟨hshown, hflush⟩ := writeAll_eq_shown items chunks hchunks
  exact ⟨hchunks, by decide, (hshown 6).trans (by decide), (hshown 7).trans (by decide),
    (hshown 13).trans (by decide), hflush⟩

end Sanitizer

end ReplBridge.Terminal
