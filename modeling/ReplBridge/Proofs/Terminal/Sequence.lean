import ReplBridge.Proofs.Terminal.Ready

/-!
**Escape sequences, as a terminal and a sanitizer see them.**

The well-formed escape sequences are of a few kinds: control sequences, strings of several sorts,
sequences with intermediate bytes, and an escape byte with one byte behind it.  A terminal reads
each of them with a table of its own and shows nothing of it.  A sanitizer that waits for the end of
a sequence has only a rule of thumb for it, and the two agree on where a well-formed sequence ends.

For both, only two shapes matter.  A sequence may have one escape byte, and end with the byte that
makes it whole.  Or it is a string that an escape byte and a backslash end.  Then the sanitizer
takes the second escape byte for the beginning of another sequence, and lets go of the string
before the string has ended; but the terminal is inside the string then, and shows nothing of it.

Main definitions:

* `Terminal.Drops` — a terminal shows nothing of a text;
* `Terminal.Header`, `Terminal.Sequence` — **the well-formed escape sequences**;
* `Terminal.Plain`, `Terminal.Opener` — the two shapes.

Main results:

* `Terminal.run_append` — a terminal reads a text in parts;
* `Terminal.drops_header` — the parameters of a sequence, in whichever states they are read;
* `Terminal.Sequence.shape` — **every well-formed sequence has one of the two shapes**.
-/

set_option autoImplicit false

namespace ReplBridge.Terminal

variable {q q' : State} {b lo hi kind : UInt8} {s : Bytes}

/-! ### Reading in parts -/

theorem run_kept (kept : Bytes) (q : State) (s : Bytes) :
    run kept q s = (kept.reverse ++ (run [] q s).1, (run [] q s).2) := by
  induction s generalizing kept q with
  | nil => simp [run]
  | cons b s ih =>
      simp only [run]
      split
      · rename_i q' hstep
        rw [ih (b :: kept) q', ih [b] q']
        simp
      · rename_i q' hstep
        exact ih kept q'

/-- A terminal reads a text in parts. -/
theorem run_append (q : State) (x y : Bytes) :
    run [] q (x ++ y) =
      ((run [] q x).1 ++ (run [] (run [] q x).2 y).1, (run [] (run [] q x).2 y).2) := by
  induction x generalizing q with
  | nil => simp [run]
  | cons b x ih =>
      simp only [run, List.cons_append]
      split
      · rename_i q' hstep
        rw [run_kept [b] q' (x ++ y), run_kept [b] q' x, ih q']
        simp
      · rename_i q' hstep
        exact ih q'

/-- A terminal in state `q` shows nothing of `s`, and is in state `q'` after it. -/
def Drops (q : State) (s : Bytes) (q' : State) : Prop := run [] q s = ([], q')

theorem Drops.nil (q : State) : Drops q [] q := rfl

theorem Drops.cons {q q' q'' : State} (hb : step q b = (q', false)) (hs : Drops q' s q'') :
    Drops q (b :: s) q'' := by
  simpa [Drops, run, hb] using hs

theorem Drops.append {q q' q'' : State} {x y : Bytes} (hx : Drops q x q') (hy : Drops q' y q'') :
    Drops q (x ++ y) q'' := by
  unfold Drops at *
  rw [run_append, hx, hy]
  rfl

theorem Drops.of_forall (h : ∀ b ∈ s, step q b = (q, false)) : Drops q s q := by
  induction s with
  | nil => exact .nil q
  | cons b s ih => exact .cons (h b (by simp)) (ih fun a ha => h a (by simp [ha]))

/-- The first byte may lead to the state in which the others are read. -/
theorem Drops.of_first (hne : s ≠ [])
    (h : ∀ b ∈ s, step q b = (q', false) ∧ step q' b = (q', false)) : Drops q s q' := by
  cases s with
  | nil => exact absurd rfl hne
  | cons b s =>
      exact .cons (h b (by simp)).1 (.of_forall fun a ha => (h a (by simp [ha])).2)

/-! ### The rows of the table -/

/-- The bytes after which an escape sequence goes on. -/
def introducers : Bytes := [0x5B, 0x5D, 0x50, 0x58, 0x5E, 0x5F]

theorem step_ground_esc : step .ground esc = (.escape, false) := by decide

theorem step_escape_backslash : step .escape 0x5C = (.ground, false) := by decide

/-- The states in which a header is read: the first one, those of its parameters and of its
intermediate bytes, and the one after its last byte. -/
structure HeaderStates (q p i f : State) : Prop where
  parameter : ∀ b, Bytes.within 0x30 0x3F b = true → step q b = (p, false) ∧ step p b = (p, false)
  intermediate : ∀ b, isIntermediate b = true →
    step q b = (i, false) ∧ step p b = (i, false) ∧ step i b = (i, false)
  final : ∀ b, Bytes.within 0x40 0x7E b = true →
    step q b = (f, false) ∧ step p b = (f, false) ∧ step i b = (f, false)

theorem headerStates_control : HeaderStates .control .control .controlIntermediate .ground :=
  ⟨Bytes.forall_byte (by decide +kernel), Bytes.forall_byte (by decide +kernel),
    Bytes.forall_byte (by decide +kernel)⟩

theorem headerStates_device :
    HeaderStates .deviceEntry .deviceParameter .deviceIntermediate .deviceString :=
  ⟨Bytes.forall_byte (by decide +kernel), Bytes.forall_byte (by decide +kernel),
    Bytes.forall_byte (by decide +kernel)⟩

/-- What is printable stays inside a string. -/
theorem step_string : ∀ b, Bytes.within 0x20 0x7E b = true →
    step .systemCommand b = (.systemCommand, false) ∧
      step .controlString b = (.controlString, false) ∧
      step .deviceString b = (.deviceString, false) :=
  Bytes.forall_byte (by decide +kernel)

theorem step_escape_intermediate : ∀ b, isIntermediate b = true →
    step .escape b = (.escapeIntermediate, false) ∧
      step .escapeIntermediate b = (.escapeIntermediate, false) :=
  Bytes.forall_byte (by decide +kernel)

/-- The last byte of a sequence with intermediate bytes, and of one without. -/
theorem step_final : ∀ b, Bytes.within 0x30 0x7E b = true →
    step .escapeIntermediate b = (.ground, false) ∧
      (b ∉ introducers → step .escape b = (.ground, false)) :=
  Bytes.forall_byte (by decide +kernel)

/-! ### Ranges of bytes -/

theorem within_mono {lo hi lo' hi' b : UInt8} (h : Bytes.within lo hi b = true)
    (hlo : lo'.toNat ≤ lo.toNat) (hhi : hi.toNat ≤ hi'.toNat) : Bytes.within lo' hi' b = true := by
  rw [Bytes.within_iff] at h ⊢
  exact ⟨Nat.le_trans hlo h.1, Nat.le_trans h.2 hhi⟩

theorem not_within_above {lo hi lo' hi' b : UInt8} (h : Bytes.within lo hi b = true)
    (habove : hi'.toNat < lo.toNat) : Bytes.within lo' hi' b = false := by
  rw [Bool.eq_false_iff, ne_eq, Bytes.within_iff]
  have := (Bytes.within_iff.1 h).1
  omega

theorem within_ascii (h : Bytes.within lo hi b = true) (hhi : hi.toNat < 0x80) : b.toNat < 0x80 :=
  Nat.lt_of_le_of_lt (Bytes.within_iff.1 h).2 hhi

theorem within_ne_esc (h : Bytes.within lo hi b = true) (hlo : 0x1B < lo.toNat) : b ≠ esc := by
  rintro rfl
  have : lo.toNat ≤ 0x1B := (Bytes.within_iff.1 h).1
  omega

theorem esc_not_mem_of_within (h : ∀ b ∈ s, Bytes.within lo hi b = true) (hlo : 0x1B < lo.toNat) :
    esc ∉ s :=
  fun hmem => within_ne_esc (h esc hmem) hlo rfl

/-! ### Well-formed sequences -/

/-- **A header**: a mark or none, parameters, intermediate bytes and a last byte. -/
inductive Header : Bytes → Prop where
  | mk {mark parameters intermediates : Bytes} {final : UInt8} (hmark : mark.length ≤ 1)
      (hmarks : ∀ b ∈ mark, Bytes.within 0x3C 0x3F b = true)
      (hparameters : ∀ b ∈ parameters, Bytes.within 0x30 0x3B b = true)
      (hintermediates : ∀ b ∈ intermediates, isIntermediate b = true)
      (hfinal : Bytes.within 0x40 0x7E final = true) :
      Header (mark ++ parameters ++ intermediates ++ [final])

/-- What is inside a string. -/
def Printable (s : Bytes) : Prop := ∀ b ∈ s, Bytes.within 0x20 0x7E b = true

instance (s : Bytes) : Decidable (Printable s) :=
  inferInstanceAs (Decidable (∀ b ∈ s, Bytes.within 0x20 0x7E b = true))

/-- **The well-formed escape sequences.**  An operating system command is ended by the bell or by a
string terminator, strings of the other kinds only by the latter. -/
inductive Sequence : Bytes → Prop where
  | control {header : Bytes} (hheader : Header header) : Sequence (esc :: 0x5B :: header)
  | command {body : Bytes} (hbody : Printable body) : Sequence (esc :: 0x5D :: body ++ [bel])
  | commandString {body : Bytes} (hbody : Printable body) :
      Sequence (esc :: 0x5D :: body ++ [esc, 0x5C])
  | controlString {kind : UInt8} {body : Bytes} (hkind : kind = 0x58 ∨ kind = 0x5E ∨ kind = 0x5F)
      (hbody : Printable body) : Sequence (esc :: kind :: body ++ [esc, 0x5C])
  | deviceString {header body : Bytes} (hheader : Header header) (hbody : Printable body) :
      Sequence (esc :: 0x50 :: (header ++ body) ++ [esc, 0x5C])
  | intermediate {intermediates : Bytes} {final : UInt8} (hne : intermediates ≠ [])
      (hintermediates : ∀ b ∈ intermediates, isIntermediate b = true)
      (hfinal : Bytes.within 0x30 0x7E final = true) : Sequence (esc :: intermediates ++ [final])
  | simple {final : UInt8} (hfinal : Bytes.within 0x30 0x7E final = true)
      (hother : final ∉ introducers) : Sequence [esc, final]

theorem drops_header {q p i f : State} (hstates : HeaderStates q p i f) {header : Bytes}
    (h : Header header) : Drops q header f := by
  cases h with
  | @mk mark parameters intermediates final _ hmarks hparameters hintermediates hfinal =>
      have hparameter : ∀ b ∈ mark ++ parameters, Bytes.within 0x30 0x3F b = true := by
        intro b hb
        rcases List.mem_append.1 hb with hb | hb
        · exact within_mono (hmarks b hb) (by decide) (by decide)
        · exact within_mono (hparameters b hb) (by decide) (by decide)
      -- After the parameters the terminal is where they begin, or where they go on.
      obtain ⟨r, hdrops, hr⟩ : ∃ r, Drops q (mark ++ parameters) r ∧ (r = q ∨ r = p) := by
        by_cases hne : mark ++ parameters = []
        · exact ⟨q, hne ▸ .nil q, .inl rfl⟩
        · exact ⟨p, .of_first hne fun b hb => hstates.parameter b (hparameter b hb), .inr rfl⟩
      have hlast : step r final = (f, false) ∧ step i final = (f, false) := by
        obtain ⟨hq, hp, hi⟩ := hstates.final final hfinal
        rcases hr with rfl | rfl
        · exact ⟨hq, hi⟩
        · exact ⟨hp, hi⟩
      by_cases hne : intermediates = []
      · subst hne
        rw [List.append_nil]
        exact hdrops.append (.cons hlast.1 (.nil f))
      · refine (hdrops.append (.of_first hne fun b hb => ?_)).append (.cons hlast.2 (.nil f))
        obtain ⟨hq, hp, hi⟩ := hstates.intermediate b (hintermediates b hb)
        rcases hr with rfl | rfl
        · exact ⟨hq, hi⟩
        · exact ⟨hp, hi⟩

/-- A header holds only bytes from space to tilde. -/
theorem Header.printable {header : Bytes} (h : Header header) : Printable header := by
  cases h with
  | mk _ hmarks hparameters hintermediates hfinal =>
      intro b hb
      simp only [List.mem_append, List.mem_singleton] at hb
      rcases hb with ((hb | hb) | hb) | rfl
      · exact within_mono (hmarks b hb) (by decide) (by decide)
      · exact within_mono (hparameters b hb) (by decide) (by decide)
      · exact within_mono (hintermediates b hb) (by decide) (by decide)
      · exact within_mono hfinal (by decide) (by decide)

theorem Printable.append {x y : Bytes} (hx : Printable x) (hy : Printable y) : Printable (x ++ y) :=
  fun b hb => (List.mem_append.1 hb).elim (hx b) (hy b)

theorem Printable.ascii (h : Printable s) : ∀ b ∈ s, b.toNat < 0x80 :=
  fun b hb => within_ascii (h b hb) (by decide)

theorem Printable.esc_not_mem (h : Printable s) : esc ∉ s :=
  esc_not_mem_of_within h (by decide)

theorem Printable.of_prefix {s f : Bytes} (h : Printable s) (hf : f <+: s) : Printable f :=
  fun b hb => h b (hf.subset hb)

/-! ### When a sequence is whole -/

theorem escapeComplete_control (body : Bytes) :
    escapeComplete (0x5B :: body) = body.any fun b => !Bytes.within 0x20 0x3F b := by
  simp [escapeComplete]

theorem escapeComplete_string
    (hkind : kind = 0x5D ∨ kind = 0x50 ∨ kind = 0x5F ∨ kind = 0x5E ∨ kind = 0x58) (body : Bytes) :
    escapeComplete (kind :: body) = (body.contains bel || Bytes.occurs [esc, 0x5C] body) := by
  rcases hkind with rfl | rfl | rfl | rfl | rfl <;> simp [escapeComplete]

theorem escapeComplete_intermediate (hkind : isIntermediate kind = true) (body : Bytes) :
    escapeComplete (kind :: body) = body.any fun b => !isIntermediate b := by
  have hlow := (Bytes.within_iff.1 hkind).2
  have hne {k : UInt8} (hk : 0x2F < k.toNat) : (kind == k) = false := by
    rw [beq_eq_false_iff_ne]
    rintro rfl
    simp at hlow
    omega
  simp [escapeComplete, hkind, hne]

/-- A string that has not ended is not whole. -/
theorem escapeComplete_open
    (hkind : kind = 0x5D ∨ kind = 0x50 ∨ kind = 0x5F ∨ kind = 0x5E ∨ kind = 0x58) {body f : Bytes}
    (hbody : Printable body) (hf : f <+: kind :: body) : escapeComplete f = false := by
  rcases List.prefix_cons_iff.1 hf with rfl | ⟨g, rfl, hg⟩
  · rfl
  · have hprintable := hbody.of_prefix hg
    have hbel : bel ∉ g := by
      intro hmem
      have := hprintable bel hmem
      simp [Bytes.within, bel] at this
    have hterminator : ¬ [esc, 0x5C] <:+: g := fun hin =>
      hprintable.esc_not_mem (hin.subset (by simp))
    rw [escapeComplete_string hkind, Bool.or_eq_false_iff]
    refine ⟨by simpa using hbel, ?_⟩
    rw [Bool.eq_false_iff, ne_eq, Bytes.occurs_iff (by simp)]
    exact hterminator

/-! ### Two shapes -/

/-- **A sequence with one escape byte**, without that byte. -/
structure Plain (core : Bytes) : Prop where
  free : esc ∉ core
  ascii : ∀ b ∈ core, b.toNat < 0x80
  whole : escapeComplete core = true
  unfinished : ∀ f, f <+: core → f ≠ core → escapeComplete f = false
  drops : Drops .ground (esc :: core) .ground

/-- **A string that a terminator is to end**, without its escape byte. -/
structure Opener (core : Bytes) (q : State) : Prop where
  free : esc ∉ core
  ascii : ∀ b ∈ core, b.toNat < 0x80
  unfinished : ∀ f, f <+: core → escapeComplete f = false
  drops : Drops .ground (esc :: core) q
  ends : step q esc = (.escape, false)

theorem drops_escape {body : Bytes} (hkind : step .escape kind = (q, false))
    (hbody : Drops q body q') : Drops .ground (esc :: kind :: body) q' :=
  .cons step_ground_esc (.cons hkind hbody)

theorem plain_control {header : Bytes} (h : Header header) : Plain (0x5B :: header) := by
  have hdrops := drops_header headerStates_control h
  have hprintable := h.printable
  cases h with
  | @mk mark parameters intermediates final _ hmarks hparameters hintermediates hfinal =>
      have hinside : ∀ b ∈ mark ++ parameters ++ intermediates,
          Bytes.within 0x20 0x3F b = true := by
        intro b hb
        simp only [List.mem_append] at hb
        rcases hb with (hb | hb) | hb
        · exact within_mono (hmarks b hb) (by decide) (by decide)
        · exact within_mono (hparameters b hb) (by decide) (by decide)
        · exact within_mono (hintermediates b hb) (by decide) (by decide)
      refine ⟨?_, ?_, ?_, ?_, drops_escape (by decide) hdrops⟩
      · simpa [esc] using hprintable.esc_not_mem
      · simpa using hprintable.ascii
      · have hlast : Bytes.within 0x20 0x3F final = false := not_within_above hfinal (by decide)
        simp [escapeComplete_control, hlast]
      · intro f hf hne
        rcases List.prefix_cons_iff.1 hf with rfl | ⟨g, rfl, hg⟩
        · rfl
        · rcases List.prefix_concat_iff.1 hg with rfl | hg
          · exact absurd rfl hne
          · rw [escapeComplete_control, List.any_eq_false]
            intro b hb
            simp [hinside b (hg.subset hb)]

theorem plain_command {body : Bytes} (h : Printable body) : Plain (0x5D :: body ++ [bel]) := by
  refine ⟨?_, ?_, ?_, ?_, ?_⟩
  · have := h.esc_not_mem
    simpa [esc, bel] using this
  · intro b hb
    simp only [List.cons_append, List.mem_cons, List.mem_append, List.not_mem_nil, or_false] at hb
    rcases hb with rfl | hb | rfl
    · decide
    · exact h.ascii b hb
    · decide
  · rw [List.cons_append, escapeComplete_string (.inl rfl)]
    simp
  · intro f hf hne
    rcases List.prefix_concat_iff.1 hf with rfl | hf
    · exact absurd rfl hne
    · exact escapeComplete_open (.inl rfl) h hf
  · have hinside : Drops .systemCommand body .systemCommand :=
      .of_forall fun b hb => (step_string b (h b hb)).1
    exact drops_escape (by decide) (hinside.append (.cons (by decide) (.nil _)))

theorem plain_intermediate {intermediates : Bytes} {final : UInt8} (hne : intermediates ≠ [])
    (hintermediates : ∀ b ∈ intermediates, isIntermediate b = true)
    (hfinal : Bytes.within 0x30 0x7E final = true) : Plain (intermediates ++ [final]) := by
  refine ⟨?_, ?_, ?_, ?_, ?_⟩
  · have hfree := esc_not_mem_of_within hintermediates (by decide)
    simpa [hfree] using (within_ne_esc hfinal (by decide)).symm
  · intro b hb
    rcases List.mem_append.1 hb with hb | hb
    · exact within_ascii (hintermediates b hb) (by decide)
    · rw [List.mem_singleton.1 hb]
      exact within_ascii hfinal (by decide)
  · cases intermediates with
    | nil => exact absurd rfl hne
    | cons kind body =>
        have hlast : isIntermediate final = false := not_within_above hfinal (by decide)
        rw [List.cons_append, escapeComplete_intermediate (hintermediates kind (by simp))]
        simp [hlast]
  · intro f hf hproper
    rcases List.prefix_concat_iff.1 hf with rfl | hf
    · exact absurd rfl hproper
    · cases f with
      | nil => rfl
      | cons kind body =>
          rw [escapeComplete_intermediate (hintermediates kind (hf.subset (by simp))),
            List.any_eq_false]
          intro b hb
          simp [hintermediates b (hf.subset (by simp [hb]))]
  · have hinside : Drops .escape intermediates .escapeIntermediate :=
      .of_first hne fun b hb => step_escape_intermediate b (hintermediates b hb)
    exact .cons step_ground_esc (hinside.append (.cons (step_final final hfinal).1 (.nil _)))

theorem plain_simple {final : UInt8} (hfinal : Bytes.within 0x30 0x7E final = true)
    (hother : final ∉ introducers) : Plain [final] := by
  have hintermediate : isIntermediate final = false := not_within_above hfinal (by decide)
  refine ⟨?_, ?_, ?_, ?_, ?_⟩
  · simpa using (within_ne_esc hfinal (by decide)).symm
  · intro b hb
    rw [List.mem_singleton.1 hb]
    exact within_ascii hfinal (by decide)
  · simp only [introducers, List.mem_cons, List.not_mem_nil, or_false, not_or] at hother
    simp [escapeComplete, hother, hintermediate]
  · intro f hf hne
    rcases List.prefix_cons_iff.1 hf with rfl | ⟨g, rfl, hg⟩
    · rfl
    · exact absurd (by rw [List.prefix_nil.1 hg]) hne
  · exact .cons step_ground_esc (.cons ((step_final final hfinal).2 hother) (.nil _))

theorem opener_string {body : Bytes}
    (hkind : kind = 0x5D ∨ kind = 0x50 ∨ kind = 0x5F ∨ kind = 0x5E ∨ kind = 0x58)
    (hbody : Printable body) (hbegins : step .escape kind = (q, false)) (hdrops : Drops q body q')
    (hends : step q' esc = (.escape, false)) : Opener (kind :: body) q' := by
  have hprintable : Printable (kind :: body) := by
    intro b hb
    rcases List.mem_cons.1 hb with rfl | hb
    · rcases hkind with rfl | rfl | rfl | rfl | rfl <;> decide
    · exact hbody b hb
  exact ⟨hprintable.esc_not_mem, hprintable.ascii,
    fun f hf => escapeComplete_open hkind hbody hf, drops_escape hbegins hdrops, hends⟩

/-- **Every well-formed sequence has one of the two shapes.** -/
theorem Sequence.shape (h : Sequence s) :
    (∃ core, s = esc :: core ∧ Plain core) ∨
      ∃ core q, s = esc :: core ++ [esc, 0x5C] ∧ Opener core q := by
  cases h with
  | control hheader => exact .inl ⟨_, rfl, plain_control hheader⟩
  | command hbody => exact .inl ⟨_, rfl, plain_command hbody⟩
  | intermediate hne hintermediates hfinal =>
      exact .inl ⟨_, rfl, plain_intermediate hne hintermediates hfinal⟩
  | simple hfinal hother => exact .inl ⟨_, rfl, plain_simple hfinal hother⟩
  | commandString hbody =>
      have hdrops := Drops.of_forall fun b hb => (step_string b (hbody b hb)).1
      exact .inr ⟨_, _, rfl, opener_string (.inl rfl) hbody (by decide) hdrops (by decide)⟩
  | controlString hkind hbody =>
      have hdrops := Drops.of_forall fun b hb => (step_string b (hbody b hb)).2.1
      refine .inr ⟨_, _, rfl, opener_string ?_ hbody ?_ hdrops (by decide)⟩
      · rcases hkind with rfl | rfl | rfl <;> simp
      · rcases hkind with rfl | rfl | rfl <;> decide
  | deviceString hheader hbody =>
      have hdrops := (drops_header headerStates_device hheader).append
        (.of_forall fun b hb => (step_string b (hbody b hb)).2.2)
      exact .inr ⟨_, _, rfl, opener_string (.inr (.inl rfl)) (hheader.printable.append hbody)
        (by decide) hdrops (by decide)⟩

end ReplBridge.Terminal
