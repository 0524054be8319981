import ReplBridge.Proofs.Repl.Session.Order

/-!
**Every command gets the frame that is its own.**

The subprocess prints on its own account: before it is asked, while nobody waits, after the session
is over.  All of it is cut into frames `f 0, f 1, f 2, …`, and the commands that were written are
`c 1, c 2, …` in the order of writing.  What ties the two together is that a frame is taken only by
the worker, one for the text before the first prompt and one for each written command; so as long as
the worker listens, what was received and what is on offer are all frames that were cut.

Main definitions:

* `Repl.Pump.Scanned` — the reader of standard output has cut what it has read;
* `Session.Listens` — frames may still be taken;
* `Session.Aligned` — received frames are the frames that were cut;
* `Session.NthWritten` — a call is the one whose command was written as the `k`-th.

Main results:

* `Session.aligned_play` — received frames are cut frames after every play;
* `Session.frame_of_answered` — **the alignment of frames and commands**.
-/

set_option autoImplicit false

namespace ReplBridge.Repl

/-! ### What the reader has cut -/

/-- The frames that were cut and not yet taken. -/
def Pump.offered : Pump → List Bytes
  | .reading _ _ offered => offered
  | _ => []

/-- **The reader has cut what it has read.** -/
def Pump.Scanned (sentinel : Bytes) (read : List Bytes) : Pump → Prop
  | .reading sanitizer framer offered =>
    ∃ past, (Scan.fresh sentinel).readAll read = ⟨sanitizer, framer, past ++ offered⟩
  | .drained tail => tail = remainder sentinel read
  | .finished tail _ => tail = remainder sentinel read

namespace Session

variable {s s' : Session} {l : Label}

/-- Frames may still be taken: no end was announced, and the worker has not stopped. -/
def Listens (s : Session) : Prop := s.done = false ∧ (s.worker ≠ .off ∨ s.launched = none)

/-- **Received frames are the frames that were cut** from the portions of output `read`. -/
structure Cut (read : List Bytes) (s : Session) : Prop where
  /-- The reader has cut these portions. -/
  scanned : s.pump.Scanned s.options.sentinel read
  /-- A reader at the end of the output has read all of it. -/
  ended : (∀ sanitizer framer offered, s.pump ≠ .reading sanitizer framer offered) →
    s.child.stdout = [] ∧ s.child.stdoutEnded = true
  /-- As long as frames may be taken, none is lost. -/
  lossless : s.Listens →
    frames s.options.sentinel read = (answers s.log).map Prod.snd ++ s.pump.offered
  /-- Frames were received in order; after the last one, the last command may have been answered by
  what was left of the output. -/
  received : (answers s.log).map Prod.snd <+: frames s.options.sentinel read ∨
    s.childGone = true ∧ ∃ i c before, s.calls[i]? = some c ∧ c.last = true ∧
      answers s.log = before ++ [(i + 1, remainder s.options.sentinel read)] ∧
      before.map Prod.snd = frames s.options.sentinel read

/-- **Received frames are the frames that were cut** from the portions `chunks`, of which the last
may still be unread. -/
def Aligned (chunks : List Bytes) (s : Session) : Prop :=
  ∃ read, chunks = read ++ s.child.stdout ∧ s.Cut read

theorem aligned_new (options : Options) : (new options).Aligned [] := by
  refine ⟨[], rfl, ⟨[], rfl⟩, ?_, fun _ => rfl, .inl List.nil_prefix⟩
  intro h
  exact absurd rfl (h _ _ _)

/-- Where nothing is read, taken or printed, nothing is to be shown. -/
theorem Cut.keep {read : List Bytes} (h : s.Cut read) (hoptions : s'.options = s.options)
    (hpump : s'.pump = s.pump) (hchild : s.child.Follows s'.child)
    (hanswers : answers s'.log = answers s.log) (hkept : Kept s.calls s'.calls)
    (hlistens : s'.Listens → s.Listens) : s'.Cut read := by
  refine ⟨?_, ?_, ?_, ?_⟩
  · rw [hpump, hoptions]
    exact h.scanned
  · intro hdone
    obtain ⟨hstdout, hended⟩ := h.ended (hpump ▸ hdone)
    exact ⟨hchild.stdout.trans hstdout, hchild.ended hended⟩
  · intro hstill
    rw [hpump, hoptions, hanswers]
    exact h.lossless (hlistens hstill)
  · rw [hoptions, hanswers]
    rcases h.received with hframes | ⟨hgone, i, c, before, hc, hlast, htail, hbefore⟩
    · exact .inl hframes
    · obtain ⟨c', hc', hgrows⟩ := hkept i c hc
      refine .inr ⟨?_, i, c', before, hc', hgrows.last.trans hlast, htail, hbefore⟩
      rwa [childGone, hpump]

theorem Cut.take {read : List Bytes} (h : s.Cut read) (hlistens : s.Listens)
    {sanitizer : Terminal.Sanitizer} {framer : Framer} {frame : Bytes} {offered : List Bytes}
    (hpump : s.pump = .reading sanitizer framer (frame :: offered))
    (hpump' : s'.pump = .reading sanitizer framer offered) (hoptions : s'.options = s.options)
    (hanswers : (answers s'.log).map Prod.snd = (answers s.log).map Prod.snd ++ [frame]) :
    s'.Cut read := by
  have hscanned := h.scanned
  rw [hpump] at hscanned
  obtain ⟨past, hpast⟩ := hscanned
  have hlossless : frames s'.options.sentinel read =
      (answers s'.log).map Prod.snd ++ s'.pump.offered := by
    have hall := h.lossless hlistens
    rw [hpump] at hall
    rw [hoptions, hall, hanswers, hpump']
    simp [Pump.offered]
  refine ⟨?_, ?_, fun _ => hlossless, .inl ?_⟩
  · rw [hpump', hoptions]
    exact ⟨past ++ [frame], by simp [hpast]⟩
  · intro hdone
    exact absurd hpump' (hdone _ _ _)
  · rw [hlossless]
    exact List.prefix_append _ _

/-- Before the subprocess is known to be gone, no remainder was received. -/
theorem Cut.received_of_present {read : List Bytes} (h : s.Cut read)
    (hpresent : s.childGone = false) :
    (answers s.log).map Prod.snd <+: frames s.options.sentinel read := by
  rcases h.received with hframes | ⟨hgone, -⟩
  · exact hframes
  · rw [hpresent] at hgone
    cases hgone

theorem Cut.read {read : List Bytes} (h : s.Cut read) {sanitizer : Terminal.Sanitizer}
    {framer : Framer} {chunk : Bytes} {rest : List Bytes}
    (hpump : s.pump = .reading sanitizer framer []) :
    Cut (read ++ [chunk]) { s with
      child := { s.child with stdout := rest }
      pump := .reading (sanitizer.write chunk).1 (framer.feed (sanitizer.write chunk).2).1
        (framer.feed (sanitizer.write chunk).2).2 } := by
  have hscanned := h.scanned
  rw [hpump] at hscanned
  obtain ⟨past, hpast⟩ := hscanned
  have hread : (Scan.fresh s.options.sentinel).readAll (read ++ [chunk]) =
      ⟨(sanitizer.write chunk).1, (framer.feed (sanitizer.write chunk).2).1,
        past ++ (framer.feed (sanitizer.write chunk).2).2⟩ := by
    rw [Scan.readAll_append, hpast, Scan.readAll_singleton]
    simp [Scan.read]
  have hpast' : frames s.options.sentinel read = past := by simp [frames, hpast]
  refine ⟨⟨past, hread⟩, fun hdone => absurd rfl (hdone _ _ _), ?_, .inl ?_⟩
  · intro hlistens
    have hall := h.lossless hlistens
    rw [hpump, hpast'] at hall
    simp [frames, hread, hall, Pump.offered]
  · exact (h.received_of_present (by simp [childGone, hpump])).trans (frames_prefix_append _ _ _)

/-- The last command is answered by what was left of the output, and the worker stops. -/
theorem Cut.depart {read : List Bytes} (h : s.Cut read) (hn : s.Numbered) (hp : s.Placed)
    {call : Nat} {deadline : Option Nat} {c : Call} {tail : Bytes} {status : Option Failure}
    (hworker : s.worker = .awaiting call deadline) (hunheard : s.done = false)
    (hpump : s.pump = .finished tail status) (hcall : s.calls[call]? = some c)
    (hlast : c.last = true) (hkept : Kept s.calls s'.calls) (hoptions : s'.options = s.options)
    (hpump' : s'.pump = s.pump) (hchild : s'.child = s.child)
    (hanswers : answers s'.log = answers s.log ++ [(c.seq, tail)])
    (hlaunched : s'.launched = s.launched) (hoff : s'.worker = .off) : s'.Cut read := by
  have hseq := (hn.waiting hp hcall (.inr ⟨deadline, hworker⟩)).2
  have hscanned := h.scanned
  have hlossless := h.lossless ⟨hunheard, .inl (by simp [hworker])⟩
  rw [hpump] at hscanned hlossless
  have htail : tail = remainder s.options.sentinel read := hscanned
  obtain ⟨c', hc', hgrows⟩ := hkept call c hcall
  refine ⟨?_, ?_, ?_, .inr ⟨by simp [childGone, hpump', hpump], call, c', answers s.log, hc',
    hgrows.last.trans hlast, ?_, ?_⟩⟩
  · rw [hpump', hoptions]
    exact h.scanned
  · rw [hpump', hchild]
    exact h.ended
  · rintro ⟨-, hworking | hnone⟩
    · exact absurd hoff hworking
    · exact absurd (hlaunched ▸ hnone) (hp.launched_of_worker (by simp [hworker]))
  · rw [hanswers, hseq, htail, hoptions]
  · rw [hoptions]
    simpa [Pump.offered] using hlossless.symm

/-- **Changes keep received frames aligned with the frames that were cut.** -/
theorem Aligned.change {chunks : List Bytes} (h : s.Aligned chunks) (hs : s.Staged)
    (hn : s.Numbered) (hp : s.Placed) (hc : s.Change l s') : s'.Aligned (chunks ++ l.chunks) := by
  obtain ⟨read, rfl, hcut⟩ := h
  have hkept := hc.kept
  have hopened (hopen : s.reason? = none) : s.done = false :=
    Bool.eq_false_iff.2 fun hdone => hs.announced hdone hopen
  cases hc with
  | aside complaints clients lines hchild =>
      exact ⟨read, by simp [hchild.stdout, Label.chunks],
        hcut.keep rfl rfl hchild (by simp) hkept id⟩
  | ticked | starting | stranded | accepted | rejected | gaveUp | ended | skipped =>
      exact ⟨read, by simp [Label.chunks], hcut.keep rfl rfl (.refl _) (by simp) hkept id⟩
  | launched _ _ hlaunching =>
      have hnone := hp.early (.inr hlaunching)
      exact ⟨read, by simp [Label.chunks],
        hcut.keep rfl rfl (.refl _) (by simp) hkept fun h => ⟨h.1, .inr hnone⟩⟩
  | announced =>
      exact ⟨read, by simp [Label.chunks],
        hcut.keep rfl rfl (.refl _) (by simp) hkept fun h => by cases h.1⟩
  | wrote hworker =>
      exact ⟨read, by simp [Label.chunks],
        hcut.keep rfl rfl (.refl _) (by simp) hkept fun h => ⟨h.1, .inl (by simp [hworker])⟩⟩
  | refused | failed | expired | stopped =>
      exact ⟨read, by simp [Label.chunks], hcut.keep rfl rfl (.refl _) (by simp) hkept
        fun h => ⟨h.1, .inr (h.2.resolve_left fun hoff => hoff rfl)⟩⟩
  | printed more hopen =>
      refine ⟨read, by simp [Label.chunks], hcut.scanned, ?_, hcut.lossless, hcut.received⟩
      intro hdone
      rw [(hcut.ended hdone).2] at hopen
      cases hopen
  | greeted hworker hopen hpump =>
      exact ⟨read, by simp [Label.chunks],
        hcut.take ⟨hopened hopen, .inl (by simp [hworker])⟩ hpump rfl rfl (by simp)⟩
  | overtaken hworker _ hunheard hpump | answered hworker hunheard hpump =>
      exact ⟨read, by simp [Label.chunks],
        hcut.take ⟨hunheard, .inl (by simp [hworker])⟩ hpump rfl rfl (by simp)⟩
  | parted hworker hopen hpump hcall hlast =>
      exact ⟨read, by simp [Label.chunks],
        hcut.depart hn hp hworker (hopened hopen) hpump hcall hlast hkept rfl rfl rfl (by simp) rfl
          rfl⟩
  | outlived hworker hover hunheard hpump hcall hlast =>
      exact ⟨read, by simp [Label.chunks],
        hcut.depart hn hp hworker hunheard hpump hcall hlast hkept rfl rfl rfl (by simp) rfl rfl⟩
  | @read sanitizer framer chunk rest hpump hstdout =>
      exact ⟨read ++ [chunk], by simp [hstdout, Label.chunks], hcut.read hpump⟩
  | @dropped sanitizer framer offered hpump hdone =>
      have hscanned := hcut.scanned
      rw [hpump] at hscanned
      obtain ⟨past, hpast⟩ := hscanned
      exact ⟨read, by simp [Label.chunks], ⟨past ++ offered, by simpa using hpast⟩,
        fun hread => absurd rfl (hread _ _ _), fun hlistens => by simp [Listens, hdone] at hlistens,
        .inl (hcut.received_of_present (by simp [childGone, hpump]))⟩
  | @drained sanitizer framer hpump hstdout hended =>
      have hscanned := hcut.scanned
      have hlossless := hcut.lossless
      rw [hpump] at hscanned hlossless
      obtain ⟨past, hpast⟩ := hscanned
      exact ⟨read, by simp [Label.chunks], by simp [Pump.Scanned, remainder, hpast],
        fun _ => ⟨hstdout, hended⟩, hlossless,
        .inl (hcut.received_of_present (by simp [childGone, hpump]))⟩
  | @departed tail status hpump hexit =>
      have hscanned := hcut.scanned
      have hlossless := hcut.lossless
      rw [hpump] at hscanned hlossless
      exact ⟨read, by simp [Label.chunks], hscanned, fun _ => hcut.ended (by simp [hpump]),
        hlossless, .inl (hcut.received_of_present (by simp [childGone, hpump]))⟩

/-- Received frames are the frames that were cut, after every play. -/
theorem aligned_play (options : Options) (acts : List Act) :
    ((new options).play acts).Aligned ((new options).printed acts) :=
  ledger_induction (P := fun chunks t => t.Aligned chunks)
    (fun ht hn hp h hc => h.change ht.staged hn hp hc) options (aligned_new options) acts

/-! ### Frames and commands by their place -/

theorem getElem?_of_isPrefix {α : Type} {l l' : List α} (h : l <+: l') {k : Nat} {a : α}
    (hk : l[k]? = some a) : l'[k]? = some a := by
  obtain ⟨more, rfl⟩ := h
  rw [List.getElem?_append_left (List.getElem?_eq_some_iff.1 hk).1, hk]

/-- A text that was received is the frame in its place, or what was left of the output after the
last frame. -/
theorem Aligned.text {chunks : List Bytes} (h : s.Aligned chunks) {k n : Nat} {text : Bytes}
    (hk : (answers s.log)[k]? = some (n, text)) :
    (frames s.options.sentinel chunks)[k]? = some text ∨
      s.childGone = true ∧ (frames s.options.sentinel chunks).length = k ∧
        text = remainder s.options.sentinel chunks ∧
        ∃ i c, n = i + 1 ∧ s.calls[i]? = some c ∧ c.last = true := by
  obtain ⟨read, rfl, hcut⟩ := h
  rcases hcut.received with hframes | ⟨hgone, i, c, before, hc, hlast, htail, hbefore⟩
  · refine .inl (getElem?_of_isPrefix (hframes.trans (frames_prefix_append _ _ _)) ?_)
    simp [hk]
  · have hstdout : s.child.stdout = [] := by
      refine (hcut.ended ?_).1
      intro sanitizer framer offered hpump
      simp [childGone, hpump] at hgone
    rw [hstdout, List.append_nil, ← hbefore]
    rw [htail] at hk
    rcases Nat.lt_or_ge k before.length with hlt | hge
    · rw [List.getElem?_append_left hlt] at hk
      exact .inl (by simp [hk])
    · -- Only the last text that was received is behind all frames.
      have hlen := (List.getElem?_eq_some_iff.1 hk).1
      simp only [List.length_append, List.length_singleton] at hlen
      obtain rfl : k = before.length := by omega
      rw [List.getElem?_concat_length] at hk
      obtain ⟨rfl, rfl⟩ := Prod.mk.inj (Option.some.inj hk)
      exact .inr ⟨hgone, by simp, rfl, i, c, rfl, hc, hlast⟩

/-- The call at place `i` is the one whose command was written as the `k`-th, counted from 1. -/
def NthWritten (s : Session) (k i : Nat) : Prop :=
  ∃ j line, k = j + 1 ∧ (writes s.log)[j]? = some (i + 1, line)

/-- What is received in a place is for the command that was written in that place. -/
theorem Paired.nthWritten (h : s.Paired) {k n : Nat} {text : Bytes}
    (hk : (answers s.log)[k]? = some (n, text)) :
    k = 0 ∧ n = 0 ∨ ∃ j line, k = j + 1 ∧ (writes s.log)[j]? = some (n, line) := by
  have hnumber : (0 :: (writes s.log).map Prod.fst)[k]? = some n :=
    getElem?_of_isPrefix h.worker.behind.1 (by simp [hk])
  cases k with
  | zero => exact .inl ⟨rfl, by simpa [eq_comm] using hnumber⟩
  | succ j =>
      rw [List.getElem?_cons_succ, List.getElem?_map] at hnumber
      obtain ⟨⟨m, line⟩, hj, rfl⟩ := Option.map_eq_some_iff.1 hnumber
      exact .inr ⟨j, line, rfl, hj⟩

theorem NthWritten.call_unique {k i i' : Nat} (h : s.NthWritten k i) (h' : s.NthWritten k i') :
    i = i' := by
  obtain ⟨j, line, rfl, hj⟩ := h
  obtain ⟨j', line', hk, hj'⟩ := h'
  obtain rfl : j = j' := by omega
  rw [hj] at hj'
  obtain ⟨hi, -⟩ := Prod.mk.inj (Option.some.inj hj')
  omega

theorem Written.place_unique (h : s.Written) {k k' i : Nat} (hk : s.NthWritten k i)
    (hk' : s.NthWritten k' i) : k = k' := by
  obtain ⟨j, line, rfl, hj⟩ := hk
  obtain ⟨j', line', rfl, hj'⟩ := hk'
  have hnumber : ((writes s.log).map Prod.fst)[j]? = some (i + 1) := by simp [hj]
  have hnumber' : ((writes s.log).map Prod.fst)[j']? = some (i + 1) := by simp [hj']
  obtain ⟨hlt, heq⟩ := List.getElem?_eq_some_iff.1 hnumber
  obtain ⟨hlt', heq'⟩ := List.getElem?_eq_some_iff.1 hnumber'
  have hrising := List.pairwise_iff_getElem.1 h.rising
  rcases Nat.lt_trichotomy j j' with hjj | rfl | hjj
  · have := hrising j j' hlt hlt' hjj
    omega
  · rfl
  · have := hrising j' j hlt' hlt hjj
    omega

/-! ### The alignment -/

/-- **The alignment of frames and commands.**  After every play, let `f` be the frames cut from all
that was printed, and count the calls whose commands were written from 1.  A call that ended with a
frame is the `k`-th of them for some `k`, and it ended with the frame `f k`, given up or not; only
the last command may instead have ended with what was left of the output, when the subprocess was
gone and there was no frame `f k`.  The number `k` and the call determine each other, so no frame
goes to two calls.  The frame `f 0` was received for no call, and each text received after it was
delivered to the call in whose place it came. -/
theorem frame_of_answered (options : Options) (acts : List Act) :
    let s := (new options).play acts
    let f := frames options.sentinel ((new options).printed acts)
    let tail := remainder options.sentinel ((new options).printed acts)
    (∀ i c frame, s.calls[i]? = some c → c.outcome = some (.answered frame) →
      ∃ k, s.NthWritten k i ∧
        ((∃ text, f[k]? = some text ∧ frame = classify text) ∨
          c.last = true ∧ s.childGone = true ∧ f.length = k ∧ frame = classify tail)) ∧
    (∀ k i j, s.NthWritten k i → s.NthWritten k j → i = j) ∧
    (∀ k l i, s.NthWritten k i → s.NthWritten l i → k = l) ∧
    (∀ i, ¬ s.NthWritten 0 i) ∧
    (∀ n text, (answers s.log)[0]? = some (n, text) → n = 0 ∧ f[0]? = some text) ∧
    (∀ k n text, (answers s.log)[k + 1]? = some (n, text) →
      ∃ i, n = i + 1 ∧ s.NthWritten (k + 1) i ∧
        s.outcome? i = some (.answered (classify text))) := by
  intro s f tail
  have haligned : s.Aligned ((new options).printed acts) := aligned_play options acts
  have hwritten : s.Written := written_play options acts
  have hpaired : s.Paired := paired_play options acts
  have hdelivered : s.Delivered := delivered_play options acts
  have hoptions : s.options = options := options_play (tidy_new options) acts
  refine ⟨?_, fun k i j => NthWritten.call_unique, fun k l i => hwritten.place_unique, ?_, ?_, ?_⟩
  · intro i c frame hc ho
    obtain ⟨text, hmem, rfl⟩ := hdelivered.answered i frame (by rw [outcome?_of_call hc, ho])
    obtain ⟨k, hk⟩ := List.mem_iff_getElem?.1 hmem
    rcases hpaired.nthWritten hk with ⟨-, hzero⟩ | hwrites
    · cases hzero
    · refine ⟨k, hwrites, ?_⟩
      have htext := haligned.text hk
      rw [hoptions] at htext
      rcases htext with hframe | ⟨hgone, hlen, rfl, i', c', hi, hc', hlast⟩
      · exact .inl ⟨text, hframe, rfl⟩
      · obtain rfl : i = i' := by omega
        rw [hc] at hc'
        cases hc'
        exact .inr ⟨hlast, hgone, hlen, rfl⟩
  · rintro i ⟨j, line, hzero, -⟩
    cases hzero
  · intro n text hk
    rcases hpaired.nthWritten hk with ⟨-, rfl⟩ | ⟨j, line, hzero, -⟩
    · have htext := haligned.text hk
      rw [hoptions] at htext
      rcases htext with hframe | ⟨-, -, -, i, c, hi, -⟩
      · exact ⟨rfl, hframe⟩
      · cases hi
    · cases hzero
  · intro k n text hk
    rcases hpaired.nthWritten hk with ⟨hzero, -⟩ | ⟨j, line, hj, hline⟩
    · cases hzero
    · obtain ⟨i, c, -, hseq, hp⟩ := hwritten.lines _ (List.mem_of_getElem? hline)
      obtain ⟨rfl, rfl⟩ := Prod.mk.inj hp
      rw [hseq] at hk hline
      exact ⟨i, hseq, ⟨j, _, hj, hline⟩, hdelivered.received i text (List.mem_of_getElem? hk)⟩

end Session

end ReplBridge.Repl
