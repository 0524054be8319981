import ReplBridge.Proofs.Repl.Session.Ledger

/-!
**Commands go out in the order in which they came, one at a time.**

The log shows what was written to the subprocess and what was received from it.  Set against the
ledger of calls it shows an order: written numbers rise, each is the number of an accepted call with
that call's command as its line, and a frame is received for what was written last.  So nothing is
written while a written command has no frame, and nothing before the text that precedes the first
prompt was taken.

Main definitions:

* `Session.Written` — what the log says of written commands;
* `Repl.Worker.Paired` — how far received frames are behind written commands, by what the worker
  does;
* `Session.Delivered` — received frames and outcomes are the same thing.

Main results:

* `Session.written_play`, `Session.paired_play`, `Session.delivered_play` — all of this holds after
  every play;
* `Session.one_command_in_flight` — **the order of commands**.
-/

set_option autoImplicit false

namespace ReplBridge.Repl

namespace Session

/-! ### Written commands -/

/-- **What the log says of written commands.** -/
structure Written (s : Session) : Prop where
  /-- Each is the command of the call with its number, and a line feed. -/
  lines : ∀ p ∈ writes s.log, ∃ i c, s.calls[i]? = some c ∧ c.seq = i + 1 ∧
    p = (c.seq, c.command ++ [Bytes.newline])
  /-- Their numbers rise. -/
  rising : ((writes s.log).map Prod.fst).Pairwise (· < ·)
  /-- They were submitted before all calls that are queued. -/
  before : ∀ p ∈ writes s.log, ∀ q ∈ s.queue, p.1 ≤ q

theorem written_new (options : Options) : (new options).Written :=
  ⟨by simp [new], by simp [new], by simp [new]⟩

/-- Where nothing is written and the queue only loses calls, nothing is to be shown. -/
theorem Written.keep {s s' : Session} (h : s.Written) (hkept : Kept s.calls s'.calls)
    (hwrites : writes s'.log = writes s.log) (hqueue : ∀ q ∈ s'.queue, q ∈ s.queue) :
    s'.Written := by
  refine ⟨?_, by rw [hwrites]; exact h.rising, ?_⟩
  · intro p hp
    obtain ⟨i, c, hc, hseq, rfl⟩ := h.lines p (hwrites ▸ hp)
    obtain ⟨c', hc', hgrows⟩ := hkept i c hc
    exact ⟨i, c', hc', hgrows.seq.trans hseq, by rw [hgrows.seq, hgrows.command]⟩
  · intro p hp q hq
    exact h.before p (hwrites ▸ hp) q (hqueue q hq)

/-- **Changes keep the order of written commands.** -/
theorem Written.change {s s' : Session} {l : Label} (h : s.Written) (ht : s.Tidy)
    (hn : s.Numbered) (hp : s.Placed) (hc : s.Change l s') : s'.Written := by
  have hkept := hc.kept
  cases hc with
  | aside | ticked | printed | starting | stranded | launched | announced | rejected | gaveUp
  | greeted | overtaken | answered | outlived | failed | expired | stopped | read | dropped
  | drained | departed =>
      exact h.keep hkept (by simp) fun _ => id
  | ended | refused | parted => exact h.keep hkept (by simp) (by simp)
  | skipped hworker hqueue =>
      exact h.keep hkept rfl fun q hq => hqueue ▸ List.mem_cons_of_mem _ hq
  | accepted command last hopen =>
      have hqueued : Written { s with
          calls := s.calls ++ [{ command, last, seq := s.accepted + 1 }] } :=
        h.keep hkept rfl fun _ => id
      refine ⟨hqueued.lines, hqueued.rising, ?_⟩
      intro p hp q hq
      rcases List.mem_append.1 hq with hq | hq
      · exact h.before p hp q hq
      · -- The new call stands behind all calls there were, so behind the written ones.
        obtain ⟨i, c, hc, hseq, rfl⟩ := h.lines p hp
        have hlt := (List.getElem?_eq_some_iff.1 hc).1
        rw [List.mem_singleton.1 hq, hseq]
        exact hlt
  | @wrote call rest c hworker hqueue hcall hwaits hfree =>
      have hwaiting : s.Waits call := .inl (by simp [hqueue])
      have hseq := (hn.waiting hp hcall hwaiting).2
      have hsorted := ht.sorted
      rw [hqueue] at hsorted
      refine ⟨?_, ?_, ?_⟩
      · intro p hp
        simp only [writes_append, writes_cons_recorded, writes_cons_wrote, writes_nil] at hp
        rcases List.mem_append.1 hp with hp | hp
        · exact h.lines p hp
        · exact ⟨call, c, hcall, hseq, List.mem_singleton.1 hp⟩
      · simp only [writes_append, writes_cons_recorded, writes_cons_wrote, writes_nil,
          List.map_append, List.map_cons, List.map_nil]
        refine List.pairwise_append.2 ⟨h.rising, List.pairwise_singleton _ _, ?_⟩
        intro n hn m hm
        obtain ⟨p, hp, rfl⟩ := List.mem_map.1 hn
        have hle := h.before p hp call (by simp [hqueue])
        rw [List.mem_singleton.1 hm, hseq]
        exact Nat.lt_succ_of_le hle
      · intro p hp q hq
        have hlt := (List.pairwise_cons.1 hsorted).1 q hq
        simp only [writes_append, writes_cons_recorded, writes_cons_wrote, writes_nil] at hp
        rcases List.mem_append.1 hp with hp | hp
        · exact h.before p hp q (by simp [hqueue, hq])
        · rw [List.mem_singleton.1 hp, hseq]
          exact hlt

/-- Written commands are in order after every play. -/
theorem written_play (options : Options) (acts : List Act) : ((new options).play acts).Written :=
  ledger_induction (P := fun _ t => t.Written) (fun ht hn hp h hc => h.change ht hn hp hc) options
    (written_new options) acts

/-! ### Received frames -/

end Session

/-- **How far received frames are behind written commands**, given by the numbers of both.  The text
before the first prompt has number 0, so a worker that waits for a command has received one frame
more than it wrote commands. -/
def Worker.Paired (received written : List Nat) : Worker → Prop
  | .off => received <+: 0 :: written ∧ written.length ≤ received.length
  | .greeting => received = [] ∧ written = []
  | .idle => received = 0 :: written
  | .awaiting call _ => received ++ [call + 1] = 0 :: written

/-- Whatever the worker does, frames are received in the order of writing, and at most one is
missing. -/
theorem Worker.Paired.behind {received written : List Nat} {w : Worker}
    (h : w.Paired received written) :
    received <+: 0 :: written ∧ written.length ≤ received.length := by
  cases w with
  | off => exact h
  | greeting =>
      obtain ⟨rfl, rfl⟩ := h
      exact ⟨List.nil_prefix, Nat.le_refl _⟩
  | idle =>
      rw [show received = 0 :: written from h]
      exact ⟨List.prefix_rfl, Nat.le_succ _⟩
  | awaiting call deadline =>
      have h : received ++ [call + 1] = 0 :: written := h
      have hlen := congrArg List.length h
      simp only [List.length_append, List.length_cons, List.length_nil] at hlen
      exact ⟨h ▸ List.prefix_append _ _, by omega⟩

namespace Session

variable {s s' : Session} {l : Label}

/-- **Frames are received one by one for what was written.** -/
structure Paired (s : Session) : Prop where
  worker : s.worker.Paired ((answers s.log).map Prod.fst) ((writes s.log).map Prod.fst)
  /-- Nothing goes either way before there is a subprocess. -/
  silent : s.launched = none → answers s.log = [] ∧ writes s.log = []

theorem paired_new (options : Options) : (new options).Paired :=
  ⟨⟨by simp [new], by simp [new]⟩, fun _ => ⟨rfl, rfl⟩⟩

theorem Placed.launched_of_worker (h : s.Placed) (hworker : s.worker ≠ .off) : s.launched ≠ none :=
  fun hl => hworker (h.off hl)

/-- **Changes keep frames and commands paired.** -/
theorem Paired.change (h : s.Paired) (hn : s.Numbered) (hp : s.Placed) (hc : s.Change l s') :
    s'.Paired := by
  obtain ⟨hpaired, hsilent⟩ := h
  have hbusy (hworker : s.worker ≠ .off) {P : Prop} : s.launched = none → P :=
    fun hl => absurd hl (hp.launched_of_worker hworker)
  cases hc with
  | aside | starting | accepted | rejected | gaveUp | ended =>
      exact ⟨by simpa using hpaired, by simpa using hsilent⟩
  | ticked | printed | stranded | announced | skipped | read | dropped | drained | departed =>
      exact ⟨hpaired, hsilent⟩
  | launched manner complaints hlaunching =>
      obtain ⟨hanswers, hwrites⟩ := hsilent (hp.early (.inr hlaunching))
      exact ⟨by simp [Worker.Paired, hanswers, hwrites], by simp⟩
  | greeted hworker =>
      rw [hworker] at hpaired
      obtain ⟨hanswers, hwrites⟩ := hpaired
      exact ⟨by simp [Worker.Paired, hanswers, hwrites], hbusy (by simp [hworker])⟩
  | overtaken hworker =>
      rw [hworker] at hpaired
      obtain ⟨hanswers, hwrites⟩ := hpaired
      exact ⟨by simp [Worker.Paired, hanswers, hwrites], hbusy (by simp [hworker])⟩
  | @wrote call rest c hworker hqueue hcall =>
      have hseq := (hn.waiting hp hcall (.inl (by simp [hqueue]))).2
      rw [hworker] at hpaired
      have hpaired : (answers s.log).map Prod.fst = 0 :: (writes s.log).map Prod.fst := hpaired
      exact ⟨by simp [Worker.Paired, hpaired, hseq], hbusy (by simp [hworker])⟩
  | refused hworker =>
      have hbehind := hpaired.behind
      exact ⟨by simpa [Worker.Paired] using hbehind, hbusy (by simp [hworker])⟩
  | @answered call deadline c _ _ _ _ hworker hopen hpump hcall =>
      have hseq := (hn.waiting hp hcall (.inr ⟨deadline, hworker⟩)).2
      rw [hworker] at hpaired
      exact ⟨by simpa [Worker.Paired, hseq] using hpaired, hbusy (by simp [hworker])⟩
  | @parted call deadline c _ _ hworker hopen hpump hcall =>
      have hseq := (hn.waiting hp hcall (.inr ⟨deadline, hworker⟩)).2
      rw [hworker] at hpaired
      have hpaired : Worker.idle.Paired ((answers s.log).map Prod.fst ++ [call + 1])
        ((writes s.log).map Prod.fst) := hpaired
      exact ⟨by simpa [Worker.Paired, hseq] using hpaired.behind, hbusy (by simp [hworker])⟩
  | @outlived call deadline c _ _ hworker hover hunheard hpump hcall =>
      have hseq := (hn.waiting hp hcall (.inr ⟨deadline, hworker⟩)).2
      rw [hworker] at hpaired
      have hpaired : Worker.idle.Paired ((answers s.log).map Prod.fst ++ [call + 1])
        ((writes s.log).map Prod.fst) := hpaired
      exact ⟨by simpa [Worker.Paired, hseq] using hpaired.behind, hbusy (by simp [hworker])⟩
  | failed _ hworker | expired hworker => exact ⟨hpaired.behind, hbusy (by simp [hworker])⟩
  | stopped hworker =>
      exact ⟨hpaired.behind, hbusy (by rcases hworker with hw | hw <;> simp [hw])⟩

/-- Frames and commands are paired after every play. -/
theorem paired_play (options : Options) (acts : List Act) : ((new options).play acts).Paired :=
  ledger_induction (P := fun _ t => t.Paired) (fun _ hn hp h hc => h.change hn hp hc) options
    (paired_new options) acts

/-! ### Frames and outcomes -/

/-- **Received frames and outcomes are the same thing.** -/
structure Delivered (s : Session) : Prop where
  /-- A frame received for a number is the outcome of the call with that number. -/
  received : ∀ i text, (i + 1, text) ∈ answers s.log →
    s.outcome? i = some (.answered (classify text))
  /-- A call that ended with a frame received one. -/
  answered : ∀ i frame, s.outcome? i = some (.answered frame) →
    ∃ text, (i + 1, text) ∈ answers s.log ∧ frame = classify text

theorem delivered_new (options : Options) : (new options).Delivered :=
  ⟨by simp [new], by simp [new, outcome?]⟩

/-- **What a change receives**: nothing, the text before the first prompt, or the frame of the call
in flight, which ends with it. -/
theorem Change.answers_cases (h : s.Change l s') (ht : s.Tidy) :
    answers s'.log = answers s.log ∨
      (∃ text, answers s'.log = answers s.log ++ [(0, text)]) ∨
      ∃ call deadline c text, s.worker = .awaiting call deadline ∧ s.calls[call]? = some c ∧
        answers s'.log = answers s.log ++ [(c.seq, text)] ∧
        s'.calls[call]? = some (c.finish (.answered (classify text))) := by
  cases h with
  | @greeted _ _ banner | @overtaken _ _ banner => exact .inr (.inl ⟨banner, by simp⟩)
  | @answered call deadline c _ _ frame _ hworker hunheard hpump hcall =>
      exact .inr (.inr ⟨call, deadline, c, frame, hworker, hcall, by simp, by simp [hcall]⟩)
  | @parted call deadline c tail _ hworker hopen hpump hcall =>
      refine .inr (.inr ⟨call, deadline, c, tail, hworker, hcall, by simp, ?_⟩)
      -- The queued calls fail first, and the call in flight is not among them.
      simp [getElem?_finishAll, hcall, ht.awaited_not_queued hworker]
  | @outlived call deadline c tail _ hworker hover hunheard hpump hcall =>
      exact .inr (.inr ⟨call, deadline, c, tail, hworker, hcall, by simp, by simp [hcall]⟩)
  | _ => exact .inl (by simp)

/-- **Changes deliver what they receive.** -/
theorem Delivered.change (h : s.Delivered) (ht : s.Tidy) (hn : s.Numbered) (hp : s.Placed)
    (hc : s.Change l s') : s'.Delivered := by
  have hanswers := hc.answers_cases ht
  refine ⟨?_, ?_⟩
  · intro i text hmem
    have hold : (i + 1, text) ∈ answers s.log → s'.outcome? i = some (.answered (classify text)) :=
      fun hmem => hc.outcome? (h.received i text hmem)
    rcases hanswers with hsame | ⟨banner, hbanner⟩ |
      ⟨call, deadline, c, frame, hworker, hcall, hframe, hcall'⟩
    · exact hold (hsame ▸ hmem)
    · -- What was received has number 0, which no call has.
      rw [hbanner] at hmem
      exact hold (by simpa using hmem)
    · have hw : s.Waits call := .inr ⟨deadline, hworker⟩
      rw [hframe, (hn.waiting hp hcall hw).2] at hmem
      rcases List.mem_append.1 hmem with hmem | hmem
      · exact hold hmem
      · obtain ⟨hi, rfl⟩ := Prod.mk.inj (List.mem_singleton.1 hmem)
        obtain rfl : i = call := by omega
        rw [outcome?_of_call hcall', Call.finish_of_none ((hp.undone i c hcall).2 hw)]
  · intro i frame hframe
    have hgrows : ∀ p ∈ answers s.log, p ∈ answers s'.log := by
      intro p hmem
      rcases hanswers with heq | ⟨_, heq⟩ | ⟨_, _, _, _, _, _, heq, _⟩ <;> simp [heq, hmem]
    obtain ⟨c', hc', ho⟩ := call_of_outcome? hframe
    rcases hc.ends hc' ho with ⟨c, hci, hold⟩ | hends
    · obtain ⟨text, hmem, rfl⟩ := h.answered i frame (by rw [outcome?_of_call hci, hold])
      exact ⟨text, hgrows _ hmem, rfl⟩
    · generalize ho' : Outcome.answered frame = o at hends
      cases hends with
      | @answered deadline text hworker hlog =>
          cases ho'
          have hw : s.Waits i := .inr ⟨deadline, hworker⟩
          obtain ⟨c, hci⟩ := ht.call_of_waits hw
          have hseq := (hn.waiting hp hci hw).2
          exact ⟨text, by simp [hlog, (hc.grown hci hc').seq, hseq], rfl⟩
      | canceled | timedOut | terminated => cases ho'

theorem delivered_play (options : Options) (acts : List Act) :
    ((new options).play acts).Delivered :=
  ledger_induction (P := fun _ t => t.Delivered) (fun ht hn hp h hc => h.change ht hn hp hc) options
    (delivered_new options) acts

/-! ### The order of commands -/

theorem Numbered.seqs (h : s.Numbered) :
    s.calls.map Call.seq =
      List.range' 1 s.accepted ++ List.replicate (s.calls.length - s.accepted) 0 := by
  have hbound := h.bound
  refine List.ext_getElem (by simp; omega) ?_
  intro i hi _
  have hi : i < s.calls.length := by simpa using hi
  have hc : s.calls[i]? = some s.calls[i] := List.getElem?_eq_getElem hi
  by_cases hlt : i < s.accepted
  · rw [List.getElem_map, h.accepted i _ hc hlt, List.getElem_append_left (by simpa using hlt),
      List.getElem_range']
    omega
  · have hle := Nat.le_of_not_lt hlt
    rw [List.getElem_map, (h.rejected i _ hc hle).1, List.getElem_append_right (by simpa using hle),
      List.getElem_replicate]

/-- A submitted call gets the next number, or none when the session is over. -/
theorem Numbered.submit (h : s.Numbered) (command : Bytes) (last : Bool) :
    ∃ c : Call, (s.submit command last).calls = s.calls ++ [c] ∧ c.command = command ∧
      c.last = last ∧ c.seq = if s.reason?.isSome then 0 else s.calls.length + 1 := by
  unfold Session.submit
  cases hr : s.reason? with
  | none =>
      have hstate := reason?_eq_none_iff.1 hr
      rw [h.opened hr]
      split
      · rename_i r hr'
        exact absurd hr' (hstate r)
      · exact ⟨_, rfl, rfl, rfl, rfl⟩
  | some r =>
      rw [state_of_reason? hr]
      exact ⟨_, rfl, rfl, rfl, rfl⟩

/-- **What a change writes**: nothing, or the first command of the queue. -/
theorem Change.writes_cases (h : s.Change l s') :
    writes s'.log = writes s.log ∨
      l = .taken ∧ s.worker = .idle ∧ ∃ call rest c, s.queue = call :: rest ∧
        s.calls[call]? = some c ∧ c.abandoned = false ∧
        writes s'.log = writes s.log ++ [(c.seq, c.command ++ [Bytes.newline])] := by
  cases h with
  | @wrote call rest c hworker hqueue hcall hwaits hfree =>
      exact .inr ⟨rfl, hworker, call, rest, c, hqueue, hcall, hwaits, by simp⟩
  | _ => exact .inl (by simp)

theorem Calm.writes_eq (h : s.Calm s') : writes s'.log = writes s.log := by
  induction h with
  | refl => rfl
  | tail _ hc ih =>
      rcases hc.writes_cases with hsame | ⟨hl, -⟩
      · exact hsame.trans ih
      · cases hl

/-- **What an act writes**: nothing, or the first command of the queue, by a worker that waits for
nothing else. -/
theorem perform_writes (ht : s.Tidy) (a : Act) :
    writes (s.perform a).log = writes s.log ∨
      s.worker = .idle ∧ ∃ call rest c, s.queue = call :: rest ∧ s.calls[call]? = some c ∧
        c.abandoned = false ∧
        writes (s.perform a).log = writes s.log ++ [(c.seq, c.command ++ [Bytes.newline])] := by
  rcases perform_cases ht a with ⟨hcalm, -⟩ | ⟨chunks, hc, -⟩ | ⟨time, rfl⟩ | ⟨-, hc⟩ |
    ⟨-, call, deadline, s₁, s₂, -, -, hbefore, hc, hafter⟩
  · exact .inl hcalm.writes_eq
  · rcases hc.writes_cases with hsame | ⟨hl, -⟩
    · exact .inl hsame
    · cases hl
  · exact .inl rfl
  · rcases hc.writes_cases with hsame | ⟨-, hwrote⟩
    · exact .inl hsame
    · exact .inr hwrote
  · rcases hc.writes_cases with hsame | ⟨hl, -⟩
    · exact .inl (hafter.writes_eq.trans (hsame.trans hbefore.writes_eq))
    · cases hl

/-- A worker that waits for a command has the frames of all commands it wrote. -/
theorem Paired.answered_of_idle (h : s.Paired) (hworker : s.worker = .idle) :
    (∃ banner, (0, banner) ∈ answers s.log) ∧
      ∀ p ∈ writes s.log, ∃ text, (p.1, text) ∈ answers s.log := by
  have hpaired := h.worker
  rw [hworker] at hpaired
  have hpaired : (answers s.log).map Prod.fst = 0 :: (writes s.log).map Prod.fst := hpaired
  have hreceived : ∀ n ∈ 0 :: (writes s.log).map Prod.fst, ∃ text, (n, text) ∈ answers s.log := by
    intro n hn
    rw [← hpaired] at hn
    obtain ⟨⟨m, text⟩, hmem, rfl⟩ := List.mem_map.1 hn
    exact ⟨text, hmem⟩
  refine ⟨hreceived 0 (by simp), ?_⟩
  intro p hp
  exact hreceived p.1 (List.mem_cons_of_mem _ (List.mem_map_of_mem hp))

/-- **The order of commands.**  After every play the accepted calls are those numbered 1, 2, 3, … in
the order of submission, and the others have number 0.  The commands that were written have rising
numbers, and each was written as its line.  Frames were received for the text before the first
prompt and then for the written commands in their order, of which at most the last has none.  And
whoever acts next, a command is written only when that first text and the frames of all written
commands were received and delivered. -/
theorem one_command_in_flight (options : Options) (acts : List Act) :
    let s := (new options).play acts
    (∃ rejected, s.calls.map Call.seq = List.range' 1 s.accepted ++ List.replicate rejected 0 ∧
      (s.reason? = none → rejected = 0)) ∧
    (∀ command last, ∃ c : Call, (s.submit command last).calls = s.calls ++ [c] ∧
      c.command = command ∧ c.last = last ∧
      c.seq = if s.reason?.isSome then 0 else s.calls.length + 1) ∧
    ((writes s.log).map Prod.fst).Pairwise (· < ·) ∧
    (∀ p ∈ writes s.log, ∃ c ∈ s.calls, 0 < c.seq ∧ p = (c.seq, c.command ++ [Bytes.newline])) ∧
    ((answers s.log).map Prod.fst <+: 0 :: (writes s.log).map Prod.fst ∧
      (writes s.log).length ≤ (answers s.log).length) ∧
    ∀ a, writes (s.perform a).log = writes s.log ∨
      ∃ call rest c, s.queue = call :: rest ∧ s.calls[call]? = some c ∧
        writes (s.perform a).log = writes s.log ++ [(c.seq, c.command ++ [Bytes.newline])] ∧
        (∃ banner, (0, banner) ∈ answers s.log) ∧
        ∀ p ∈ writes s.log, ∃ text, (p.1, text) ∈ answers s.log ∧
          s.outcome? (p.1 - 1) = some (.answered (classify text)) := by
  intro s
  have hnumbered : s.Numbered := numbered_play options acts
  have hwritten : s.Written := written_play options acts
  have hpaired : s.Paired := paired_play options acts
  have hdelivered : s.Delivered := delivered_play options acts
  have hlines : ∀ p ∈ writes s.log, ∃ c ∈ s.calls, 0 < c.seq ∧
      p = (c.seq, c.command ++ [Bytes.newline]) := by
    intro p hp
    obtain ⟨i, c, hc, hseq, rfl⟩ := hwritten.lines p hp
    exact ⟨c, List.mem_of_getElem? hc, by omega, rfl⟩
  refine ⟨⟨_, hnumbered.seqs, ?_⟩, hnumbered.submit, hwritten.rising, hlines, ?_, ?_⟩
  · intro hopen
    rw [hnumbered.opened hopen, Nat.sub_self]
  · simpa using hpaired.worker.behind
  · intro a
    rcases perform_writes (tidy_play (tidy_new options) acts) a with hsame |
      ⟨hidle, call, rest, c, hqueue, hcall, -, hwrote⟩
    · exact .inl hsame
    · obtain ⟨hbanner, hanswered⟩ := hpaired.answered_of_idle hidle
      refine .inr ⟨call, rest, c, hqueue, hcall, hwrote, hbanner, ?_⟩
      intro p hp
      obtain ⟨text, hmem⟩ := hanswered p hp
      obtain ⟨c', -, hpos, rfl⟩ := hlines p hp
      refine ⟨text, hmem, hdelivered.received _ text ?_⟩
      rwa [Nat.sub_add_cancel hpos]

end Session

end ReplBridge.Repl
