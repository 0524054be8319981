import ReplBridge.Proofs.Repl.Session.Order

/-!
**No call is left hanging.**

A call can end in few ways, and each leaves its mark: with a frame; canceled, when its caller had
given up before it was written; timed out, when it was in flight at its deadline; and otherwise with
word that the session is over.  Once a session that is over, or whose subprocess is gone, has come
to rest, every call has ended in one of these ways.

Main definitions:

* `Session.Accounted` — every outcome has left its mark;
* `Session.Told` — the calls of a queue wait, or were told why the session is over;
* `Session.Ended` — how a call has ended in a play.

Main results:

* `Session.rest_of_quiet` — at rest, with the session over or the subprocess gone, no call waits;
* `Session.timedOut_play` — **only the command in flight times out**, when its timer goes off;
* `Session.handed_over` — **the queue of a session that ends is told why**;
* `Session.all_calls_done` — **no call is left hanging**.
-/

set_option autoImplicit false

namespace ReplBridge.Repl.Session

variable {s s' : Session} {l : Label}

/-! ### Timing out -/

/-- A call times out only when it is in flight and has had its time. -/
theorem Change.timedOut (h : s.Change l s') {i : Nat} {after : Duration} {command : Bytes}
    (ho : s'.outcome? i = some (.failed (.timedOut after command))) :
    s.outcome? i = some (.failed (.timedOut after command)) ∨
      l = .expired i ∧ ∃ deadline, s.worker = .awaiting i deadline := by
  obtain ⟨c', hc', ho⟩ := call_of_outcome? ho
  rcases h.ends hc' ho with ⟨c, hc, hold⟩ | hends
  · exact .inl (by rw [outcome?_of_call hc, hold])
  · obtain ⟨hlabel, hworker, -⟩ := hends.of_timedOut
    exact .inr ⟨hlabel, hworker⟩

/-! ### Every outcome has left its mark -/

/-- The worker has stopped, and no launcher will set up another. -/
def Retired (s : Session) : Prop := s.worker = .off ∧ s.Returned

/-- **Every outcome has left its mark.** -/
structure Accounted (s : Session) : Prop where
  /-- Whoever was canceled had given up, and was never written. -/
  canceled : ∀ (i : Nat) (c : Call), s.calls[i]? = some c →
    c.outcome = some (.failed (.plain .canceled)) →
    c.abandoned = true ∧ i + 1 ∉ (writes s.log).map Prod.fst
  /-- Whoever timed out was told how long it had and for what, and the worker has stopped since. -/
  timedOut : ∀ (i : Nat) (c : Call) (after : Duration) (command : Bytes), s.calls[i]? = some c →
    c.outcome = some (.failed (.timedOut after command)) →
    after = s.options.commandTimeout ∧ command = c.command ∧ s.reason? ≠ none ∧ s.Retired
  /-- Only one call times out. -/
  once : ∀ (i j : Nat) (after after' : Duration) (command command' : Bytes),
    s.outcome? i = some (.failed (.timedOut after command)) →
    s.outcome? j = some (.failed (.timedOut after' command')) → i = j
  /-- All others who failed were told that the session is over. -/
  failed : ∀ (i : Nat) (c : Call) (cause : Failure), s.calls[i]? = some c →
    c.outcome = some (.failed cause) →
    cause = .plain .canceled ∨ (∃ after command, cause = .timedOut after command) ∨
      cause.wraps .terminated = true

theorem accounted_new (options : Options) : (new options).Accounted :=
  ⟨by simp [new], by simp [new], by simp [new, outcome?], by simp [new]⟩

/-- A worker that has stopped does not start again. -/
theorem Change.retired (h : s.Change l s') (hretired : s.Retired) : s'.Retired := by
  obtain ⟨hoff, hreturned⟩ := hretired
  refine ⟨?_, h.returned hreturned⟩
  cases h with
  | launched _ _ hlaunching =>
      rw [hreturned.2] at hlaunching
      cases hlaunching
  | greeted hworker | wrote hworker | answered hworker =>
      rw [hoff] at hworker
      cases hworker
  | overtaken | refused | parted | outlived | failed | expired | stopped => rfl
  | _ => exact hoff

/-- What was written before is not written again, and what is written has no outcome yet. -/
theorem Change.unwritten (h : s.Change l s') (hn : s.Numbered) (hp : s.Placed) {i : Nat} {c : Call}
    (hc : s.calls[i]? = some c) (hdone : c.outcome ≠ none)
    (hi : i + 1 ∉ (writes s.log).map Prod.fst) : i + 1 ∉ (writes s'.log).map Prod.fst := by
  rcases h.writes_cases with hsame | ⟨-, -, call, rest, c₁, hqueue, hcall, -, hwrote⟩
  · rwa [hsame]
  · have hwaits : s.Waits call := .inl (by simp [hqueue])
    have hseq := (hn.waiting hp hcall hwaits).2
    have hne : i ≠ call := by
      rintro rfl
      rw [hc] at hcall
      cases hcall
      exact hdone ((hp.undone i c hc).2 hwaits)
    rw [hwrote]
    simp only [List.map_append, List.map_cons, List.map_nil, List.mem_append, List.mem_singleton,
      not_or]
    exact ⟨hi, by omega⟩

/-- **Changes leave the mark of every outcome.** -/
theorem Accounted.change (h : s.Accounted) (ht : s.Tidy) (hn : s.Numbered) (hp : s.Placed)
    (hw : s.Written) (hc : s.Change l s') : s'.Accounted := by
  have hoptions : s'.options = s.options := by cases hc <;> rfl
  refine ⟨?_, ?_, ?_, ?_⟩
  · intro i c' hci' ho
    rcases hc.ends hci' ho with ⟨c, hci, hold⟩ | hends
    · obtain ⟨hgone, hnot⟩ := h.canceled i c hci hold
      exact ⟨(hc.grown hci hci').abandoned hgone, hc.unwritten hn hp hci (by simp [hold]) hnot⟩
    · obtain ⟨hgone, hqueue, hlog⟩ := hends.of_canceled
      refine ⟨hgone, ?_⟩
      rw [hlog]
      intro hmem
      obtain ⟨p, hp, hpi⟩ := List.mem_map.1 hmem
      have := hw.before p hp i hqueue
      omega
  · intro i c' after command hci' ho
    rcases hc.ends hci' ho with ⟨c, hci, hold⟩ | hends
    · obtain ⟨hafter, hcommand, hover, hoff⟩ := h.timedOut i c after command hci hold
      obtain ⟨r, hr⟩ := Option.ne_none_iff_exists'.1 hover
      exact ⟨by rw [hafter, hoptions], by rw [hcommand, (hc.grown hci hci').command],
        by simp [hc.reason? hr], hc.retired hoff⟩
    · obtain ⟨hlabel, ⟨deadline, hworker⟩, hover, hoff, rfl, rfl⟩ := hends.of_timedOut
      obtain ⟨r, hr⟩ := Option.ne_none_iff_exists'.1 hover
      have hreturned := hc.returned (ht.staged.working (by simp [hworker]))
      exact ⟨by rw [hoptions], rfl, by simp [hc.reason? hr], hoff, hreturned⟩
  · intro i j after after' command command' hi hj
    -- A call that timed out before has stopped the worker, so no other can time out now.
    have hstopped {k : Nat} {after : Duration} {command : Bytes}
        (hk : s.outcome? k = some (.failed (.timedOut after command))) : s.worker = .off := by
      obtain ⟨c, hck, ho⟩ := call_of_outcome? hk
      exact (h.timedOut k c after command hck ho).2.2.2.1
    rcases hc.timedOut hi with hi | ⟨hli, deadline, hworker⟩ <;>
      rcases hc.timedOut hj with hj | ⟨hlj, deadline', hworker'⟩
    · exact h.once i j after after' command command' hi hj
    · rw [hstopped hi] at hworker'
      cases hworker'
    · rw [hstopped hj] at hworker
      cases hworker
    · rw [hli] at hlj
      cases hlj
      rfl
  · intro i c' cause hci' ho
    rcases hc.ends hci' ho with ⟨c, hci, hold⟩ | hends
    · exact h.failed i c cause hci hold
    · cases hends with
      | canceled => exact .inl rfl
      | timedOut => exact .inr (.inl ⟨_, _, rfl⟩)
      | terminated r => exact .inr (.inr (Failure.wraps_ofTermination r))

/-- Every outcome has left its mark after every play. -/
theorem accounted_play (options : Options) (acts : List Act) :
    ((new options).play acts).Accounted :=
  (ledger_induction (P := fun _ t => t.Written ∧ t.Accounted)
    (fun ht hn hp h hc => ⟨h.1.change ht hn hp hc, h.2.change ht hn hp h.1 hc⟩) options
    ⟨written_new options, accounted_new options⟩ acts).2

theorem Calm.timedOut (h : s.Calm s') {i : Nat} {after : Duration} {command : Bytes}
    (ho : s'.outcome? i = some (.failed (.timedOut after command))) :
    s.outcome? i = some (.failed (.timedOut after command)) := by
  induction h with
  | refl => exact ho
  | tail _ hc ih =>
      rcases hc.timedOut ho with hold | ⟨hl, -⟩
      · exact ih hold
      · cases hl

/-- A call times out only in an act of the timer, when it is in flight and its deadline is
reached. -/
theorem perform_timedOut (ht : s.Tidy) (a : Act) {i : Nat} {after : Duration} {command : Bytes}
    (ho : (s.perform a).outcome? i = some (.failed (.timedOut after command))) :
    s.outcome? i = some (.failed (.timedOut after command)) ∨
      a = .timer ∧ ∃ deadline, s.worker = .awaiting i (some deadline) ∧ deadline ≤ s.now := by
  rcases perform_cases ht a with ⟨hcalm, -⟩ | ⟨chunks, hc, -⟩ | ⟨time, rfl⟩ | ⟨-, hc⟩ |
    ⟨rfl, call, deadline, s₁, s₂, hworker, hdue, hbefore, hc, hafter⟩
  · exact .inl (hcalm.timedOut ho)
  · rcases hc.timedOut ho with hold | ⟨hl, -⟩
    · exact .inl hold
    · cases hl
  · exact .inl ho
  · rcases hc.timedOut ho with hold | ⟨hl, -⟩
    · exact .inl hold
    · cases hl
  · rcases hc.timedOut (hafter.timedOut ho) with hold | ⟨hl, -⟩
    · exact .inl (hbefore.timedOut hold)
    · cases hl
      exact .inr ⟨rfl, deadline, hworker, hdue⟩

/-- **Only the command in flight times out**, when its timer goes off. -/
theorem timedOut_play (ht : s.Tidy) (acts : List Act) {i : Nat} {after : Duration} {command : Bytes}
    (hnot : s.outcome? i ≠ some (.failed (.timedOut after command)))
    (ho : (s.play acts).outcome? i = some (.failed (.timedOut after command))) :
    ∃ before rest deadline, acts = before ++ .timer :: rest ∧
      (s.play before).worker = .awaiting i (some deadline) ∧ deadline ≤ (s.play before).now := by
  obtain ⟨before, a, rest, rfl, hbefore, hthen⟩ :=
    exists_act (P := fun t => t.outcome? i = some (.failed (.timedOut after command))) hnot ho
  rcases perform_timedOut (tidy_play ht before) a hthen with hold | ⟨rfl, deadline, hflight, hdue⟩
  · exact absurd hold hbefore
  · exact ⟨before, rest, deadline, rfl, hflight, hdue⟩

/-! ### The queue of a session that ends -/

/-- The calls `queue` are queued, or were told why the session is over. -/
def Told (queue : List Nat) (s : Session) : Prop :=
  (s.reason? = none ∧ ∀ q ∈ queue, q ∈ s.queue) ∨
    ∃ r, s.reason? = some r ∧ ∀ q ∈ queue, s.outcome? q = some (.failed (.ofTermination r))

/-- Calls that wait get the outcome that all queued calls get. -/
theorem outcome?_finishAll (ht : s.Tidy) (hp : s.Placed) {o : Outcome} {q : Nat} (hq : q ∈ s.queue)
    (hcalls : s'.calls[q]? = (finishAll o s.queue s.calls)[q]?) : s'.outcome? q = some o := by
  obtain ⟨c, hc⟩ := ht.call_of_waits (.inl hq)
  have hnone := (hp.undone q c hc).2 (.inl hq)
  simp [outcome?_eq, hcalls, getElem?_finishAll, hc, hq, Call.finish_of_none hnone]

/-- **A session that ends tells its queue why.** -/
theorem Told.change {queue : List Nat} (h : s.Told queue) (ht : s.Tidy) (hp : s.Placed)
    (hl : l ≠ .taken) (hc : s.Change l s') : s'.Told queue := by
  rcases h with ⟨hopen, hqueued⟩ | ⟨r, hr, htold⟩
  · cases hc with
    | skipped | wrote => exact absurd rfl hl
    | aside | ticked | printed | stranded | launched | gaveUp | answered | read | dropped | drained
    | departed => exact .inl ⟨hopen, hqueued⟩
    | starting | greeted => exact .inl ⟨rfl, hqueued⟩
    | accepted => exact .inl ⟨hopen, fun q hq => List.mem_append_left _ (hqueued q hq)⟩
    | ended reason =>
        exact .inr ⟨reason, rfl, fun q hq => outcome?_finishAll ht hp (hqueued q hq) rfl⟩
    | refused =>
        exact .inr ⟨_, rfl, fun q hq => outcome?_finishAll ht hp (hqueued q hq) rfl⟩
    | parted hworker =>
        refine .inr ⟨_, rfl, fun q hq => outcome?_finishAll ht hp (hqueued q hq) ?_⟩
        -- The call in flight is not among those queued.
        refine List.getElem?_modify_ne _ _ ?_
        rintro rfl
        exact ht.awaited_not_queued hworker (hqueued _ hq)
    | rejected _ _ hover =>
        rw [hopen] at hover
        cases hover
    | announced hover | overtaken _ hover | outlived _ hover | failed _ _ hover | expired _ hover
    | stopped _ hover => exact absurd hopen hover
  · exact .inr ⟨r, hc.reason? hr, fun q hq => hc.outcome? (htold q hq)⟩

/-- Taking a call from the queue does not end the session. -/
theorem Change.taken_reason? (h : s.Change .taken s') : s'.reason? = s.reason? := by
  cases h with
  | skipped | wrote => rfl

theorem Told.calm {queue : List Nat} (h : s.Told queue) (ht : s.Tidy) (hp : s.Placed)
    (hc : s.Calm s') : s'.Told queue ∧ s'.Placed := by
  induction hc with
  | refl => exact ⟨h, hp⟩
  | tail hcalm hc ih =>
      have ht' := ht.calm hcalm
      exact ⟨ih.1.change ht' ih.2 (by simp) hc, ih.2.change ht' hc⟩

/-- **The queue of a session that ends is told why**: when it ends in an act, all calls that were
queued before the act get the failure that goes with the reason. -/
theorem handed_over (ht : s.Tidy) (hp : s.Placed) (hopen : s.reason? = none) (a : Act) {r : Failure}
    (hr : (s.perform a).reason? = some r) :
    ∀ q ∈ s.queue, (s.perform a).outcome? q = some (.failed (.ofTermination r)) := by
  have hqueued : s.Told s.queue := .inl ⟨hopen, fun _ => id⟩
  have htold : (s.perform a).Told s.queue := by
    rcases perform_cases ht a with ⟨hcalm, -⟩ | ⟨chunks, hc, -⟩ | ⟨time, rfl⟩ | ⟨-, hc⟩ |
      ⟨-, call, deadline, s₁, s₂, -, -, hbefore, hc, hafter⟩
    · exact (hqueued.calm ht hp hcalm).1
    · exact hqueued.change ht hp (by simp) hc
    · exact hqueued
    · rw [hc.taken_reason?, hopen] at hr
      cases hr
    · obtain ⟨htold₁, hp₁⟩ := hqueued.calm ht hp hbefore
      have ht₁ := ht.calm hbefore
      have htold₂ := htold₁.change ht₁ hp₁ (by simp) hc
      exact (htold₂.calm (ht₁.change hc) (hp₁.change ht₁ hc) hafter).1
  rcases htold with ⟨hnone, -⟩ | ⟨r', hr', htold⟩
  · rw [hnone] at hr
    cases hr
  · rw [hr] at hr'
    cases hr'
    exact htold

/-- Calls that come after the end of the session are turned away. -/
theorem accepted_play (ht : s.Tidy) {r : Failure} (hr : s.reason? = some r) (acts : List Act) :
    (s.play acts).accepted = s.accepted := by
  refine (play_induction (P := fun _ t => t.reason? = some r ∧ t.accepted = s.accepted) ?_ [] ht
    ⟨hr, rfl⟩ acts).2.2
  intro chunks t t' l _ h hc
  refine ⟨hc.reason? h.1, ?_⟩
  cases hc with
  | accepted _ _ hopen =>
      rw [hopen] at h
      cases h.1
  | _ => exact h.2

theorem exists_end (options : Options) {acts : List Act} {r : Failure}
    (hr : ((new options).play acts).reason? = some r) :
    ∃ before a rest, acts = before ++ a :: rest ∧ ((new options).play before).reason? = none ∧
      ((new options).play (before ++ [a])).reason? = some r := by
  have hover : ((new options).play acts).reason? ≠ none := by simp [hr]
  obtain ⟨before, a, rest, rfl, hopen, hthen⟩ :=
    exists_act (P := fun t => t.reason? ≠ none) (s := new options) (by simp [new, reason?]) hover
  refine ⟨before, a, rest, rfl, Decidable.not_not.1 hopen, ?_⟩
  obtain ⟨r', hr'⟩ := Option.ne_none_iff_exists'.1 hthen
  have hlater := reason?_play (tidy_play (tidy_new options) (before ++ [a]))
    (r := r') (by simpa using hr') rest
  simp only [play_append, play_cons, play_nil] at hlater hr
  rw [hr] at hlater
  cases hlater
  simpa using hr'

/-! ### At rest -/

/-- The output of a subprocess that is gone has ended. -/
theorem ended_play (options : Options) (acts : List Act) :
    ((new options).play acts).child.exit ≠ none →
      ((new options).play acts).child.stdoutEnded = true := by
  refine ledger_induction (P := fun _ t => t.child.exit ≠ none → t.child.stdoutEnded = true) ?_
    options (by simp [new]) acts
  intro chunks s s' l _ _ _ h hc
  cases hc with
  | aside complaints clients lines hchild =>
      intro hexit
      rcases hchild.exit with hsame | ⟨-, hended⟩
      · exact hchild.ended (h (hsame ▸ hexit))
      · exact hended
  | _ => exact h

theorem quiet_parts (h : s.move? = none) :
    s.announce? = none ∧ s.workerMove? = none ∧ s.pumpMove? = none ∧
      s.complaintsMove? = none := by
  unfold move? at h
  split at h
  · cases h
  · split at h
    · cases h
    · split at h
      · cases h
      · split at h
        · cases h
        · exact ⟨‹_›, ‹_›, ‹_›, ‹_›⟩

/-- At rest, an end that has come was announced. -/
theorem done_of_quiet (hover : s.reason? ≠ none) (hquiet : s.announce? = none) : s.done = true := by
  obtain ⟨r, hr⟩ := Option.ne_none_iff_exists'.1 hover
  cases hdone : s.done with
  | true => rfl
  | false => simp [announce?, hr, hdone] at hquiet

theorem off_of_quiet (ht : s.Tidy) (hover : s.reason? ≠ none) (hannounced : s.announce? = none)
    (hquiet : s.workerMove? = none) : s.worker = .off := by
  obtain ⟨r, hr⟩ := Option.ne_none_iff_exists'.1 hover
  have hknown : s.announced? = some r := by
    simp [announced?, done_of_quiet hover hannounced, hr]
  have hqueue := ht.emptied hover
  cases hworker : s.worker with
  | off => rfl
  | greeting => simp [workerMove?, hworker, hknown] at hquiet
  | idle => simp [workerMove?, hworker, hqueue, hknown] at hquiet
  | awaiting call deadline => simp [workerMove?, hworker, hknown] at hquiet

/-- The reader of standard error follows the subprocess. -/
theorem complaints_ended_of_quiet (hlaunched : s.launched ≠ none) (hexit : s.child.exit ≠ none)
    (hquiet : s.complaintsMove? = none) : s.complaints.ended = true := by
  obtain ⟨manner, hmanner⟩ := Option.ne_none_iff_exists'.1 hlaunched
  obtain ⟨status, hstatus⟩ := Option.ne_none_iff_exists'.1 hexit
  cases hended : s.complaints.ended with
  | true => rfl
  | false =>
      cases hstderr : s.child.stderr with
      | nil => simp [complaintsMove?, hmanner, hended, hstderr, hstatus] at hquiet
      | cons chunk rest => simp [complaintsMove?, hmanner, hended, hstderr] at hquiet

/-- The reader of standard output follows the subprocess too, unless a frame is not taken. -/
theorem offered_or_gone_of_quiet (hlaunched : s.launched ≠ none) (hexit : s.child.exit ≠ none)
    (hended : s.child.stdoutEnded = true) (hpump : s.pumpMove? = none)
    (hcomplaints : s.complaintsMove? = none) :
    (∃ frame, s.offered? = some frame) ∨ ∃ tail status, s.pump = .finished tail status := by
  have hstderr := complaints_ended_of_quiet hlaunched hexit hcomplaints
  obtain ⟨manner, hmanner⟩ := Option.ne_none_iff_exists'.1 hlaunched
  obtain ⟨status, hstatus⟩ := Option.ne_none_iff_exists'.1 hexit
  cases hs : s.pump with
  | finished tail status => exact .inr ⟨tail, status, rfl⟩
  | drained tail => simp [pumpMove?, hmanner, hs, hstderr, hstatus] at hpump
  | reading sanitizer framer offered =>
      cases offered with
      | cons frame rest => exact .inl ⟨frame, by simp [offered?, hs]⟩
      | nil =>
          cases hstdout : s.child.stdout with
          | nil => simp [pumpMove?, hmanner, hs, hstdout, hended] at hpump
          | cons chunk rest => simp [pumpMove?, hmanner, hs, hstdout] at hpump

/-- A worker whose subprocess is gone waits for nothing. -/
theorem idle_of_quiet (hoff : s.worker ≠ .off) (hquiet : s.workerMove? = none)
    (hpump : (∃ frame, s.offered? = some frame) ∨ ∃ tail status, s.pump = .finished tail status) :
    s.worker = .idle ∧ s.queue = [] := by
  cases hworker : s.worker with
  | off => exact absurd hworker hoff
  | idle =>
      refine ⟨rfl, ?_⟩
      cases hqueue : s.queue with
      | nil => rfl
      | cons call rest => simp [workerMove?, hworker, hqueue] at hquiet
  | greeting =>
      rcases hpump with ⟨frame, hframe⟩ | ⟨tail, status, hgone⟩
      · cases hs : s.announced? <;> simp [workerMove?, hworker, hs, hframe] at hquiet
      · cases hs : s.announced? <;> simp [workerMove?, hworker, hs, hgone, offered?] at hquiet
  | awaiting call deadline =>
      rcases hpump with ⟨frame, hframe⟩ | ⟨tail, status, hgone⟩
      · cases hs : s.announced? <;> simp [workerMove?, hworker, hs, hframe] at hquiet
      · cases hs : s.announced? <;> simp [workerMove?, hworker, hs, hgone, offered?] at hquiet

/-- **At rest, with the session over or the subprocess gone, no call waits.** -/
theorem rest_of_quiet (ht : s.Tidy) (hp : s.Placed)
    (hended : s.child.exit ≠ none → s.child.stdoutEnded = true) (hquiet : s.move? = none)
    (hover : s.reason? ≠ none ∨ s.launched ≠ none ∧ s.child.exit ≠ none) (i : Nat) :
    ¬ s.Waits i := by
  obtain ⟨hannounced, hworker, hpump, hcomplaints⟩ := quiet_parts hquiet
  by_cases hopen : s.reason? = none
  · obtain ⟨hlaunched, hexit⟩ := hover.resolve_left (fun h => h hopen)
    have hreader := offered_or_gone_of_quiet hlaunched hexit (hended hexit) hpump hcomplaints
    obtain ⟨hidle, hqueue⟩ := idle_of_quiet (hp.working hlaunched hopen) hworker hreader
    rw [waits_iff_queued (by simp [hidle]), hqueue]
    simp
  · have hoff := off_of_quiet ht hopen hannounced hworker
    rw [waits_iff_queued (by simp [hoff]), ht.emptied hopen]
    simp

/-! ### No call is left hanging -/

/-- **How a call has ended**, in the session after the acts `acts`: with a frame; canceled, when it
was given up and never written; timed out, when it was in flight as its timer went off; or with
word that the session is over. -/
inductive Ended (options : Options) (acts : List Act) (i : Nat) (c : Call) : Outcome → Prop where
  | answered (frame : Frame) : Ended options acts i c (.answered frame)
  | canceled (hgone : c.abandoned = true)
      (hunwritten : i + 1 ∉ (writes ((new options).play acts).log).map Prod.fst) :
      Ended options acts i c (.failed (.plain .canceled))
  | timedOut {cause : Failure} {before rest : List Act} {deadline : Nat}
      (hcause : cause = .timedOut options.commandTimeout c.command)
      (htimeout : cause.wraps .timeout = true) (hbare : cause.wraps .terminated = false)
      (hacts : acts = before ++ .timer :: rest)
      (hflight : ((new options).play before).worker = .awaiting i (some deadline))
      (hdue : deadline ≤ ((new options).play before).now) :
      Ended options acts i c (.failed cause)
  | terminated {cause : Failure} (hover : cause.wraps .terminated = true) :
      Ended options acts i c (.failed cause)

theorem ended_of_outcome (options : Options) (acts : List Act) {i : Nat} {c : Call} {o : Outcome}
    (hc : ((new options).play acts).calls[i]? = some c) (ho : c.outcome = some o) :
    Ended options acts i c o := by
  have haccounted := accounted_play options acts
  cases o with
  | answered frame => exact .answered frame
  | failed cause =>
      rcases haccounted.failed i c cause hc ho with rfl | ⟨after, command, rfl⟩ | hwraps
      · obtain ⟨hgone, hunwritten⟩ := haccounted.canceled i c hc ho
        exact .canceled hgone hunwritten
      · have hnot : (new options).outcome? i ≠ some (.failed (.timedOut after command)) := by
          simp [new, outcome?]
        obtain ⟨before, rest, deadline, hacts, hflight, hdue⟩ :=
          timedOut_play (tidy_new options) acts hnot (by rw [outcome?_of_call hc, ho])
        obtain ⟨hafter, rfl, -⟩ := haccounted.timedOut i c after command hc ho
        rw [options_play (tidy_new options)] at hafter
        subst hafter
        exact .timedOut rfl rfl rfl hacts hflight hdue
      · exact .terminated hwraps

/-- **No call is left hanging.**  Take any play after which nothing can move by itself, and the
session is over or its subprocess is gone.  Then every call has an outcome that no further play
changes, and it is one of the known ones; only one call times out.  And if the session is over, it
ended in an act of the play, and every call that was queued before that act and every call that was
submitted after it failed with exactly what goes with the reason that the session reports. -/
theorem all_calls_done (options : Options) (acts : List Act)
    (hquiet : ((new options).play acts).move? = none)
    (hover : ((new options).play acts).reason? ≠ none ∨
      ((new options).play acts).launched ≠ none ∧ ((new options).play acts).child.exit ≠ none) :
    let s := (new options).play acts
    (∀ i c, s.calls[i]? = some c → ∃ o, c.outcome = some o ∧ Ended options acts i c o ∧
      ∀ more, (s.play more).outcome? i = some o) ∧
    (∀ i j after after' command command',
      s.outcome? i = some (.failed (.timedOut after command)) →
      s.outcome? j = some (.failed (.timedOut after' command')) → i = j) ∧
    ∀ r, s.reason? = some r → ∃ before a rest, acts = before ++ a :: rest ∧
      ((new options).play before).reason? = none ∧
      ((new options).play (before ++ [a])).reason? = some r ∧
      (∀ q ∈ ((new options).play before).queue,
        s.outcome? q = some (.failed (.ofTermination r))) ∧
      ∀ i c, ((new options).play (before ++ [a])).calls.length ≤ i → s.calls[i]? = some c →
        c.outcome = some (.failed (.ofTermination r)) := by
  intro s
  have htidy : s.Tidy := tidy_play (tidy_new options) acts
  have hplaced : s.Placed := placed_play options acts
  have hrest := rest_of_quiet htidy hplaced (ended_play options acts) hquiet hover
  refine ⟨?_, (accounted_play options acts).once, ?_⟩
  · intro i c hc
    have hdone : c.outcome ≠ none := fun hnone => hrest i ((hplaced.undone i c hc).1 hnone)
    obtain ⟨o, ho⟩ := Option.ne_none_iff_exists'.1 hdone
    refine ⟨o, ho, ended_of_outcome options acts hc ho, ?_⟩
    exact outcome?_play htidy (by rw [outcome?_of_call hc, ho])
  · intro r hreason
    obtain ⟨before, a, rest, rfl, hopen, hr⟩ := exists_end options hreason
    have htidy₁ := tidy_play (tidy_new options) (before ++ [a])
    have hs : s = ((new options).play (before ++ [a])).play rest := by simp [s]
    refine ⟨before, a, rest, rfl, hopen, hr, ?_, ?_⟩
    · intro q hq
      have hperform : (((new options).play before).perform a).reason? = some r := by simpa using hr
      have htold := handed_over (tidy_play (tidy_new options) before) (placed_play options before)
        hopen a hperform q hq
      rw [hs]
      exact outcome?_play htidy₁ (by simpa using htold) rest
    · intro i c hi hc
      have haccepted : s.accepted = ((new options).play (before ++ [a])).accepted := by
        rw [hs]
        exact accepted_play htidy₁ hr rest
      have hbound := (numbered_play options (before ++ [a])).bound
      obtain ⟨-, r', hr', ho⟩ :=
        (numbered_play options (before ++ a :: rest)).rejected i c hc (by rw [haccepted]; omega)
      rw [hreason] at hr'
      cases hr'
      exact ho

/-- It happens: of three commands the first times out in flight, the second is still queued then,
and the third comes after that. -/
theorem all_calls_done_timeout :
    let options : Options := { sentinel := [62], launcher := .spawns {}, commandTimeout := 5 }
    ∃ acts, let s := (new options).play acts
      s.move? = none ∧ s.reason? ≠ none ∧ s.calls.length = 3 ∧
      s.outcome? 0 = some (.failed (.timedOut 5 [97])) ∧
      s.outcome? 2 = some (.failed (.terminated (.timedOut 5 [97]))) ∧
      ∀ i c, s.calls[i]? = some c → ∃ o, c.outcome = some o ∧ Ended options acts i c o ∧
        ∀ more, (s.play more).outcome? i = some o :=
  ⟨[.event .start, .event .launch, .event (.submit [97]), .event (.submit [98]),
      .event (.output [62]), .pump, .worker, .worker, .event (.pass 5), .timer,
      .event (.submit [99]), .announce, .pump, .complaints, .pump],
    by decide, by decide, by decide, by decide, by decide,
    (all_calls_done _ _ (by decide) (.inl (by decide))).1⟩

end ReplBridge.Repl.Session
