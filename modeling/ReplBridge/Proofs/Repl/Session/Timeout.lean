import ReplBridge.Proofs.Repl.Session.GivenUp
import ReplBridge.Proofs.Repl.Session.LastCommand
import ReplBridge.Proofs.Repl.Session.Transcript

/-!
**No command outlives its time, and a session does not outlive a command that did.**

When commands have a time limit, the worker sets a deadline with every command it writes, and waits
for nothing else until the call has ended or the deadline is reached.  So a command that is still in
flight when all deadlines are ahead was written less than the limit ago.

When the deadline is reached, the answer may be on its way already.  It must not be taken for the
answer to a later command, so the session ends: the call fails with the timeout, the session has the
same reason, and the subprocess is killed.  The worker stops for good, and with it everything that
writes, records or answers; whatever comes up later is dropped by the reader of standard output.

Main definitions:

* `Session.Punctual` — plays in which the timer of a command goes off only in an open session.

Main results:

* `Session.flight_play` — a command in flight keeps its deadline until its call has ended;
* `Session.punctual_run` — **in a run, timers go off only in an open session**;
* `Session.hushed_play` — **after a worker has stopped for good nothing is written, recorded or
  answered**;
* `Session.timeout_ends_session` — **no command outlives its time, and none follows one that
  would have**.
-/

set_option autoImplicit false

namespace ReplBridge.Repl

theorem Options.timeLimit_of_pos {o : Options} (h : 0 < o.commandTimeout) :
    o.timeLimit = some o.commandTimeout.toNat :=
  if_pos h

/-- Whoever is told that a session is over for a timeout can tell both. -/
theorem Failure.wraps_ofTermination_timedOut (after : Duration) (command : Bytes) :
    (Failure.ofTermination (.timedOut after command)).wraps .terminated = true ∧
      (Failure.ofTermination (.timedOut after command)).wraps .timeout = true :=
  ⟨rfl, rfl⟩

namespace Session

variable {s s' t : Session} {l : Label}

/-! ### A command in flight keeps its deadline -/

/-- A worker waits for a call until the call has ended. -/
theorem Change.flight (hc : s.Change l s') (ht : s.Tidy) (hp : s.Placed) {i : Nat}
    {deadline : Option Nat} (hworker : s.worker = .awaiting i deadline) :
    s'.worker = .awaiting i deadline ∨ s'.outcome? i ≠ none := by
  have hp' := hp.change ht hc
  obtain ⟨c, hci⟩ := ht.call_of_waits (.inr ⟨deadline, hworker⟩)
  obtain ⟨c', hci', -⟩ := hc.kept i c hci
  -- A call that neither the worker nor the queue has any more has an outcome.
  have hlanded (hfree : ∀ j d, s'.worker ≠ .awaiting j d) (hqueue : ∀ q ∈ s'.queue, q ∈ s.queue) :
      s'.outcome? i ≠ none := by
    rw [outcome?_of_call hci']
    intro hnone
    have hwaits := (hp'.undone i c' hci').1 hnone
    rw [waits_iff_queued hfree] at hwaits
    exact ht.awaited_not_queued hworker (hqueue i hwaits)
  cases hc with
  | launched _ _ hlaunching =>
      rw [ht.staged.off (.inr hlaunching)] at hworker
      cases hworker
  | greeted hgreeting | overtaken hgreeting =>
      rw [hgreeting] at hworker
      cases hworker
  | wrote hidle | refused hidle =>
      rw [hidle] at hworker
      cases hworker
  | stopped hfree =>
      rcases hfree with hw | hw <;> rw [hw] at hworker <;> cases hworker
  | answered | outlived | failed | expired => exact .inr (hlanded (by simp) fun _ => id)
  | parted => exact .inr (hlanded (by simp) (by simp))
  | _ => exact .inl hworker

/-- **A command in flight keeps its deadline until its call has ended**, in every play. -/
theorem flight_play (ht : s.Tidy) (hp : s.Placed) {i : Nat} {deadline : Option Nat}
    (hworker : s.worker = .awaiting i deadline) (acts : List Act) :
    (s.play acts).worker = .awaiting i deadline ∨ (s.play acts).outcome? i ≠ none := by
  refine (play_induction (P := fun _ t => t.Placed ∧
    (t.worker = .awaiting i deadline ∨ t.outcome? i ≠ none)) ?_ [] ht ⟨hp, .inl hworker⟩ acts).2.2
  rintro chunks t t' l ht ⟨hp, hflight⟩ hc
  refine ⟨hp.change ht hc, ?_⟩
  rcases hflight with hworker | hdone
  · exact hc.flight ht hp hworker
  · obtain ⟨o, ho⟩ := Option.ne_none_iff_exists'.1 hdone
    exact .inr (by simp [hc.outcome? ho])

theorem deadline_of_wrote (h : s.Reached) (hlimit : 0 < s.options.commandTimeout) {a : Act}
    {i : Nat} {line : Bytes} (hwrote : writes (s.perform a).log = writes s.log ++ [(i + 1, line)]) :
    (s.perform a).worker = .awaiting i (some (s.now + s.options.commandTimeout.toNat)) := by
  have hc := change_of_wrote h.tidy (a := a) (by simp [hwrote])
  generalize s.perform a = s' at hc hwrote
  cases hc with
  | skipped => simp at hwrote
  | @wrote call rest c hworker hqueue hcall =>
      have hseq := (h.numbered.waiting h.placed hcall (.inl (by simp [hqueue]))).2
      have hnumber : c.seq = i + 1 := by
        simp only [writes_append, writes_cons_recorded, writes_cons_wrote, writes_nil,
          List.append_cancel_left_eq, List.cons.injEq, Prod.mk.injEq] at hwrote
        exact hwrote.1.1
      obtain rfl : call = i := by omega
      simp [Options.timeLimit_of_pos hlimit]

theorem exists_write {options : Options} {acts : List Act} {p : Nat × Bytes}
    (hp : p ∈ writes ((new options).play acts).log) :
    ∃ before a rest, acts = before ++ a :: rest ∧
      writes ((new options).play (before ++ [a])).log =
        writes ((new options).play before).log ++ [p] := by
  obtain ⟨before, a, rest, rfl, hnot, hthen⟩ :=
    exists_act (P := fun t => p ∈ writes t.log) (s := new options) (by simp [new]) hp
  refine ⟨before, a, rest, rfl, ?_⟩
  rw [play_append, play_cons, play_nil]
  rcases perform_writes (tidy_play (tidy_new options) before) a with hsame |
    ⟨-, call, rest', c, -, -, -, hwrote⟩
  · rw [hsame] at hthen
    exact absurd hthen hnot
  · rw [hwrote] at hthen
    have hp := (List.mem_append.1 hthen).resolve_left hnot
    rw [hwrote, List.mem_singleton.1 hp]

/-- **No command outlives its time**: one that is in flight when all deadlines are ahead was written
less than the limit ago. -/
theorem written_within_limit {options : Options} (hlimit : 0 < options.commandTimeout)
    {acts : List Act} (hstill : ((new options).play acts).Still) {p : Nat × Bytes}
    (hp : p ∈ writes ((new options).play acts).log)
    (hpending : ((new options).play acts).outcome? (p.1 - 1) = none) :
    ∃ before a rest, acts = before ++ a :: rest ∧
      writes ((new options).play (before ++ [a])).log =
        writes ((new options).play before).log ++ [p] ∧
      ((new options).play acts).now <
        ((new options).play before).now + options.commandTimeout.toNat := by
  obtain ⟨i, c, -, hseq, rfl⟩ := (written_play options acts).lines p hp
  rw [hseq] at hp hpending ⊢
  obtain ⟨before, a, rest, rfl, hwrote⟩ := exists_write hp
  refine ⟨before, a, rest, rfl, hwrote, ?_⟩
  have hthen : (new options).play (before ++ [a]) = ((new options).play before).perform a := by simp
  have hlater : (new options).play (before ++ a :: rest) =
      ((new options).play (before ++ [a])).play rest := by simp
  have hoptions : ((new options).play before).options = options :=
    options_play (tidy_new options) before
  have hworker := deadline_of_wrote ⟨options, before, rfl⟩ (hoptions.symm ▸ hlimit)
    (hthen ▸ hwrote)
  rw [← hthen, hoptions] at hworker
  have hflight := flight_play (tidy_play (tidy_new options) (before ++ [a]))
    (placed_play options (before ++ [a])) hworker rest
  rw [← hlater] at hflight
  have hworker := hflight.resolve_right fun hdone => hdone hpending
  refine hstill.ahead _ (.inl ?_)
  rw [hworker]
  rfl

/-! ### Timers of a run -/

/-- **The timer of a command goes off only in an open session.** -/
def Punctual (s : Session) (acts : List Act) : Prop :=
  ∀ before rest, acts = before ++ .timer :: rest → ∀ i deadline,
    (s.play before).worker = .awaiting i deadline → (s.play before).reason? = none

theorem Punctual.concat {acts : List Act} (h : s.Punctual acts) {a : Act}
    (ha : a = .timer → ∀ i deadline, (s.play acts).worker = .awaiting i deadline →
      (s.play acts).reason? = none) : s.Punctual (acts ++ [a]) := by
  intro before rest hacts i deadline hworker
  rcases List.eq_nil_or_concat rest with rfl | ⟨rest, b, rfl⟩
  · obtain ⟨rfl, hlast⟩ := List.append_inj' hacts rfl
    exact ha (List.cons.inj hlast).1 i deadline hworker
  · have hsplit : acts ++ [a] = (before ++ .timer :: rest) ++ [b] := by simpa using hacts
    exact h before rest (List.append_inj' hsplit rfl).1 i deadline hworker

/-- **In a run, timers go off only in an open session**: they wait until nothing else can move, and
then the worker of a session that is over has stopped. -/
theorem punctual_run (options : Options) (events : List Event) :
    ∃ acts, (new options).run events = (new options).play acts ∧ (new options).Punctual acts := by
  -- One act more is punctual unless it is a timer that finds the session over.
  have hact {t : Session} {a : Act}
      (h : ∃ acts, t = (new options).play acts ∧ (new options).Punctual acts)
      (ha : a = .timer → ∀ i deadline, t.worker = .awaiting i deadline → t.reason? = none) :
      ∃ acts, t.perform a = (new options).play acts ∧ (new options).Punctual acts := by
    obtain ⟨acts, rfl, hpunctual⟩ := h
    exact ⟨acts ++ [a], by simp, hpunctual.concat ha⟩
  refine run_induction (P := fun t => ∃ acts, t = (new options).play acts ∧
    (new options).Punctual acts) ?_ ?_ ?_ ?_ (reached_new options) rfl
    ⟨[], rfl, fun before rest hacts => by simp at hacts⟩
  · intro t t' _ h hmove
    obtain ⟨a, hparty, rfl⟩ := move_party hmove
    refine hact h ?_
    rintro rfl
    simp at hparty
  · intro t n _ hle h
    rw [set_now_play hle, play_cons, play_nil]
    exact hact h (by simp)
  · intro t time hr hquiet _ hdue h
    rcases expireAt_cases hdue with ⟨call, hworker, heq⟩ | ⟨i, c, -, -, heq⟩ | ⟨-, -, heq⟩
    · rw [heq]
      refine hact h fun _ i deadline _ => ?_
      exact open_of_deadline hr.tidy hquiet (by simp [hworker, Worker.deadline?])
    · rw [heq]
      exact hact h (by simp)
    · rwa [heq]
  · intro t e _ _ hpass h
    rw [← perform_event hpass]
    exact hact h (by simp)

/-! ### Silence after the worker has stopped -/

/-- Where the worker has stopped, nothing is written or recorded. -/
theorem Change.hushed (hc : s.Change l s') (hoff : s.worker = .off) :
    writes s'.log = writes s.log ∧ records s'.log = records s.log := by
  cases hc with
  | greeted hworker | overtaken hworker | wrote hworker | refused hworker | answered hworker
  | parted hworker | outlived hworker =>
      rw [hoff] at hworker
      cases hworker
  | _ => exact ⟨by simp, by simp⟩

/-- **After a worker has stopped for good nothing is written or recorded**, whatever comes up. -/
theorem hushed_play (ht : s.Tidy) (hretired : s.Retired) (acts : List Act) :
    writes (s.play acts).log = writes s.log ∧ records (s.play acts).log = records s.log := by
  refine (play_induction (P := fun _ t => t.Retired ∧
    writes t.log = writes s.log ∧ records t.log = records s.log) ?_ [] ht
    ⟨hretired, rfl, rfl⟩ acts).2.2
  rintro chunks t t' l ht ⟨hretired, hwrites, hrecords⟩ hc
  obtain ⟨hwrites', hrecords'⟩ := hc.hushed hretired.1
  exact ⟨hc.retired hretired, hwrites'.trans hwrites, hrecords'.trans hrecords⟩

theorem Delivered.of_records (hs : s.Delivered) (ht : t.Delivered)
    (hrecords : records t.log = records s.log) {j : Nat} {frame : Frame}
    (ho : t.outcome? j = some (.answered frame)) : s.outcome? j = some (.answered frame) := by
  obtain ⟨text, hmem, rfl⟩ := ht.answered j frame ho
  refine hs.received j text (mem_answers.2 ?_)
  rw [← hrecords]
  exact mem_answers.1 hmem

/-! ### The end of a command that had its time -/

/-- **A command that had its time ends an open session**, with the failure of its call as the
reason. -/
theorem expire_open (ht : s.Tidy) {i : Nat} {deadline : Option Nat} {c : Call}
    (hworker : s.worker = .awaiting i deadline) (hcall : s.calls[i]? = some c)
    (hnone : c.outcome = none) (hopen : s.reason? = none) :
    let reason := Failure.timedOut s.options.commandTimeout c.command
    (s.expire i).outcome? i = some (.failed reason) ∧ (s.expire i).reason? = some reason ∧
      (s.expire i).child.kills = s.child.kills + 1 ∧ (s.expire i).accepted = s.accepted ∧
      writes (s.expire i).log = writes s.log ∧ records (s.expire i).log = records s.log := by
  intro reason
  have hexpire : s.expire i = ((s.terminate reason).finish i (.failed reason)).stop.kill := by
    simp only [expire, hcall]
    rw [finish_terminate ht hworker, kill_stop]
  have hkills : (s.expire i).child.kills = s.child.kills + 1 := by
    rw [hexpire, kill_kills, terminate_open hopen]
    rfl
  obtain ⟨child, hchild, -⟩ := kill_eq ((s.terminate reason).finish i (.failed reason)).stop
  rw [hchild, terminate_open hopen] at hexpire
  refine ⟨?_, ?_, hkills, ?_, ?_, ?_⟩
  · -- The call in flight is not among those that fail with the queue.
    simp [hexpire, outcome?_eq, stop, getElem?_finishAll, hcall, ht.awaited_not_queued hworker,
      Call.finish_of_none hnone]
  · simp [hexpire, reason?, stop]
  · simp [hexpire, stop]
  · simp [hexpire, stop]
  · simp [hexpire, stop]

/-- **Whoever was queued when a session ended, or comes later, is told why.** -/
theorem told_of_over (h : s.Reached) (hopen : s.reason? = none) {a : Act} {r : Failure}
    (hr : (s.perform a).reason? = some r) (haccepted : (s.perform a).accepted = s.accepted)
    {more : List Act} {q : Nat}
    (hq : q ∈ s.queue ∨ s.calls.length ≤ q ∧ q < ((s.perform a).play more).calls.length) :
    ((s.perform a).play more).outcome? q = some (.failed (.ofTermination r)) := by
  have ht := tidy_perform h.tidy a
  rcases hq with hq | ⟨hle, hlt⟩
  · exact outcome?_play ht (handed_over h.tidy h.placed hopen a hr q hq) more
  · -- No call was accepted since, so this one was turned away.
    have hu : ((s.perform a).play more).Reached := h.leads ⟨a :: more, rfl⟩
    have hbound := h.numbered.bound
    have hsince := (accepted_play ht hr more).trans haccepted
    have hcall := List.getElem?_eq_getElem hlt
    obtain ⟨-, r', hr', ho⟩ := hu.numbered.rejected q _ hcall (by omega)
    rw [reason?_play ht hr more] at hr'
    cases hr'
    rw [outcome?_of_call hcall, ho]

/-- **No command outlives its time, and none follows one that would have.**  Let commands have a
time limit.  After every play in which all deadlines are ahead, a written command whose call has not
ended was written less than the limit ago.  Every run is such a play, and one in which the timer of
a command goes off only while the session is open.

When the timer goes off, the subprocess is killed.  From then on, whatever comes up, the call in
flight has failed with the timeout and the session is over for the very same reason; all calls that
were queued or come later fail with word of both, that the session is over and that it was for a
timeout; nothing more is written or recorded; and no call is answered that was not answered
before. -/
theorem timeout_ends_session (options : Options) (hlimit : 0 < options.commandTimeout) :
    (∀ acts, let s := (new options).play acts
      s.Still → ∀ p ∈ writes s.log, s.outcome? (p.1 - 1) = none →
        ∃ before a rest, acts = before ++ a :: rest ∧
          writes ((new options).play (before ++ [a])).log =
            writes ((new options).play before).log ++ [p] ∧
          s.now < ((new options).play before).now + options.commandTimeout.toNat) ∧
    (∀ events, ((new options).run events).Still ∧
      ∃ acts, (new options).run events = (new options).play acts ∧ (new options).Punctual acts) ∧
    ∀ acts i deadline, let s := (new options).play acts
      s.worker = .awaiting i (some deadline) → deadline ≤ s.now → s.reason? = none →
      (s.perform .timer).child.kills = s.child.kills + 1 ∧
      ∃ c reason, s.calls[i]? = some c ∧ reason = .timedOut options.commandTimeout c.command ∧
        reason.wraps .timeout = true ∧
        ∀ more, let u := (s.perform .timer).play more
          u.outcome? i = some (.failed reason) ∧ u.reason? = some reason ∧
          (∀ q, q ∈ s.queue ∨ s.calls.length ≤ q ∧ q < u.calls.length →
            ∃ cause, u.outcome? q = some (.failed cause) ∧
              cause.wraps .terminated = true ∧ cause.wraps .timeout = true) ∧
          writes u.log = writes s.log ∧ records u.log = records s.log ∧
          ∀ j frame, u.outcome? j = some (.answered frame) →
            s.outcome? j = some (.answered frame) := by
  refine ⟨fun acts hstill p hp hpending => written_within_limit hlimit hstill hp hpending,
    fun events => ⟨still_run options events, punctual_run options events⟩, ?_⟩
  intro acts i deadline s hworker hdue hopen
  have hs : s.Tidy := tidy_play (tidy_new options) acts
  have hp : s.Placed := placed_play options acts
  have hoptions : s.options = options := options_play (tidy_new options) acts
  obtain ⟨c, hcall⟩ := hs.call_of_waits (.inr ⟨_, hworker⟩)
  have hnone := (hp.undone i c hcall).2 (.inr ⟨_, hworker⟩)
  have htimer : s.perform .timer = s.expire i := by
    simp [perform, timerAct, hworker, hdue]
  obtain ⟨hfailed, hreason, hkills, haccepted, hwrites, hrecords⟩ :=
    expire_open hs hworker hcall hnone hopen
  have hoff := expire_over hcall
  rw [← htimer] at hfailed hreason hkills haccepted hwrites hrecords hoff
  rw [hoptions] at hfailed hreason
  have ht : (s.perform .timer).Tidy := tidy_perform hs .timer
  have hreturned : (s.perform .timer).Returned :=
    returned_play hs (hs.staged.working (by simp [hworker])) [.timer]
  refine ⟨hkills, c, _, hcall, rfl, rfl, ?_⟩
  intro more u
  obtain ⟨hwrites', hrecords'⟩ := hushed_play ht ⟨hoff.1, hreturned⟩ more
  have hdelivered : u.Delivered := by
    have hu : u = (new options).play (acts ++ .timer :: more) := by simp [u, s]
    rw [hu]
    exact delivered_play options _
  refine ⟨outcome?_play ht hfailed more, reason?_play ht hreason more, ?_,
    hwrites'.trans hwrites, hrecords'.trans hrecords, fun j frame ho =>
      (delivered_play options acts).of_records hdelivered (hrecords'.trans hrecords) ho⟩
  intro q hq
  exact ⟨_, told_of_over ⟨options, acts, rfl⟩ hopen hreason haccepted hq,
    Failure.wraps_ofTermination_timedOut options.commandTimeout c.command⟩

/-- It happens: of two commands the first times out while the second is queued.  Its frame comes up
after that, and so does a third command. -/
theorem timeout_ends_session_late_frame : let options : Options :=
      { sentinel := [62], launcher := .spawns { heedsKill := false }, commandTimeout := 5 }
    ∃ acts more, let s := (new options).play acts
      let u := (s.perform .timer).play more
      0 < options.commandTimeout ∧ s.worker = .awaiting 0 (some 5) ∧ s.queue = [1] ∧
      s.reason? = none ∧ u.calls.length = 3 ∧
      (new options).printed (acts ++ .timer :: more) = [[62], [120, 62]] ∧
      u.reason? = some (.timedOut 5 [97]) ∧ records u.log = records s.log ∧
      (∃ cause, u.outcome? 2 = some (.failed cause) ∧
        cause.wraps .terminated = true ∧ cause.wraps .timeout = true) := by
  refine ⟨[.event .start, .event .launch, .event (.submit [97]), .event (.submit [98]),
      .event (.output [62]), .pump, .worker, .worker, .event (.pass 5)],
    [.event (.output [120, 62]), .pump, .pump, .event (.submit [99]), .worker], ?_⟩
  obtain ⟨c, reason, hcall, rfl, -, hlater⟩ := ((timeout_ends_session
    { sentinel := [62], launcher := .spawns { heedsKill := false }, commandTimeout := 5 }
    (by decide)).2.2 [.event .start, .event .launch, .event (.submit [97]), .event (.submit [98]),
      .event (.output [62]), .pump, .worker, .worker, .event (.pass 5)] 0 5 (by decide) (by decide)
      (by decide)).2
  obtain ⟨-, hreason, htold, -, hrecords, -⟩ := hlater
    [.event (.output [120, 62]), .pump, .pump, .event (.submit [99]), .worker]
  exact ⟨by decide, by decide, by decide, by decide, by decide, by decide, by decide, hrecords,
    htold 2 (.inr (by decide))⟩

end Session

end ReplBridge.Repl
