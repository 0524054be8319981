import ReplBridge.Proofs.Repl.Session.Parties

/-!
**The command that ends the session is the last one.**

A quit goes through the queue like any other command.  When its turn comes, all calls before it have
had theirs; and once its command is written, the worker waits for this one command and then stops:
when it is answered, when the subprocess is gone, when its time is up, when the session is closed.
There is no way back to waiting for a command, so nothing is written any more, and whatever stands
behind the quit fails with the end of the session.

Main definitions:

* `Session.Concluding` — the worker waits for the last command, or has stopped for good.

Main results:

* `Session.failed_open` — **while a session is open, a call fails only if it was given up**;
* `Session.concluding_play` — **after the last command nothing is written**;
* `Session.quit_is_last` — **a quit comes after all calls before it, and before nothing else**.
-/

set_option autoImplicit false

namespace ReplBridge.Repl.Session

variable {i q : Nat} {c : Call} {acts : List Act}

variable {s s' : Session} {l : Label}

/-! ### While the session is open -/

/-- A change that leaves the session open fails a call only if it was given up. -/
theorem Change.failed_open (h : s.Change l s') (hopen : s'.reason? = none) {cause : Failure}
    (ho : s'.outcome? i = some (.failed cause)) :
    s.outcome? i = some (.failed cause) ∨ cause = .plain .canceled := by
  obtain ⟨c', hc', hend⟩ := call_of_outcome? ho
  have hover (hr : s.reason? ≠ none) : False := by
    obtain ⟨r, hr⟩ := Option.ne_none_iff_exists'.1 hr
    rw [h.reason? hr] at hopen
    cases hopen
  cases h with
  | aside | ticked | printed | starting | stranded | launched | greeted | wrote | read | dropped
  | drained | departed =>
      exact .inl ((outcome?_of_call (s := s) hc').trans hend)
  | accepted =>
      rcases getElem?_append_singleton_cases hc' with ⟨hc, -⟩ | ⟨-, rfl⟩
      · exact .inl (by rw [outcome?_of_call hc, hend])
      · cases hend
  | gaveUp =>
      obtain ⟨c, hc, hsame⟩ := outcome_of_giveUp hc'
      exact .inl (by rw [outcome?_of_call hc, ← hsame, hend])
  | skipped =>
      rcases outcome_modify_cases hc' hend with ⟨c, hc, hold⟩ | ⟨-, hnew, -⟩
      · exact .inl (by rw [outcome?_of_call hc, hold])
      · cases hnew
        exact .inr rfl
  | answered =>
      rcases outcome_modify_cases hc' hend with ⟨c, hc, hold⟩ | ⟨-, hnew, -⟩
      · exact .inl (by rw [outcome?_of_call hc, hold])
      · cases hnew
  | ended | refused | parted => simp [Session.reason?] at hopen
  | rejected _ _ hr => exact (hover (by simp [hr])).elim
  | announced hr | overtaken _ hr | outlived _ hr | failed _ _ hr | expired _ hr | stopped _ hr =>
      exact (hover hr).elim

/-- **While a session is open, a call fails only if it was given up** before it was written. -/
theorem failed_open (options : Options) (acts : List Act)
    (hopen : ((new options).play acts).reason? = none) {cause : Failure}
    (ho : ((new options).play acts).outcome? i = some (.failed cause)) :
    cause = .plain .canceled := by
  refine ledger_induction (P := fun _ t => t.reason? = none → ∀ i cause,
    t.outcome? i = some (.failed cause) → cause = .plain .canceled) ?_ options
    (by simp [new, outcome?]) acts hopen i cause ho
  intro chunks s s' l _ _ _ h hc hopen i cause ho
  have hbefore : s.reason? = none := by
    cases hr : s.reason? with
    | none => rfl
    | some r =>
        rw [hc.reason? hr] at hopen
        cases hopen
  rcases hc.failed_open hopen ho with hold | hnew
  · exact h hbefore i cause hold
  · exact hnew

/-! ### The worker after the last command -/

/-- **The worker waits for the call `q`, or has stopped for good.** -/
def Concluding (q : Nat) (s : Session) : Prop :=
  (∃ deadline, s.worker = .awaiting q deadline) ∨ s.Retired ∧ s.reason? ≠ none

/-- A worker that has stopped for good does not start again. -/
theorem retired_play (ht : s.Tidy) (hretired : s.Retired) (hover : s.reason? ≠ none)
    (acts : List Act) : (s.play acts).Retired ∧ (s.play acts).reason? ≠ none := by
  refine (play_induction (P := fun _ t => t.Retired ∧ t.reason? ≠ none) ?_ [] ht
    ⟨hretired, hover⟩ acts).2
  intro chunks t t' l _ h hc
  obtain ⟨r, hr⟩ := Option.ne_none_iff_exists'.1 h.2
  exact ⟨hc.retired h.1, by simp [hc.reason? hr]⟩

/-- A worker that waits for the last command waits on or stops for good. -/
theorem concluding_workerMove {deadline : Option Nat} (hworker : s.worker = .awaiting q deadline)
    (hcall : s.calls[q]? = some c) (hlast : c.last = true) (h : s.workerMove? = some s') :
    s'.worker = .off ∧ s'.reason? ≠ none := by
  cases workerMove?_eq_some h with
  | fails _ hknown =>
      have hover : s.reason? ≠ none := by simp [announced?_eq_some hknown]
      exact ⟨rfl, hover⟩
  | answers hawaits =>
      cases hworker.symm.trans hawaits
      simp only [answer, hcall, hlast, if_true]
      exact ⟨rfl, terminate_reason? _ _⟩
  | loses hawaits =>
      cases hworker.symm.trans hawaits
      simp only [lose, hcall, hlast, if_true]
      exact ⟨rfl, terminate_reason? _ _⟩
  | stops hrests | departs hrests | greets hrests | dispatches hrests =>
      simp [hworker] at hrests

theorem Concluding.perform (h : s.Concluding q) (ht : s.Tidy) (hp : s.Placed)
    (hcall : s.calls[q]? = some c) (hlast : c.last = true) (a : Act) :
    (s.perform a).Concluding q ∧ writes (s.perform a).log = writes s.log := by
  refine ⟨?_, ?_⟩
  · rcases h with ⟨deadline, hworker⟩ | ⟨hretired, hover⟩
    · have hreturned := returned_play ht (ht.staged.working (by simp [hworker])) [a]
      by_cases hmover : a = .worker ∨ a = .timer
      · have hperformed := s.performed a
        rw [play_cons, play_nil] at hreturned
        generalize s.perform a = s' at hperformed hreturned ⊢
        cases hperformed with
        | nothing => exact .inl ⟨deadline, hworker⟩
        | worker hmove =>
            obtain ⟨hoff, hover⟩ := concluding_workerMove hworker hcall hlast hmove
            exact .inr ⟨⟨hoff, hreturned⟩, hover⟩
        | timer hawaits =>
            cases hworker.symm.trans hawaits
            obtain ⟨hoff, hover⟩ := expire_over hcall
            exact .inr ⟨⟨hoff, hreturned⟩, hover⟩
        | event | announce | pump | complaints | client | clientTimer => simp at hmover
      · obtain ⟨hnot, hnot'⟩ := not_or.1 hmover
        exact .inl ⟨deadline, by rw [perform_worker hp (by simp [hworker]) hnot hnot', hworker]⟩
    · exact .inr (retired_play ht hretired hover [a])
  · rcases perform_writes ht a with hsame | ⟨hidle, -⟩
    · exact hsame
    · rcases h with ⟨deadline, hworker⟩ | ⟨⟨hoff, -⟩, -⟩
      · rw [hworker] at hidle
        cases hidle
      · rw [hoff] at hidle
        cases hidle

/-- **After the last command nothing is written**, whatever happens. -/
theorem concluding_play (options : Options) (h : ((new options).play acts).Concluding q)
    (hcall : ((new options).play acts).calls[q]? = some c) (hlast : c.last = true) (more : List Act)
    :
    ((new options).play (acts ++ more)).Concluding q ∧
      writes ((new options).play (acts ++ more)).log = writes ((new options).play acts).log := by
  induction more generalizing acts c with
  | nil => simpa using h
  | cons a more ih =>
      have ht := tidy_play (tidy_new options) acts
      obtain ⟨hnext, hwrites⟩ := h.perform ht (placed_play options acts) hcall hlast a
      have hplay : (new options).play (acts ++ [a]) = ((new options).play acts).perform a := by simp
      obtain ⟨c', hcall', hgrows⟩ := play_calls ht [a] q c hcall
      rw [play_cons, play_nil, ← hplay] at hcall'
      have hrest := ih (hplay ▸ hnext) hcall' (hgrows.last.trans hlast)
      rw [hplay, hwrites, List.append_assoc, List.singleton_append] at hrest
      exact hrest

/-! ### What stands before and behind the last command -/

/-- **An act that writes does nothing else**: it is one elementary change. -/
theorem change_of_wrote (ht : s.Tidy) {a : Act} (h : writes (s.perform a).log ≠ writes s.log) :
    s.Change .taken (s.perform a) := by
  have hquiet {t t' : Session} {l : Label} (hc : t.Change l t') (hl : l ≠ .taken) :
      writes t'.log = writes t.log := by
    rcases hc.writes_cases with hsame | ⟨htaken, -⟩
    · exact hsame
    · exact absurd htaken hl
  rcases perform_cases ht a with ⟨hcalm, -⟩ | ⟨chunks, hc, -⟩ | ⟨time, rfl⟩ | ⟨-, hc⟩ |
    ⟨-, call, deadline, s₁, s₂, -, -, hbefore, hc, hafter⟩
  · exact absurd hcalm.writes_eq h
  · exact absurd (hquiet hc (by simp)) h
  · exact absurd rfl h
  · exact hc
  · exact absurd (hafter.writes_eq.trans ((hquiet hc (by simp)).trans hbefore.writes_eq)) h

/-- An act that writes takes the first call of the queue, and the worker waits for it. -/
theorem perform_wrote (ht : s.Tidy) {a : Act} (h : writes (s.perform a).log ≠ writes s.log) :
    s.worker = .idle ∧ ∃ call rest c deadline, s.queue = call :: rest ∧ s.calls[call]? = some c ∧
      writes (s.perform a).log = writes s.log ++ [(c.seq, c.command ++ [Bytes.newline])] ∧
      (s.perform a).worker = .awaiting call deadline ∧ (s.perform a).calls = s.calls := by
  have hc := change_of_wrote ht h
  generalize s.perform a = s' at hc h
  cases hc with
  | skipped => exact absurd rfl h
  | @wrote call rest c hworker hqueue hcall =>
      exact ⟨hworker, call, rest, c, _, hqueue, hcall, by simp, rfl, rfl⟩

/-- The call whose command an act writes was the first of the queue, and now the worker waits for
it. -/
theorem taken_of_writes (options : Options) {a : Act}
    (hcall : ((new options).play acts).calls[q]? = some c)
    (hwrote : writes (((new options).play acts).perform a).log =
      writes ((new options).play acts).log ++ [(c.seq, c.command ++ [Bytes.newline])]) :
    ((new options).play acts).worker = .idle ∧ c.seq = q + 1 ∧
      (∃ rest, ((new options).play acts).queue = q :: rest) ∧
      (∃ deadline, (((new options).play acts).perform a).worker = .awaiting q deadline) ∧
      (((new options).play acts).perform a).calls = ((new options).play acts).calls := by
  have hn := numbered_play options acts
  have hp := placed_play options acts
  obtain ⟨hidle, first, rest, c₁, deadline, hqueue, hfirst, hwrote₁, hawaits, hcalls⟩ :=
    perform_wrote (tidy_play (tidy_new options) acts) (a := a) (by simp [hwrote])
  have hseq₁ := (hn.waiting hp hfirst (.inl (by simp [hqueue]))).2
  have hseq : c₁.seq = c.seq := by
    have hsame := List.append_cancel_left (hwrote₁.symm.trans hwrote)
    simp only [List.cons.injEq, Prod.mk.injEq] at hsame
    exact hsame.1.1
  -- A call that was turned away has number 0, so this one was accepted.
  have haccepted : q < ((new options).play acts).accepted := by
    refine Nat.lt_of_not_le fun hle => ?_
    have := (hn.rejected q c hcall hle).1
    omega
  obtain rfl : q = first := by
    have := hn.accepted q c hcall haccepted
    omega
  exact ⟨hidle, by omega, ⟨rest, hqueue⟩, ⟨deadline, hawaits⟩, hcalls⟩

/-- When a call is the first of the queue, all calls before it have ended: with a frame, or given up
before they were written. -/
theorem ended_before_first (options : Options) {rest : List Nat}
    (hidle : ((new options).play acts).worker = .idle)
    (hqueue : ((new options).play acts).queue = q :: rest) {b : Call} (hi : i < q)
    (hb : ((new options).play acts).calls[i]? = some b) :
    (∃ frame, b.outcome = some (.answered frame)) ∨
      b.outcome = some (.failed (.plain .canceled)) ∧ b.abandoned = true ∧
        i + 1 ∉ (writes ((new options).play acts).log).map Prod.fst := by
  have ht := tidy_play (tidy_new options) acts
  have hopen : ((new options).play acts).reason? = none := by
    by_contra hover
    rw [ht.emptied hover] at hqueue
    cases hqueue
  have hout : ¬ ((new options).play acts).Waits i := by
    have hsorted := ht.sorted
    rw [hqueue] at hsorted
    rw [waits_iff_queued (by simp [hidle]), hqueue, List.mem_cons, not_or]
    refine ⟨by omega, fun hmem => ?_⟩
    have := (List.pairwise_cons.1 hsorted).1 i hmem
    omega
  cases ho : b.outcome with
  | none => exact absurd (((placed_play options acts).undone i b hb).1 ho) hout
  | some o =>
      cases o with
      | answered frame => exact .inl ⟨frame, rfl⟩
      | failed cause =>
          obtain rfl := failed_open options acts hopen (i := i) (by rw [outcome?_of_call hb, ho])
          obtain ⟨hgone, hunwritten⟩ := (accounted_play options acts).canceled i b hb ho
          exact .inr ⟨rfl, hgone, hunwritten⟩

theorem over_of_close (ht : s.Tidy) (h : .event .close ∈ acts) : (s.play acts).reason? ≠ none := by
  obtain ⟨before, rest, rfl⟩ := List.append_of_mem h
  have hclosed : ((s.play before).perform (.event .close)).reason? ≠ none :=
    terminate_reason? (s.play before) _
  obtain ⟨r, hr⟩ := Option.ne_none_iff_exists'.1 hclosed
  rw [play_append, play_cons, reason?_play (tidy_perform (tidy_play ht before) _) hr rest]
  simp

/-- When the last command has ended, or the subprocess is gone and all is at rest, the session is
over. -/
theorem Concluding.over (h : s.Concluding q) (ht : s.Tidy) (hp : s.Placed)
    (hended : s.child.exit ≠ none → s.child.stdoutEnded = true)
    (hover : s.outcome? q ≠ none ∨ s.child.exit ≠ none ∧ s.move? = none) : s.reason? ≠ none := by
  rcases h with ⟨deadline, hworker⟩ | ⟨-, hreason⟩
  · have hwaits : s.Waits q := .inr ⟨deadline, hworker⟩
    rcases hover with hdone | ⟨hexit, hquiet⟩
    · obtain ⟨c, hc⟩ := ht.call_of_waits hwaits
      rw [outcome?_of_call hc, (hp.undone q c hc).2 hwaits] at hdone
      exact absurd rfl hdone
    · have hlaunched := hp.launched_of_worker (by simp [hworker])
      exact absurd hwaits (rest_of_quiet ht hp hended hquiet (.inr ⟨hlaunched, hexit⟩) q)
  · exact hreason

theorem written_of_answered (options : Options) {frame : Frame}
    (h : ((new options).play acts).outcome? i = some (.answered frame)) :
    i + 1 ∈ (writes ((new options).play acts).log).map Prod.fst := by
  obtain ⟨text, hmem, -⟩ := (delivered_play options acts).answered i frame h
  have hnumber := (paired_play options acts).worker.behind.1.subset (List.mem_map_of_mem hmem)
  rcases List.mem_cons.1 hnumber with hzero | hmem
  · cases hzero
  · exact hmem

/-- No command was written after the one that the worker waits for. -/
theorem written_le_awaited (options : Options) {deadline : Option Nat}
    (hawaits : ((new options).play acts).worker = .awaiting q deadline) {n : Nat}
    (hn : n ∈ (writes ((new options).play acts).log).map Prod.fst) : n ≤ q + 1 := by
  have hrising := (written_play options acts).rising
  have hpaired := (paired_play options acts).worker
  rw [hawaits] at hpaired
  have hpaired : (answers ((new options).play acts).log).map Prod.fst ++ [q + 1] =
      0 :: (writes ((new options).play acts).log).map Prod.fst := hpaired
  generalize (writes ((new options).play acts).log).map Prod.fst = written at *
  rcases List.eq_nil_or_concat written with rfl | ⟨before, m, rfl⟩
  · cases hn
  · rw [List.concat_eq_append] at *
    rw [← List.cons_append] at hpaired
    obtain ⟨-, hm⟩ := List.append_inj' hpaired rfl
    cases hm
    rcases List.mem_append.1 hn with hn | hn
    · exact Nat.le_of_lt ((List.pairwise_append.1 hrising).2.2 n hn (q + 1) (by simp))
    · exact Nat.le_of_eq (List.mem_singleton.1 hn)

/-- **Whatever stands behind the last command fails with the end of the session.** -/
theorem failed_behind (options : Options) {acts more : List Act} {deadline : Option Nat}
    (hawaits : ((new options).play acts).worker = .awaiting q deadline)
    (hcall : ((new options).play acts).calls[q]? = some c) (hlast : c.last = true)
    (hover : ((new options).play (acts ++ more)).reason? ≠ none) {b : Call} (hi : q < i)
    (hb : ((new options).play (acts ++ more)).calls[i]? = some b) :
    ∃ cause, b.outcome = some (.failed cause) ∧
      (cause.wraps .terminated = true ∨ cause = .plain .canceled ∧ b.abandoned = true) := by
  have hconcluding (later : List Act) := concluding_play options (.inl ⟨deadline, hawaits⟩) hcall
    hlast later
  have ht := tidy_play (tidy_new options) acts
  have ht' := tidy_play (tidy_new options) (acts ++ more)
  have hunwaited (later : List Act) (d : Option Nat) :
      ((new options).play (acts ++ later)).worker ≠ .awaiting i d := by
    intro hworker
    rcases (hconcluding later).1 with ⟨d', hq⟩ | ⟨⟨hoff, -⟩, -⟩
    · rw [hworker] at hq
      cases hq
      omega
    · rw [hworker] at hoff
      cases hoff
  have haccounted := accounted_play options (acts ++ more)
  cases ho : b.outcome with
  | none =>
      rcases ((placed_play options (acts ++ more)).undone i b hb).1 ho with hqueued | ⟨d, hworker⟩
      · rw [ht'.emptied hover] at hqueued
        cases hqueued
      · exact absurd hworker (hunwaited more d)
  | some o =>
      cases o with
      | answered frame =>
          have hwritten : i + 1 ∈ (writes ((new options).play (acts ++ more)).log).map Prod.fst :=
            written_of_answered options ((outcome?_of_call hb).trans ho)
          rw [(hconcluding more).2] at hwritten
          have := written_le_awaited options hawaits hwritten
          omega
      | failed cause =>
          refine ⟨cause, rfl, ?_⟩
          rcases haccounted.failed i b cause hb ho with rfl | ⟨after, command, rfl⟩ | hwraps
          · exact .inr ⟨rfl, (haccounted.canceled i b hb ho).1⟩
          · -- Only the command in flight times out, and since then that is the last one.
            have hnot : ((new options).play acts).outcome? i ≠
                some (.failed (.timedOut after command)) := by
              intro hold
              obtain ⟨c', hc', ho'⟩ := call_of_outcome? hold
              have hoff := ((accounted_play options acts).timedOut i c' after command hc' ho').2.2.2.1
              rw [hawaits] at hoff
              cases hoff
            obtain ⟨before, rest, d, -, hworker, -⟩ := timedOut_play ht more hnot
              (by rw [← play_append, outcome?_of_call hb, ho])
            rw [← play_append] at hworker
            exact absurd hworker (hunwaited before _)
          · exact .inl hwraps

/-! ### A quit is last -/

/-- **A quit comes after all calls before it, and before nothing else.**  Take any play, and an act
that writes the command of a quit.  Then every call that was submitted before the quit has ended,
with a frame unless it was given up before it was written.  And however the play goes on, nothing is
written any more; and once the quit has ended (answered or timed out), or the session was closed, or
the subprocess is gone and all is at rest, every call that was submitted after the quit, be it
another quit, has failed: the session is over, or it was given up. -/
theorem quit_is_last (options : Options) (acts : List Act) (a : Act) (q : Nat) (c : Call)
    (hcall : ((new options).play acts).calls[q]? = some c) (hlast : c.last = true)
    (hwrote : writes ((new options).play (acts ++ [a])).log =
      writes ((new options).play acts).log ++ [(c.seq, c.command ++ [Bytes.newline])]) :
    (∀ i b, i < q → ((new options).play acts).calls[i]? = some b →
      (∃ frame, b.outcome = some (.answered frame)) ∨
        b.outcome = some (.failed (.plain .canceled)) ∧ b.abandoned = true ∧
          i + 1 ∉ (writes ((new options).play acts).log).map Prod.fst) ∧
    ∀ more, let s := (new options).play (acts ++ [a] ++ more)
      writes s.log = writes ((new options).play (acts ++ [a])).log ∧
      ((s.outcome? q ≠ none ∨ .event .close ∈ more ∨ s.child.exit ≠ none ∧ s.move? = none) →
        ∀ i b, q < i → s.calls[i]? = some b → ∃ cause, b.outcome = some (.failed cause) ∧
          (cause.wraps .terminated = true ∨ cause = .plain .canceled ∧ b.abandoned = true)) := by
  have hplay : (new options).play (acts ++ [a]) = ((new options).play acts).perform a := by simp
  obtain ⟨hidle, -, ⟨rest, hqueue⟩, ⟨deadline, hawaits⟩, hcalls⟩ :=
    taken_of_writes options hcall (hplay ▸ hwrote)
  rw [← hplay] at hawaits hcalls
  rw [← hcalls] at hcall
  refine ⟨fun i b hi hb => ended_before_first options hidle hqueue hi hb, ?_⟩
  intro more s
  obtain ⟨hconcluding, hwrites⟩ :=
    concluding_play options (.inl ⟨deadline, hawaits⟩) hcall hlast more
  refine ⟨hwrites, fun hended i b hi hb => failed_behind options hawaits hcall hlast ?_ hi hb⟩
  have ht := tidy_play (tidy_new options) (acts ++ [a] ++ more)
  have hover := hconcluding.over ht (placed_play options _) (ended_play options _)
  rcases hended with hdone | hclose | hgone
  · exact hover (.inl hdone)
  · rw [play_append]
    exact over_of_close (tidy_play (tidy_new options) (acts ++ [a])) hclose
  · exact hover (.inr hgone)

/-- It happens: of five calls the first is answered, the second was given up, the third is a quit,
and behind it stand a command and another quit. -/
theorem quit_is_last_of_five :
    let options : Options := { sentinel := [62], launcher := .spawns {} }
    let acts : List Act := [.event .start, .event .launch, .event (.submit [97]),
      .event (.submit [98]), .event (.quit [113] 0), .event (.submit [99]), .event (.quit [113] 0),
      .event (.abandon 1), .event (.output [62, 62]), .pump, .worker, .worker, .worker, .worker]
    let more : List Act := [.event (.output [62]), .pump, .worker]
    let s := (new options).play (acts ++ [.worker] ++ more)
    writes s.log = [(1, [97, 10]), (3, [113, 10])] ∧ s.calls.length = 5 ∧ s.outcome? 2 ≠ none ∧
      (∀ i b, 2 < i → s.calls[i]? = some b → ∃ cause, b.outcome = some (.failed cause) ∧
        (cause.wraps .terminated = true ∨ cause = .plain .canceled ∧ b.abandoned = true)) :=
  ⟨by decide, by decide, by decide,
    ((quit_is_last _ _ .worker 2 { command := [113], seq := 3, last := true } (by decide) rfl
      (by decide)).2 _).2 (.inl (by decide))⟩

end ReplBridge.Repl.Session
