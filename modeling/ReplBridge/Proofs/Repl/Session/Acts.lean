import ReplBridge.Proofs.Repl.Session.Change
import ReplBridge.Proofs.Repl.Session.Moves

/-!
**Every act is a chain of elementary changes.**

Taking an act apart needs a little order in the session: the queue names calls that exist, in
increasing order, and the call in flight stands before all of them; and a session that is over has
an empty queue.  This is what makes it the same to fail the call in flight before or after the
session ends.  And the stages of a session come one after the other: nobody writes before the
launcher has returned, and no end is announced that has not come.  A session is *tidy* if it has this
order, and elementary changes keep it.

Main definitions:

* `Session.Staged` — the order of start and end;
* `Session.Returned` — the launcher has returned;
* `Session.Tidy` — the order of queue and worker.

Main results:

* `Session.perform_cases` — **every act is a chain of elementary changes**;
* `Session.play_induction` — **what elementary changes keep, a play keeps**.
-/

set_option autoImplicit false

namespace ReplBridge.Repl.Session

variable {call : Nat} {deadline : Option Nat}

variable {s s' : Session} {l : Label}

/-! ### Order of start and end -/

/-- **The order of start and end.** -/
structure Staged (s : Session) : Prop where
  /-- An end that is announced has come. -/
  announced : s.done = true → s.reason? ≠ none
  /-- Nobody writes before the launcher has returned. -/
  off : s.state = .idle ∨ s.launching = true → s.worker = .off
  /-- The launcher works for a session that is starting, if it is not over. -/
  launching : s.launching = true → s.state = .starting ∨ s.reason? ≠ none
  /-- Such a session is the one in which the first prompt is waited for. -/
  greeting : s.worker = .greeting → s.state = .starting ∨ s.reason? ≠ none

theorem staged_new (options : Options) : (new options).Staged :=
  ⟨by simp [new], fun _ => rfl, by simp [new], by simp [new]⟩

/-- The session was started, and its launcher has returned. -/
def Returned (s : Session) : Prop := s.state ≠ .idle ∧ s.launching = false

/-- Whoever is at work has a launcher that has returned. -/
theorem Staged.working (h : s.Staged) (hworker : s.worker ≠ .off) : s.Returned := by
  refine ⟨fun hidle => hworker (h.off (.inl hidle)), ?_⟩
  cases hlaunching : s.launching with
  | false => rfl
  | true => exact absurd (h.off (.inr hlaunching)) hworker

/-- The launcher works for a session that was started. -/
theorem Staged.begun (h : s.Staged) (hlaunching : s.launching = true) : s.state ≠ .idle := by
  intro hidle
  rcases h.launching hlaunching with hstarting | hover
  · rw [hidle] at hstarting
    cases hstarting
  · simp [reason?, hidle] at hover

/-- The worker goes on, or it stops, and nothing else happens to start and end. -/
theorem Staged.keep (h : s.Staged) (hstate : s'.state = s.state) (hdone : s'.done = s.done)
    (hlaunching : s'.launching = s.launching)
    (hworker : s'.worker = .off ∨ s.worker ≠ .off ∧ s'.worker ≠ .greeting) : s'.Staged := by
  have hreason : s'.reason? = s.reason? := by simp [reason?, hstate]
  refine ⟨?_, ?_, ?_, ?_⟩
  · rw [hdone, hreason]
    exact h.announced
  · rw [hstate, hlaunching]
    intro hearly
    rcases hworker with hoff | ⟨hwas, -⟩
    · exact hoff
    · exact absurd (h.off hearly) hwas
  · rw [hlaunching, hstate, hreason]
    exact h.launching
  · intro hgreeting
    rcases hworker with hoff | ⟨-, hnot⟩
    · rw [hoff] at hgreeting
      cases hgreeting
    · exact absurd hgreeting hnot

/-- **Elementary changes keep start and end in order.** -/
theorem Staged.change (h : s.Staged) (hc : s.Change l s') : s'.Staged := by
  cases hc with
  | aside | ticked | printed | accepted | rejected | gaveUp | skipped | read | dropped | drained
  | departed => exact ⟨h.announced, h.off, h.launching, h.greeting⟩
  | starting hidle =>
      have hopen : s.reason? = none := by simp [reason?, hidle]
      have hoff := h.off (.inl hidle)
      exact ⟨fun hdone => absurd hopen (h.announced hdone), fun _ => hoff, fun _ => .inl rfl,
        fun _ => .inl rfl⟩
  | stranded hlaunching =>
      exact ⟨h.announced, fun hearly => h.off (hearly.imp_right fun h => by cases h),
        fun h => (by cases h), h.greeting⟩
  | launched manner complaints hlaunching =>
      have hbegun := h.begun hlaunching
      exact ⟨h.announced, by simp [hbegun], fun h => (by cases h),
        fun _ => h.launching hlaunching⟩
  | ended =>
      exact ⟨fun _ => by simp [reason?], fun hearly => h.off (.inr (by simpa using hearly)),
        fun _ => .inr (by simp [reason?]), fun _ => .inr (by simp [reason?])⟩
  | refused | parted =>
      exact ⟨fun _ => by simp [reason?], fun _ => rfl, fun _ => .inr (by simp [reason?]),
        fun hworker => by cases hworker⟩
  | announced hover => exact ⟨fun _ => hover, h.off, h.launching, h.greeting⟩
  | greeted hworker hopen =>
      have hreturned := (h.working (by simp [hworker])).2
      exact ⟨fun hdone => absurd hopen (h.announced hdone), by simp [hreturned],
        fun hlaunching => absurd hlaunching (by simp [hreturned]), fun hw => by cases hw⟩
  | overtaken | outlived | failed | expired | stopped => exact h.keep rfl rfl rfl (.inl rfl)
  | wrote hworker => exact h.keep rfl rfl rfl (.inr ⟨by simp [hworker], by simp⟩)
  | answered hworker => exact h.keep rfl rfl rfl (.inr ⟨by simp [hworker], by simp⟩)

/-- **A launcher that has returned is not called again.** -/
theorem Change.returned (hc : s.Change l s') (h : s.Returned) : s'.Returned := by
  obtain ⟨hbegun, hreturned⟩ := h
  cases hc with
  | starting hidle => exact absurd hidle hbegun
  | stranded | launched => exact ⟨hbegun, rfl⟩
  | ended | greeted | refused | parted => exact ⟨by simp, hreturned⟩
  | _ => exact ⟨hbegun, hreturned⟩

/-! ### Order in the queue -/

/-- **The order of queue and worker.** -/
structure Tidy (s : Session) : Prop where
  /-- The queue is in the order of submission. -/
  sorted : s.queue.Pairwise (· < ·)
  /-- Whatever is queued was submitted. -/
  queued : ∀ q ∈ s.queue, q < s.calls.length
  /-- A session that is over has an empty queue. -/
  emptied : s.reason? ≠ none → s.queue = []
  /-- The call in flight was submitted before all that are queued. -/
  awaited : ∀ call deadline, s.worker = .awaiting call deadline →
    call < s.calls.length ∧ ∀ q ∈ s.queue, call < q
  /-- Start and end are in order. -/
  staged : s.Staged

theorem tidy_new (options : Options) : (new options).Tidy :=
  ⟨.nil, by simp [new], fun _ => rfl, by simp [new], staged_new options⟩

/-- A longer list of calls, the same worker, and a queue that lost some calls: still in order. -/
theorem Tidy.shrink (h : s.Tidy) (hlen : s'.calls.length = s.calls.length)
    (hqueue : s'.queue.Sublist s.queue) (hover : s'.reason? ≠ none → s'.queue = [])
    (hworker : ∀ call deadline, s'.worker = .awaiting call deadline →
      s.worker = .awaiting call deadline) (hstaged : s'.Staged) : s'.Tidy := by
  refine ⟨h.sorted.sublist hqueue, ?_, hover, ?_, hstaged⟩
  · intro q hq
    rw [hlen]
    exact h.queued q (hqueue.subset hq)
  · intro call deadline hw
    obtain ⟨hlt, hbefore⟩ := h.awaited call deadline (hworker call deadline hw)
    exact ⟨hlen ▸ hlt, fun q hq => hbefore q (hqueue.subset hq)⟩

theorem Tidy.accept (h : s.Tidy) (hopen : s.reason? = none) (c : Call) (n : Nat) :
    Tidy { s with
      accepted := n, calls := s.calls ++ [c], queue := s.queue ++ [s.calls.length] } := by
  refine ⟨?_, ?_, fun hover => absurd hopen hover, ?_,
    ⟨h.staged.announced, h.staged.off, h.staged.launching, h.staged.greeting⟩⟩
  · refine List.pairwise_append.2 ⟨h.sorted, List.pairwise_singleton _ _, ?_⟩
    intro q hq n hn
    rw [List.mem_singleton.1 hn]
    exact h.queued q hq
  · intro q hq
    rw [List.length_append, List.length_singleton]
    rcases List.mem_append.1 hq with hq | hq
    · have := h.queued q hq
      omega
    · rw [List.mem_singleton.1 hq]
      omega
  · intro call deadline hw
    obtain ⟨hlt, hbefore⟩ := h.awaited call deadline hw
    refine ⟨?_, ?_⟩
    · rw [List.length_append, List.length_singleton]
      omega
    · intro q hq
      rcases List.mem_append.1 hq with hq | hq
      · exact hbefore q hq
      · rw [List.mem_singleton.1 hq]
        exact hlt

/-- **Elementary changes keep the order.** -/
theorem Tidy.change (h : s.Tidy) (hc : s.Change l s') : s'.Tidy := by
  have hstaged := h.staged.change hc
  cases hc with
  | aside | ticked | printed | stranded | announced | read | dropped | drained | departed =>
      exact ⟨h.sorted, h.queued, h.emptied, h.awaited, hstaged⟩
  | starting => exact h.shrink rfl (.refl _) (by simp [reason?]) (fun _ _ => id) hstaged
  | launched => exact h.shrink rfl (.refl _) h.emptied (by simp) hstaged
  | accepted command last hopen => exact h.accept hopen _ _
  | rejected command last hover =>
      have hnil := h.emptied (by simp [hover])
      refine ⟨h.sorted, by simp [hnil], h.emptied, ?_, hstaged⟩
      intro call deadline hw
      have hlt := (h.awaited call deadline hw).1
      exact ⟨by rw [List.length_append]; omega, by simp [hnil]⟩
  | gaveUp => exact h.shrink (by simp) (.refl _) h.emptied (fun _ _ => id) hstaged
  | ended =>
      exact h.shrink (by simp) (List.nil_sublist _) (fun _ => rfl) (fun _ _ => id) hstaged
  | greeted => exact h.shrink rfl (.refl _) (by simp [reason?]) (by simp) hstaged
  | overtaken => exact h.shrink rfl (.refl _) h.emptied (by simp) hstaged
  | skipped hworker hqueue =>
      refine h.shrink (by simp) (hqueue ▸ List.sublist_cons_self _ _) ?_ (fun _ _ => id) hstaged
      intro hover
      exact absurd (h.emptied hover) (by simp [hqueue])
  | wrote hworker hqueue =>
      have hsorted := h.sorted
      rw [hqueue] at hsorted
      refine ⟨(List.pairwise_cons.1 hsorted).2, ?_, ?_, ?_, hstaged⟩
      · intro q hq
        exact h.queued q (by simp [hqueue, hq])
      · intro hover
        exact absurd (h.emptied hover) (by simp [hqueue])
      · intro call deadline hw
        cases hw
        exact ⟨h.queued _ (by simp [hqueue]), (List.pairwise_cons.1 hsorted).1⟩
  | refused | parted =>
      exact h.shrink (by simp) (List.nil_sublist _) (fun _ => rfl) (by simp) hstaged
  | answered | outlived | failed | expired =>
      exact h.shrink (by simp) (.refl _) h.emptied (by simp) hstaged
  | stopped => exact h.shrink rfl (.refl _) h.emptied (by simp) hstaged

theorem Tidy.calm (h : s.Tidy) (hc : s.Calm s') : s'.Tidy := by
  induction hc with
  | refl => exact h
  | tail _ hc ih => exact ih.change hc

/-! ### Operations that several acts share -/

/-- Ending a call that is not queued, before or after the queued ones. -/
theorem finishAll_modify {o : Outcome} {queue : List Nat} (hcall : call ∉ queue) (f : Call → Call)
    (calls : List Call) :
    finishAll o queue (calls.modify call f) = (finishAll o queue calls).modify call f := by
  refine List.ext_getElem? fun i => ?_
  rw [getElem?_finishAll, List.getElem?_modify, List.getElem?_modify, getElem?_finishAll]
  cases calls[i]? with
  | none => rfl
  | some c =>
      by_cases hi : call = i
      · subst hi
        simp [hcall]
      · simp [hi]

theorem Change.quiet {child : Child} (complaints : Complaints) (clients : List Client)
    (hchild : s.child.Follows child) : s.Change .silent { s with child, complaints, clients } := by
  simpa using Change.aside complaints clients [] hchild

theorem calm_join (s : Session) (clients : List Client) : s.Calm { s with clients } :=
  (Change.quiet s.complaints clients (.refl _)).calm

theorem calm_child {child : Child} (hchild : s.child.Follows child) : s.Calm { s with child } :=
  (Change.quiet s.complaints s.clients hchild).calm

theorem calm_kill (s : Session) : s.Calm s.kill := by
  obtain ⟨child, heq, hchild⟩ := kill_eq s
  rw [heq]
  exact calm_child hchild

theorem calm_closeStdin (s : Session) : s.Calm s.closeStdin := by
  obtain ⟨child, heq, hchild⟩ := closeStdin_eq s
  rw [heq]
  exact calm_child hchild

theorem calm_childExits (s : Session) (status : Option Failure) : s.Calm (s.childExits status) := by
  obtain ⟨child, heq, hchild⟩ := childExits_eq s status
  rw [heq]
  exact calm_child hchild

theorem calm_terminate (s : Session) (r : Failure) : s.Calm (s.terminate r) := by
  by_cases hopen : s.reason? = none
  · rw [terminate_open hopen]
    exact (Change.ended r hopen).calm
  · rw [terminate_over hopen]
    exact .refl

theorem submit_open (h : s.reason? = none) (command : Bytes) (last : Bool) :
    s.submit command last = { s with
      accepted := s.accepted + 1
      calls := s.calls ++ [{ command, last, seq := s.accepted + 1 }]
      queue := s.queue ++ [s.calls.length] } := by
  have hstate := reason?_eq_none_iff.1 h
  unfold submit
  split
  · rename_i r hr
    exact absurd hr (hstate r)
  · rfl

theorem calm_submit (s : Session) (command : Bytes) (last : Bool) :
    s.Calm (s.submit command last) := by
  cases hr : s.reason? with
  | none =>
      rw [submit_open hr]
      exact (Change.accepted command last hr).calm
  | some r =>
      have heq : s.submit command last = { s with
          calls := s.calls ++
            [{ command, last, seq := 0, outcome := some (.failed (.ofTermination r)) }] } := by
        simp [submit, state_of_reason? hr]
      rw [heq]
      exact (Change.rejected command last hr).calm

/-- A call that is not queued ends before or after the session does. -/
theorem finish_terminate_unqueued (hfresh : call ∉ s.queue) (o : Outcome) (r : Failure) :
    (s.finish call o).terminate r = (s.terminate r).finish call o := by
  by_cases hopen : s.reason? = none
  · rw [terminate_open (s := s.finish call o) hopen, terminate_open hopen]
    simp only [finish_eq, finishAll_modify hfresh]
  · rw [terminate_over (s := s.finish call o) hopen, terminate_over hopen]

/-- The call in flight fails as the session ends, in whichever order. -/
theorem finish_terminate (ht : s.Tidy) (hworker : s.worker = .awaiting call deadline) (o : Outcome)
    (r : Failure) : (s.finish call o).terminate r = (s.terminate r).finish call o :=
  finish_terminate_unqueued (fun hq => Nat.lt_irrefl _ ((ht.awaited call deadline hworker).2 call hq))
    o r

/-- Whoever wrote before plays no part for a worker that stops at the end. -/
theorem terminate_stop_worker (s : Session) (w : Worker) (r : Failure) :
    (s.terminate r).stop = ({ s with worker := w }.terminate r).stop := by
  by_cases hopen : s.reason? = none
  · rw [terminate_open hopen, terminate_open (s := { s with worker := w }) hopen]
    rfl
  · rw [terminate_over hopen, terminate_over (s := { s with worker := w }) hopen]
    rfl

/-- The session ends, and with it the call in flight. -/
theorem calm_fail (ht : s.Tidy) (hworker : s.worker = .awaiting call deadline) (cause r : Failure) :
    s.Calm ((s.finish call (.failed (.ofTermination cause))).terminate r).stop := by
  rw [finish_terminate ht hworker]
  refine (calm_terminate s r).tail ?_
  have hworker' : (s.terminate r).worker = .awaiting call deadline := by simpa using hworker
  exact Change.failed cause hworker' (terminate_reason? s r)

theorem kill_stop (s : Session) : s.kill.stop = s.stop.kill := by
  cases hlaunched : s.launched with
  | none => simp [kill, stop, hlaunched]
  | some manner =>
      cases hheeds : manner.heedsKill <;> cases hexit : s.child.exit <;>
        simp [kill, stop, childExits, hlaunched, hheeds, hexit]

/-! ### The moves of the parties -/

theorem offered?_eq_some {frame : Bytes} (h : s.offered? = some frame) :
    ∃ sanitizer framer offered, s.pump = .reading sanitizer framer (frame :: offered) := by
  unfold offered? at h
  split at h
  · rename_i sanitizer framer first offered hpump
    cases h
    exact ⟨sanitizer, framer, offered, hpump⟩
  · cases h

theorem dropOffer_eq {sanitizer : Terminal.Sanitizer} {framer : Framer} {frame : Bytes}
    {offered : List Bytes} (h : s.pump = .reading sanitizer framer (frame :: offered)) :
    s.dropOffer = { s with pump := .reading sanitizer framer offered } := by
  simp [dropOffer, h]

/-- Unless its end was announced, nobody knows that a session is over. -/
theorem announced?_eq_none_iff (hs : s.Staged) : s.announced? = none ↔ s.done = false := by
  unfold announced?
  cases hdone : s.done with
  | false => simp
  | true => simpa using hs.announced hdone

theorem announced?_eq_some {r : Failure} (h : s.announced? = some r) :
    s.done = true ∧ s.reason? = some r := by
  unfold announced? at h
  split at h
  · exact ⟨‹_›, h⟩
  · cases h

/-- The text before the first prompt makes a session ready that is not over. -/
theorem greet_starting {sanitizer : Terminal.Sanitizer} {framer : Framer} {banner : Bytes}
    {offered : List Bytes} (hstate : s.state = .starting)
    (hpump : s.pump = .reading sanitizer framer (banner :: offered)) :
    s.greet banner = { s with
      state := .ready
      worker := .idle
      pump := .reading sanitizer framer offered
      log := s.log ++ [.recorded .output 0 banner, .became .ready] } := by
  simp [greet, dropOffer_eq hpump, recordFrame, emit, hstate]

theorem greet_over {sanitizer : Terminal.Sanitizer} {framer : Framer} {banner : Bytes}
    {offered : List Bytes} (hover : s.reason? ≠ none)
    (hpump : s.pump = .reading sanitizer framer (banner :: offered)) :
    s.greet banner = { s with
      worker := .off
      pump := .reading sanitizer framer offered
      log := s.log ++ [.recorded .output 0 banner] } := by
  obtain ⟨r, hr⟩ := Option.ne_none_iff_exists'.1 hover
  simp [greet, dropOffer_eq hpump, recordFrame, emit, stop, state_of_reason? hr]

theorem calm_greet (hs : s.Staged) {banner : Bytes} (hworker : s.worker = .greeting)
    (hunheard : s.done = false) (hoffer : s.offered? = some banner) : s.Calm (s.greet banner) := by
  obtain ⟨sanitizer, framer, offered, hpump⟩ := offered?_eq_some hoffer
  by_cases hover : s.reason? = none
  · have hstarting := (hs.greeting hworker).resolve_right fun h => h hover
    rw [greet_starting hstarting hpump]
    exact (Change.greeted hworker hover hpump).calm
  · rw [greet_over hover hpump]
    exact (Change.overtaken hworker hover hunheard hpump).calm

/-- A call that cannot be written ends the session, and fails with all others that are queued. -/
theorem dispatch_refused {rest : List Nat} {c : Call} {cause : Failure} (hopen : s.reason? = none)
    (hqueue : s.queue = call :: rest) (hcall : s.calls[call]? = some c)
    (hwaits : c.abandoned = false) (hfail : s.writeFailure? = some cause) :
    s.dispatch call rest = ({ s with
      state := .terminated (.write cause)
      queue := []
      calls := finishAll (.failed (.ofTermination (.write cause))) s.queue s.calls
      log := s.log ++ [.recorded .input c.seq c.command, .became (.terminated (.write cause))]
      worker := .off } : Session).kill := by
  have hfail' : ({ s with queue := rest }.emit
      (.recorded .input c.seq c.command)).writeFailure? = some cause := hfail
  have hopen' : (({ s with queue := rest }.emit (.recorded .input c.seq c.command)).finish
      call (.failed (.ofTermination (.write cause)))).reason? = none := hopen
  simp only [dispatch, hcall, hwaits, hfail', Bool.false_eq_true, if_false]
  rw [terminate_open hopen', kill_stop]
  simp [emit, stop, hqueue, finishAll]

theorem dispatch_cases (ht : s.Tidy) (hworker : s.worker = .idle) {rest : List Nat}
    (hqueue : s.queue = call :: rest) :
    s.Calm (s.dispatch call rest) ∨ s.Change .taken (s.dispatch call rest) := by
  have hlt : call < s.calls.length := ht.queued call (by simp [hqueue])
  have hcall : s.calls[call]? = some s.calls[call] := List.getElem?_eq_getElem hlt
  have hopen : s.reason? = none := by
    by_cases hopen : s.reason? = none
    · exact hopen
    · exact absurd (ht.emptied hopen) (by simp [hqueue])
  generalize s.calls[call] = c at hcall
  cases hgone : c.abandoned with
  | true =>
      have hskip : s.dispatch call rest =
          { s with queue := rest }.finish call (.failed (.plain .canceled)) := by
        simp [dispatch, hcall, hgone]
      rw [hskip]
      exact .inr (Change.skipped hworker hqueue hcall hgone)
  | false =>
      cases hfail : s.writeFailure? with
      | none =>
          have hwrote : s.dispatch call rest = { s with
              queue := rest
              log := s.log ++ [.recorded .input c.seq c.command,
                .wrote c.seq (c.command ++ [Bytes.newline])]
              worker := .awaiting call (s.options.timeLimit.map (s.now + ·)) } := by
            have hfail' : ({ s with queue := rest }.emit
                (.recorded .input c.seq c.command)).writeFailure? = none := hfail
            simp only [dispatch, hcall, hgone, hfail']
            simp [emit]
          rw [hwrote]
          exact .inr (Change.wrote hworker hqueue hcall hgone hfail)
      | some cause =>
          rw [dispatch_refused hopen hqueue hcall hgone hfail]
          have hchange := Change.refused hworker hopen hqueue hcall hgone hfail
          exact .inl (hchange.calm.trans (calm_kill _))

/-- A frame answers the call in flight, and the last command ends the session. -/
theorem calm_answer (ht : s.Tidy) {frame : Bytes} (hworker : s.worker = .awaiting call deadline)
    (hunheard : s.done = false) (hoffer : s.offered? = some frame) :
    s.Calm (s.answer call frame) := by
  obtain ⟨hlt, hbefore⟩ := ht.awaited call deadline hworker
  have hfresh : call ∉ s.queue := fun hq => Nat.lt_irrefl _ (hbefore call hq)
  have hcall : s.calls[call]? = some s.calls[call] := List.getElem?_eq_getElem hlt
  generalize s.calls[call] = c at hcall
  obtain ⟨sanitizer, framer, offered, hpump⟩ := offered?_eq_some hoffer
  have hanswered := Change.answered hworker hunheard hpump hcall
  have hdrop : s.dropOffer.recordFrame c.seq frame = { s with
      pump := .reading sanitizer framer offered
      log := s.log ++ [.recorded .output c.seq frame] } := by
    simp [dropOffer_eq hpump, recordFrame, emit]
  cases hlast : c.last with
  | false =>
      have heq : s.answer call frame = { s with
          worker := .idle
          pump := .reading sanitizer framer offered
          calls := s.calls.modify call (Call.finish (.answered (classify frame)))
          log := s.log ++ [.recorded .output c.seq frame] } := by
        simp [answer, hcall, hlast, hdrop]
      rw [heq]
      exact hanswered.calm
  | true =>
      -- the call is answered, then the session ends unless it is over, then the worker stops
      have hstop {t : Session} (hidle : t.worker = .idle) :
          t.Calm (t.terminate (.plain .quit)).stop :=
        (calm_terminate t _).tail
          (Change.stopped (.inl (by simpa using hidle)) (terminate_reason? t _))
      have heq : s.answer call frame = (({ s with
          worker := .idle
          pump := .reading sanitizer framer offered
          calls := s.calls.modify call (Call.finish (.answered (classify frame)))
          log := s.log ++ [.recorded .output c.seq frame] } : Session).terminate
            (.plain .quit)).stop := by
        simp only [answer, hcall, hlast, hdrop, if_true]
        rw [← finish_terminate_unqueued (s := { s with
            pump := .reading sanitizer framer offered
            log := s.log ++ [.recorded .output c.seq frame] }) hfresh]
        exact terminate_stop_worker _ _ _
      rw [heq]
      exact hanswered.calm.trans (hstop rfl)

/-- The subprocess is gone while a call waits for its frame. -/
theorem calm_lose (ht : s.Tidy) {tail : Bytes} {status : Option Failure}
    (hworker : s.worker = .awaiting call deadline) (hunheard : s.done = false)
    (hpump : s.pump = .finished tail status) : s.Calm (s.lose call tail status) := by
  have hlt := (ht.awaited call deadline hworker).1
  have hcall : s.calls[call]? = some s.calls[call] := List.getElem?_eq_getElem hlt
  generalize s.calls[call] = c at hcall
  cases hlast : c.last with
  | true =>
      by_cases hover : s.reason? = none
      · have hopen : (s.recordFrame c.seq tail).reason? = none := hover
        have heq : s.lose call tail status = { s with
            state := .terminated (.plain .quit)
            queue := []
            calls := (finishAll (.failed (.ofTermination (.plain .quit))) s.queue
              s.calls).modify call (Call.finish (.answered (classify tail)))
            log := s.log ++ [.recorded .output c.seq tail, .became (.terminated (.plain .quit))]
            worker := .off } := by
          simp only [lose, hcall, hlast, if_true, terminate_open hopen]
          simp [recordFrame, emit, stop]
        rw [heq]
        exact (Change.parted hworker hover hpump hcall hlast).calm
      · have hover' : (s.recordFrame c.seq tail).reason? ≠ none := hover
        have heq : s.lose call tail status = { s with
            calls := s.calls.modify call (Call.finish (.answered (classify tail)))
            log := s.log ++ [.recorded .output c.seq tail]
            worker := .off } := by
          simp only [lose, hcall, hlast, if_true, terminate_over hover']
          simp [recordFrame, emit, stop]
        rw [heq]
        exact (Change.outlived hworker hover hunheard hpump hcall hlast).calm
  | false =>
      have heq : s.lose call tail status =
          ((s.finish call (.failed (.ofTermination (.ofExit status)))).terminate
            (.ofExit status)).stop := by
        simp [lose, hcall, hlast]
      rw [heq]
      exact calm_fail ht hworker _ _

theorem calm_end_stop (r : Failure) (hworker : s.worker = .idle ∨ s.worker = .greeting) :
    s.Calm (s.terminate r).stop := by
  refine (calm_terminate s r).tail (Change.stopped ?_ (terminate_reason? s r))
  simpa using hworker

theorem announce?_eq_some (h : s.announce? = some s') :
    s.reason? ≠ none ∧ s.done = false ∧ s' = { s with done := true } := by
  unfold announce? at h
  split at h
  · rename_i r hreason hdone
    exact ⟨by simp [hreason], hdone, (Option.some.inj h).symm⟩
  · cases h

theorem calm_announce (h : s.announce? = some s') : s.Calm s' := by
  obtain ⟨hover, -, rfl⟩ := announce?_eq_some h
  exact (Change.announced hover).calm

/-- **The worker's moves.** -/
theorem workerMove_cases (ht : s.Tidy) (h : s.workerMove? = some s') :
    s.Calm s' ∨ s.Change .taken s' := by
  have hunheard (hunknown : s.announced? = none) : s.done = false :=
    (announced?_eq_none_iff ht.staged).1 hunknown
  cases workerMove?_eq_some h with
  | stops hworker hknown =>
      exact .inl (Change.stopped hworker (by simp [announced?_eq_some hknown])).calm
  | departs hworker => exact .inl (calm_end_stop _ hworker)
  | greets hworker hunknown hoffer =>
      exact .inl (calm_greet ht.staged hworker (hunheard hunknown) hoffer)
  | dispatches hworker hqueue => exact dispatch_cases ht hworker hqueue
  | fails hworker hknown =>
      exact .inl (Change.failed _ hworker (by simp [announced?_eq_some hknown])).calm
  | answers hworker hunknown hoffer =>
      exact .inl (calm_answer ht hworker (hunheard hunknown) hoffer)
  | loses hworker hunknown hpump => exact .inl (calm_lose ht hworker (hunheard hunknown) hpump)

/-- The moves of the reader of standard output. -/
theorem calm_pumpMove (h : s.pumpMove? = some s') : s.Calm s' := by
  cases pumpMove?_eq_some h with
  | drops hpump hknown => exact (Change.dropped hpump (announced?_eq_some hknown).1).calm
  | reads hpump hstdout => exact (Change.read hpump hstdout).calm
  | drains hpump hstdout hended => exact (Change.drained hpump hstdout hended).calm
  | departs hpump hexit => exact (Change.departed hpump hexit).calm

/-- The moves of the reader of standard error. -/
theorem calm_complaintsMove (h : s.complaintsMove? = some s') : s.Calm s' := by
  cases complaintsMove?_eq_some h with
  | @reads chunk rest =>
      have hchild : s.child.Follows { s.child with stderr := rest } := ⟨rfl, id, .inl rfl⟩
      exact (Change.aside (s.complaints.read chunk).1 s.clients _ hchild).calm
  | ends =>
      by_cases hline : s.complaints.line = []
      · simpa [hline] using (Change.quiet { s.complaints with ended := true, line := [] } s.clients
          (.refl s.child)).calm
      · simpa [hline] using (Change.aside { s.complaints with ended := true, line := [] } s.clients
          [s.complaints.line.reverse] (.refl s.child)).calm

theorem calm_release (s : Session) (result : Option Failure) : s.Calm (s.release result).1 := by
  unfold release
  split
  · exact calm_terminate s _
  · exact calm_closeStdin s

theorem shut_of_none (h : s.launched = none) : s.shut = (s, .hasClosed none) := by
  simp [shut, h]

theorem shut_of_launched (h : s.launched ≠ none) :
    s.shut = (s.closeStdin.kill, .closing s.closeStdin.killFailure) := by
  obtain ⟨manner, hmanner⟩ := Option.ne_none_iff_exists'.1 h
  simp [shut, hmanner]

theorem calm_shut (s : Session) : s.Calm s.shut.1 := by
  by_cases hlaunched : s.launched = none
  · rw [shut_of_none hlaunched]
    exact .refl
  · rw [shut_of_launched hlaunched]
    exact (calm_closeStdin s).trans (calm_kill _)

theorem calm_clientStep {c c' : Client} (h : s.clientStep? c = some (s', c')) : s.Calm s' := by
  cases clientStep?_eq_some h with
  | returns | closed => exact .refl
  | leaves | released | reaped => exact calm_terminate s _
  | releases => exact calm_release s _
  | shuts => exact calm_shut s

/-! ### Timers and events -/

theorem calm_expireClient (s : Session) (c : Client) : s.Calm (s.expireClient c).1 := by
  cases c with
  | executing call deadline => exact (Change.gaveUp call).calm
  | quitting call deadline => exact (Change.gaveUp call).calm.trans (calm_release _ _)
  | releasing result deadline => exact calm_kill s
  | leaving | reaping | shutting | closing | executed | hasQuit | hasClosed => exact .refl

/-- A command has had its time: the session ends, the call fails with the bare reason, and the
subprocess is killed. -/
theorem expire_changes (ht : s.Tidy) (hworker : s.worker = .awaiting call deadline) :
    ∃ s₁ s₂, s.Calm s₁ ∧ s₁.Change (.expired call) s₂ ∧ s₂.Calm (s.expire call) := by
  obtain ⟨hlt, hbefore⟩ := ht.awaited call deadline hworker
  have hfresh : call ∉ s.queue := fun hq => Nat.lt_irrefl _ (hbefore call hq)
  have hcall : s.calls[call]? = some s.calls[call] := List.getElem?_eq_getElem hlt
  generalize s.calls[call] = c at hcall
  have hexpire : s.expire call =
      ((s.terminate (.timedOut s.options.commandTimeout c.command)).finish call
        (.failed (.timedOut s.options.commandTimeout c.command))).stop.kill := by
    simp only [expire, hcall]
    rw [finish_terminate ht hworker, kill_stop]
  generalize hr : Failure.timedOut s.options.commandTimeout c.command = reason at hexpire
  have hworker' : (s.terminate reason).worker = .awaiting call deadline := by simpa using hworker
  have hcall' : (s.terminate reason).calls[call]? = some c := by
    rw [terminate_unqueued hfresh, hcall]
  have hexpired := Change.expired hworker' (terminate_reason? s reason) hcall'
  have hbare : Failure.timedOut (s.terminate reason).options.commandTimeout c.command = reason := by
    rw [terminate_options, hr]
  rw [hbare] at hexpired
  rw [hexpire]
  exact ⟨_, _, calm_terminate s reason, hexpired, calm_kill _⟩

theorem start_eq (h : s.state = .idle) :
    s.start = { s with
      state := .starting, launching := true, log := s.log ++ [.became .starting] } := by
  simp [start, h, emit]

theorem start_of_begun (h : s.state ≠ .idle) : s.start = s := by
  unfold start
  split
  · rename_i hidle
    exact absurd hidle h
  · rfl

/-- **How the launcher returns**: it was not called or has returned before; it returns without a
subprocess, and the session ends; or it returns with one. -/
theorem launch_cases (s : Session) :
    (s.launching = false ∧ s.launch = s) ∨
    (s.launching = true ∧ ∃ reason, s.launch = { s with launching := false }.terminate reason) ∨
    s.launching = true ∧ ∃ manner, s.options.launcher = .spawns manner ∧
      s.launch = { s with
        launching := false
        launched := some manner
        worker := .greeting
        complaints := { s.complaints with ended := !manner.hasStderr } } := by
  cases hlaunching : s.launching with
  | false => exact .inl ⟨rfl, by simp [launch, hlaunching]⟩
  | true =>
      cases hlauncher : s.options.launcher with
      | missing =>
          exact .inr (.inl ⟨rfl, .noLauncher, by simp only [launch, hlaunching, hlauncher, if_true]⟩)
      | fails cause =>
          exact .inr (.inl ⟨rfl, .spawn cause, by simp only [launch, hlaunching, hlauncher, if_true]⟩)
      | spawns manner =>
          exact .inr (.inr ⟨rfl, manner, rfl, by simp only [launch, hlaunching, hlauncher, if_true]⟩)

/-- The launcher returns once. -/
theorem launch_launching (s : Session) : s.launch.launching = false := by
  rcases launch_cases s with ⟨hreturned, heq⟩ | ⟨-, reason, heq⟩ | ⟨-, manner, -, heq⟩
  · rw [heq, hreturned]
  · rw [heq, terminate_launching]
  · rw [heq]

theorem calm_start (s : Session) : s.Calm s.start := by
  by_cases hidle : s.state = .idle
  · rw [start_eq hidle]
    exact (Change.starting hidle).calm
  · rw [start_of_begun hidle]
    exact .refl

theorem calm_launch (s : Session) : s.Calm s.launch := by
  rcases launch_cases s with ⟨-, heq⟩ | ⟨hlaunching, reason, heq⟩ | ⟨hlaunching, manner, -, heq⟩
  · rw [heq]
    exact .refl
  · rw [heq]
    exact (Change.stranded hlaunching).calm.trans (calm_terminate _ _)
  · rw [heq]
    exact (Change.launched manner _ hlaunching).calm

theorem calm_quit (s : Session) (command : Bytes) (limit : Nat) :
    s.Calm (s.quit command limit) := by
  unfold quit
  split
  · exact calm_join _ _
  · exact (calm_submit s command true).trans (calm_join _ _)

theorem calm_close (s : Session) : s.Calm s.close :=
  (calm_terminate s (.plain .closed)).trans (calm_join _ _)

theorem event_cases (s : Session) (e : Event) (he : ∀ time, e ≠ .pass time) :
    s.Calm (s.perform (.event e)) ∧ s.reads (.event e) = [] ∨
      ∃ chunks, s.Change (.printed chunks) (s.perform (.event e)) ∧
        s.reads (.event e) = chunks := by
  cases e with
  | start => exact .inl ⟨calm_start s, rfl⟩
  | launch => exact .inl ⟨calm_launch s, rfl⟩
  | submit command => exact .inl ⟨calm_submit s command false, rfl⟩
  | abandon call =>
      refine .inl ⟨?_, rfl⟩
      simp only [perform, apply, abandon]
      split
      · exact .refl
      · exact (Change.gaveUp call).calm
  | execute command limit =>
      exact .inl ⟨(calm_submit s command false).trans (calm_join _ _), rfl⟩
  | quit command limit => exact .inl ⟨calm_quit s command limit, rfl⟩
  | close => exact .inl ⟨calm_close s, rfl⟩
  | output text =>
      by_cases hended : s.child.stdoutEnded = true
      · have hwrite : s.perform (.event (.output text)) = s := if_pos hended
        rw [hwrite]
        exact .inl ⟨.refl, if_pos hended⟩
      · have hwrite : s.perform (.event (.output text)) = { s with child :=
            { s.child with stdout := s.child.stdout ++ Bytes.pieces stdoutRead text } } :=
          if_neg hended
        rw [hwrite]
        refine .inr ⟨Bytes.pieces stdoutRead text, ?_, if_neg hended⟩
        exact Change.printed _ (by simpa using hended)
  | complaint text =>
      have hchild : s.child.Follows
          { s.child with stderr := s.child.stderr ++ Bytes.pieces stderrRead text } :=
        ⟨rfl, id, .inl rfl⟩
      refine .inl ⟨?_, rfl⟩
      simp only [perform, apply, complain]
      split
      · exact .refl
      · exact calm_child hchild
  | exit status => exact .inl ⟨calm_childExits s status, rfl⟩
  | breakStdin cause =>
      have hchild : s.child.Follows { s.child with stdinFault := some cause } :=
        ⟨rfl, id, .inl rfl⟩
      exact .inl ⟨calm_child hchild, rfl⟩
  | breakStdout =>
      have hchild : s.child.Follows { s.child with stdoutEnded := true } :=
        ⟨rfl, fun _ => rfl, .inl rfl⟩
      exact .inl ⟨calm_child hchild, rfl⟩
  | pass time => exact absurd rfl (he time)

/-- **Every act is a chain of elementary changes**, with at most one among them that is not silent:
output came up, time passed, the worker took the next call, or a command had its time. -/
theorem perform_cases (ht : s.Tidy) (a : Act) :
    (s.Calm (s.perform a) ∧ s.reads a = []) ∨
      (∃ chunks, s.Change (.printed chunks) (s.perform a) ∧ s.reads a = chunks) ∨
      (∃ time, a = .event (.pass time)) ∨
      (a = .worker ∧ s.Change .taken (s.perform a)) ∨
      (a = .timer ∧ ∃ call deadline s₁ s₂, s.worker = .awaiting call (some deadline) ∧
        deadline ≤ s.now ∧ s.Calm s₁ ∧ s₁.Change (.expired call) s₂ ∧ s₂.Calm (s.perform a)) := by
  have hperformed := s.performed a
  generalize s.perform a = s' at hperformed ⊢
  cases hperformed with
  | nothing ha => exact .inl ⟨.refl, reads_of_internal ha⟩
  | event e =>
      by_cases hpass : ∃ time, e = .pass time
      · obtain ⟨time, rfl⟩ := hpass
        exact .inr (.inr (.inl ⟨time, rfl⟩))
      · rcases event_cases s e (fun time he => hpass ⟨time, he⟩) with hcalm | hprinted
        · exact .inl hcalm
        · exact .inr (.inl hprinted)
  | announce hmove => exact .inl ⟨calm_announce hmove, rfl⟩
  | worker hmove =>
      rcases workerMove_cases ht hmove with hcalm | htaken
      · exact .inl ⟨hcalm, rfl⟩
      · exact .inr (.inr (.inr (.inl ⟨rfl, htaken⟩)))
  | pump hmove => exact .inl ⟨calm_pumpMove hmove, rfl⟩
  | complaints hmove => exact .inl ⟨calm_complaintsMove hmove, rfl⟩
  | client hc hstep => exact .inl ⟨(calm_clientStep hstep).trans (calm_join _ _), rfl⟩
  | timer hworker hdue =>
      obtain ⟨s₁, s₂, hbefore, hexpired, hafter⟩ := expire_changes ht hworker
      exact .inr (.inr (.inr (.inr
        ⟨rfl, _, _, s₁, s₂, hworker, hdue, hbefore, hexpired, hafter⟩)))
  | clientTimer => exact .inl ⟨(calm_expireClient s _).trans (calm_join _ _), rfl⟩

/-! ### What elementary changes keep -/

section Induction

variable {P : List Bytes → Session → Prop}
  (hstep : ∀ {chunks : List Bytes} {s s' : Session} {l : Label},
    s.Tidy → P chunks s → s.Change l s' → P (chunks ++ l.chunks) s')

include hstep

theorem calm_induction {chunks : List Bytes} (ht : s.Tidy) (h : P chunks s) (hc : s.Calm s') :
    P chunks s' := by
  induction hc with
  | refl => exact h
  | tail hcalm hc ih => simpa [Label.chunks] using hstep (ht.calm hcalm) ih hc

/-- What elementary changes keep, an act keeps. -/
theorem perform_induction {chunks : List Bytes} (ht : s.Tidy) (h : P chunks s) (a : Act) :
    (s.perform a).Tidy ∧ P (chunks ++ s.reads a) (s.perform a) := by
  rcases perform_cases ht a with ⟨hcalm, hreads⟩ | ⟨more, hc, hreads⟩ | ⟨time, rfl⟩ | ⟨rfl, hc⟩ |
    ⟨rfl, call, deadline, s₁, s₂, -, -, hbefore, hc, hafter⟩
  · rw [hreads, List.append_nil]
    exact ⟨ht.calm hcalm, calm_induction hstep ht h hcalm⟩
  · rw [hreads]
    exact ⟨ht.change hc, hstep ht h hc⟩
  · have hc : s.Change .ticked { s with now := s.now + time } := .ticked time
    exact ⟨ht.change hc, hstep ht h hc⟩
  · exact ⟨ht.change hc, hstep ht h hc⟩
  · have ht₁ := ht.calm hbefore
    have h₂ : P chunks s₂ := by
      simpa [Label.chunks] using hstep ht₁ (calm_induction hstep ht h hbefore) hc
    have ht₂ := ht₁.change hc
    exact ⟨ht₂.calm hafter, by simpa [reads] using calm_induction hstep ht₂ h₂ hafter⟩

/-- **What elementary changes keep, a play keeps.** -/
theorem play_induction (chunks : List Bytes) (ht : s.Tidy) (h : P chunks s) (acts : List Act) :
    (s.play acts).Tidy ∧ P (chunks ++ s.printed acts) (s.play acts) := by
  induction acts generalizing chunks s with
  | nil => exact ⟨ht, by simpa using h⟩
  | cons a acts ih =>
      obtain ⟨ht', h'⟩ := perform_induction hstep ht h a
      simpa using ih _ ht' h'

end Induction

theorem tidy_play (ht : s.Tidy) (acts : List Act) : (s.play acts).Tidy :=
  (play_induction (P := fun _ _ => True) (fun _ _ _ => trivial) [] ht trivial acts).1

theorem tidy_perform (ht : s.Tidy) (a : Act) : (s.perform a).Tidy := tidy_play ht [a]

end ReplBridge.Repl.Session
