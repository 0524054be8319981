import ReplBridge.Proofs.Repl.Session.Unseen

/-!
**What the subprocess complains of changes nothing.**

Standard error has a reader of its own, which collects lines and shows them to whoever wants to see
them.  Nobody else looks at them, with one exception: the reader of standard output, at the end of
its own stream, waits for that of standard error before it tells that the subprocess is gone.  So
complaints could hold up the end of a session.

They do not, since the wait is for the end of the stream and not for what is on it.  To say so, we
forget all complaints: those not read yet, the line begun, and those in the log.  Every act does to
a session without its complaints what it does to the session, except that some acts of the reader of
standard error are not seen.

Main definitions:

* `Session.unheard` — **a session without its complaints**;
* `Repl.Event.complains`, `Repl.Act.heard` — the events that only bring complaints, and the acts
  that have to do with anything but standard error.

Main results:

* `Session.unheard_settle` — **a session settles as it does without its complaints**;
* `Session.unheard_run` — **a run without its complaints is the run without the events that bring
  them**;
* `Session.unheard_play` — **what can happen with some complaints can happen with others**;
* `Session.stderr_disturbs_nothing` — **runs that differ in complaints differ in nothing else**.
-/

set_option autoImplicit false

namespace ReplBridge.Repl

/-- Whether only a complaint was seen. -/
def Effect.isComplaint : Effect → Bool
  | .complained _ => true
  | _ => false

/-- Whether an event only brings a complaint. -/
def Event.complains : Event → Bool
  | .complaint _ => true
  | _ => false

/-- Whether an act has to do with anything but standard error. -/
def Act.heard : Act → Bool
  | .event e => !e.complains
  | .complaints => false
  | _ => true

namespace Session

variable {s s' t : Session}

/-- **A session without its complaints.** -/
def unheard (s : Session) : Session :=
  { s with
    child := { s.child with stderr := [] }
    complaints := { ended := s.complaints.ended }
    log := s.log.filter (!·.isComplaint) }

@[simp] theorem unheard_options (s : Session) : s.unheard.options = s.options := rfl

@[simp] theorem unheard_state (s : Session) : s.unheard.state = s.state := rfl

@[simp] theorem unheard_announced? (s : Session) : s.unheard.announced? = s.announced? := rfl

@[simp] theorem unheard_launched (s : Session) : s.unheard.launched = s.launched := rfl

@[simp] theorem unheard_calls (s : Session) : s.unheard.calls = s.calls := rfl

@[simp] theorem unheard_queue (s : Session) : s.unheard.queue = s.queue := rfl

@[simp] theorem unheard_worker (s : Session) : s.unheard.worker = s.worker := rfl

@[simp] theorem unheard_pump (s : Session) : s.unheard.pump = s.pump := rfl

@[simp] theorem unheard_clients (s : Session) : s.unheard.clients = s.clients := rfl

@[simp] theorem unheard_offered? (s : Session) : s.unheard.offered? = s.offered? := rfl

@[simp] theorem unheard_childGone (s : Session) : s.unheard.childGone = s.childGone := rfl

@[simp] theorem unheard_outcome? (s : Session) (call : Nat) :
    s.unheard.outcome? call = s.outcome? call := rfl

/-! ### What the parties share -/

theorem unheard_emit {e : Effect} (h : e.isComplaint = false) (s : Session) :
    (s.emit e).unheard = s.unheard.emit e := by
  simp [unheard, emit, h]

theorem unheard_terminate (s : Session) (r : Failure) :
    (s.terminate r).unheard = s.unheard.terminate r := by
  by_cases h : s.reason? = none
  · rw [terminate_open h, terminate_open (s := s.unheard) h]
    simp [unheard, Effect.isComplaint]
  · rw [terminate_over h, terminate_over (s := s.unheard) h]

theorem unheard_childExits (s : Session) (status : Option Failure) :
    (s.childExits status).unheard = s.unheard.childExits status := by
  cases h : s.child.exit <;> simp [childExits, unheard, h]

theorem unheard_kill (s : Session) : s.kill.unheard = s.unheard.kill := by
  cases hlaunched : s.launched with
  | none => simp [kill, unheard, hlaunched]
  | some manner =>
      cases hheeds : manner.heedsKill <;> cases hexit : s.child.exit <;>
        simp [kill, childExits, unheard, hlaunched, hheeds, hexit]

theorem unheard_closeStdin (s : Session) : s.closeStdin.unheard = s.unheard.closeStdin := by
  cases hlaunched : s.launched with
  | none => simp [closeStdin, unheard, hlaunched]
  | some manner =>
      cases hleaves : manner.leavesAtEnd <;> cases hexit : s.child.exit <;>
        simp [closeStdin, childExits, unheard, hlaunched, hleaves, hexit]

theorem unheard_dropOffer (s : Session) : s.dropOffer.unheard = s.unheard.dropOffer := by
  unfold dropOffer
  simp only [unheard_pump]
  split <;> rfl

theorem unheard_recordFrame (s : Session) (seq : Nat) (text : Bytes) :
    (s.recordFrame seq text).unheard = s.unheard.recordFrame seq text :=
  unheard_emit rfl s

/-! ### The worker -/

theorem unheard_greet (s : Session) (banner : Bytes) :
    (s.greet banner).unheard = s.unheard.greet banner := by
  dsimp only [greet]
  rw [← unheard_dropOffer, ← unheard_recordFrame, unheard_state]
  split
  · rw [unheard_emit rfl]
    rfl
  · rfl

/-- A call that was taken is written, or cannot be. -/
def attempt (s : Session) (call : Nat) (c : Call) : Session :=
  match s.writeFailure? with
  | none =>
    { s.emit (.wrote c.seq (c.command ++ [Bytes.newline])) with
      worker := .awaiting call (s.options.timeLimit.map (s.now + ·)) }
  | some cause =>
    (((s.finish call (.failed (.ofTermination (.write cause)))).terminate (.write cause)).kill).stop

theorem dispatch_eq_attempt {call : Nat} {c : Call} (hcall : s.calls[call]? = some c)
    (hwaits : c.abandoned = false) (rest : List Nat) :
    s.dispatch call rest =
      (({ s with queue := rest } : Session).emit
        (.recorded .input c.seq c.command)).attempt call c := by
  simp only [dispatch, hcall, hwaits, Bool.false_eq_true, if_false]
  rfl

theorem unheard_attempt (s : Session) (call : Nat) (c : Call) :
    (s.attempt call c).unheard = s.unheard.attempt call c := by
  have hfail : s.unheard.writeFailure? = s.writeFailure? := rfl
  unfold attempt
  rw [hfail]
  split
  · rw [← unheard_emit rfl]
    rfl
  · have hstop (t : Session) : t.stop.unheard = t.unheard.stop := rfl
    rw [hstop, unheard_kill, unheard_terminate]
    rfl

theorem unheard_dispatch (s : Session) (call : Nat) (rest : List Nat) :
    (s.dispatch call rest).unheard = s.unheard.dispatch call rest := by
  have hcalls : s.unheard.calls[call]? = s.calls[call]? := rfl
  cases hcall : s.calls[call]? with
  | none =>
      simp only [dispatch, hcalls, hcall]
      rfl
  | some c =>
      cases hwaits : c.abandoned with
      | true =>
          simp only [dispatch, hcalls, hcall, hwaits, if_true]
          rfl
      | false =>
          rw [dispatch_eq_attempt hcall hwaits, dispatch_eq_attempt (hcalls.trans hcall) hwaits,
            unheard_attempt, unheard_emit rfl]
          rfl

theorem unheard_answer (s : Session) (call : Nat) (frame : Bytes) :
    (s.answer call frame).unheard = s.unheard.answer call frame := by
  have hcalls : s.unheard.calls[call]? = s.calls[call]? := rfl
  unfold answer
  rw [hcalls]
  split
  · rw [← unheard_dropOffer]
    rfl
  · rename_i c hc
    rw [← unheard_dropOffer, ← unheard_recordFrame]
    dsimp only
    split
    · rw [← unheard_terminate]
      rfl
    · rfl

theorem unheard_lose (s : Session) (call : Nat) (tail : Bytes) (status : Option Failure) :
    (s.lose call tail status).unheard = s.unheard.lose call tail status := by
  have hcalls : s.unheard.calls[call]? = s.calls[call]? := rfl
  unfold lose
  rw [hcalls]
  split
  · rfl
  · split
    · rw [← unheard_recordFrame, ← unheard_terminate]
      rfl
    · rename_i c hc hlast
      have hfinish : s.unheard.finish call (.failed (.ofTermination (.ofExit status))) =
          (s.finish call (.failed (.ofTermination (.ofExit status)))).unheard := rfl
      rw [hfinish, ← unheard_terminate]
      rfl

theorem unheard_announce? (s : Session) : s.unheard.announce? = s.announce?.map unheard := by
  have hreason : s.unheard.reason? = s.reason? := rfl
  have hdone : s.unheard.done = s.done := rfl
  unfold announce?
  rw [hreason, hdone]
  split <;> rfl

theorem unheard_workerMove? (s : Session) : s.unheard.workerMove? = s.workerMove?.map unheard := by
  have hended (r : Failure) : (s.unheard.terminate r).stop = (s.terminate r).stop.unheard := by
    rw [← unheard_terminate]
    rfl
  simp only [workerMove?, unheard_worker, unheard_announced?, unheard_offered?, unheard_pump,
    unheard_queue]
  split
  · rfl
  · split
    · rfl
    · simp [unheard_greet]
    · simp [hended]
    · rfl
  · split
    · simp [unheard_dispatch]
    · rfl
    · simp [hended]
    · rfl
  · split
    · rfl
    · simp [unheard_answer]
    · simp [unheard_lose]
    · rfl

/-! ### Those who read -/

theorem unheard_pumpMove? (s : Session) : s.unheard.pumpMove? = s.pumpMove?.map unheard := by
  have hstdout : s.unheard.child.stdout = s.child.stdout := rfl
  have hended : s.unheard.child.stdoutEnded = s.child.stdoutEnded := rfl
  have hexit : s.unheard.child.exit = s.child.exit := rfl
  have hsilent : s.unheard.complaints.ended = s.complaints.ended := rfl
  unfold pumpMove?
  simp only [unheard_launched, unheard_pump, unheard_announced?, hstdout, hended, hexit, hsilent]
  split
  · rfl
  · split <;> rfl
  · split
    · rfl
    · by_cases hover : s.child.stdoutEnded = true
      · simp only [hover, if_true]
        rfl
      · simp only [hover, Bool.false_eq_true, if_false]
        rfl
  · split <;> rfl
  · rfl

theorem filter_complained (lines : List Bytes) :
    (lines.map Effect.complained).filter (!·.isComplaint) = [] := by
  simp [Effect.isComplaint]

/-- **The reader of standard error** is not seen to read, only to come to the end. -/
theorem unheard_complaintsMove (h : s.complaintsMove? = some s') :
    s.unheard.complaintsMove? = some s'.unheard ∨ s'.unheard = s.unheard := by
  unfold complaintsMove? at h
  split at h
  · rename_i chunk rest hlaunched hended hstderr
    refine .inr ?_
    cases hread : s.complaints.read chunk with
    | mk complaints lines =>
        have hkept : complaints.ended = s.complaints.ended := by
          rw [← Complaints.read_ended s.complaints chunk, hread]
        rw [hread] at h
        cases h
        simp [unheard, filter_complained, hkept]
  · rename_i manner status hlaunched hended hstderr hexit
    refine .inl ?_
    cases h
    have hended' : s.unheard.complaints.ended = false := hended
    have hstderr' : s.unheard.child.stderr = [] := rfl
    have hexit' : s.unheard.child.exit = some status := hexit
    have hline : s.unheard.complaints.line = [] := rfl
    simp only [complaintsMove?, unheard_launched, hlaunched, hended', hstderr', hexit', hline]
    by_cases hempty : s.complaints.line.reverse.isEmpty = true
    · simp [unheard, hempty]
    · simp [unheard, hempty, Effect.isComplaint]
  · cases h

theorem unheard_complaintsMove_none (h : s.complaintsMove? = none) :
    s.unheard.complaintsMove? = none := by
  cases hlaunched : s.launched with
  | none => simp [complaintsMove?, hlaunched]
  | some manner =>
      cases hexit : s.child.exit with
      | none => simp [complaintsMove?, unheard, hexit]
      | some status =>
          -- At rest, the reader has come to the end of the stream.
          have hended := complaints_ended_of_quiet (by simp [hlaunched]) (by simp [hexit]) h
          simp [complaintsMove?, unheard, hended]

/-! ### The clients -/

theorem unheard_release (s : Session) (result : Option Failure) :
    s.unheard.release result = ((s.release result).1.unheard, (s.release result).2) := by
  cases h : s.launched with
  | none => simp [release, h, unheard_terminate]
  | some manner =>
      simp only [release, unheard_launched, h, unheard_closeStdin]
      rfl

theorem unheard_shut (s : Session) : s.unheard.shut = (s.shut.1.unheard, s.shut.2) := by
  cases h : s.launched with
  | none => simp [shut, h]
  | some manner =>
      simp only [shut, unheard_launched, h, unheard_kill, unheard_closeStdin]
      rw [← unheard_closeStdin]
      rfl

theorem unheard_clientStep? (s : Session) (c : Client) :
    s.unheard.clientStep? c = (s.clientStep? c).map fun p => (p.1.unheard, p.2) := by
  cases c with
  | executing call deadline =>
      simp only [clientStep?, unheard_outcome?]
      cases s.outcome? call <;> rfl
  | quitting call deadline =>
      simp only [clientStep?, unheard_outcome?]
      cases s.outcome? call with
      | none => rfl
      | some o => simp [unheard_release]
  | leaving => simp [clientStep?, unheard_terminate]
  | shutting => simp [clientStep?, unheard_shut]
  | releasing | reaping | closing =>
      cases hgone : s.childGone <;> simp [clientStep?, hgone, unheard_terminate]
  | executed | hasQuit | hasClosed => rfl

theorem unheard_clientMoveFrom? (s : Session) (before rest : List Client) :
    s.unheard.clientMoveFrom? before rest = (s.clientMoveFrom? before rest).map unheard := by
  induction rest generalizing before with
  | nil => rfl
  | cons c rest ih =>
      have hstep := unheard_clientStep? s c
      cases hc : s.clientStep? c with
      | none =>
          rw [hc] at hstep
          simp only [clientMoveFrom?, hc, hstep, Option.map_none]
          exact ih (c :: before)
      | some p =>
          rw [hc] at hstep
          simp only [clientMoveFrom?, hc, hstep, Option.map_some]
          rfl

theorem unheard_clientMove? (s : Session) : s.unheard.clientMove? = s.clientMove?.map unheard :=
  unheard_clientMoveFrom? s [] s.clients

/-! ### Settling -/

theorem unheard_quiet (h : s.move? = none) : s.unheard.move? = none := by
  obtain ⟨hannounce, hworker, hpump, hcomplaints⟩ := quiet_parts h
  have hclient : s.clientMove? = none := by
    simpa [move?, hannounce, hworker, hpump, hcomplaints] using h
  simp [move?, unheard_announce?, unheard_workerMove?, unheard_pumpMove?, unheard_clientMove?,
    hannounce, hworker, hpump, unheard_complaintsMove_none hcomplaints, hclient]

/-- **A move is the same without the complaints, or it is not seen.** -/
theorem unheard_move (h : s.move? = some s') :
    s.unheard.move? = some s'.unheard ∨ s'.unheard = s.unheard := by
  cases hannounce : s.announce? with
  | some t =>
      have ht : t = s' := by simpa [move?, hannounce] using h
      exact .inl (by simp [move?, unheard_announce?, hannounce, ht])
  | none =>
      have hannounce' : s.unheard.announce? = none := by rw [unheard_announce?, hannounce]; rfl
      cases hworker : s.workerMove? with
      | some t =>
          have ht : t = s' := by simpa [move?, hannounce, hworker] using h
          exact .inl (by simp [move?, hannounce', unheard_workerMove?, hworker, ht])
      | none =>
          have hworker' : s.unheard.workerMove? = none := by
            rw [unheard_workerMove?, hworker]
            rfl
          cases hpump : s.pumpMove? with
          | some t =>
              have ht : t = s' := by simpa [move?, hannounce, hworker, hpump] using h
              exact .inl (by simp [move?, hannounce', hworker', unheard_pumpMove?, hpump, ht])
          | none =>
              have hpump' : s.unheard.pumpMove? = none := by
                rw [unheard_pumpMove?, hpump]
                rfl
              cases hcomplaints : s.complaintsMove? with
              | some t =>
                  have ht : t = s' := by
                    simpa [move?, hannounce, hworker, hpump, hcomplaints] using h
                  subst ht
                  rcases unheard_complaintsMove hcomplaints with hsame | hunseen
                  · exact .inl (by simp [move?, hannounce', hworker', hpump', hsame])
                  · exact .inr hunseen
              | none =>
                  have hclient : s.clientMove? = some s' := by
                    simpa [move?, hannounce, hworker, hpump, hcomplaints] using h
                  exact .inl (by
                    simp [move?, hannounce', hworker', hpump', unheard_clientMove?,
                      unheard_complaintsMove_none hcomplaints, hclient])

/-- **A session settles as it does without its complaints.** -/
theorem unheard_settle (s : Session) : s.settle.unheard = s.unheard.settle :=
  settleWithin_view unheard (P := fun _ => True) (fun _ _ _ _ => trivial)
    (fun _ _ => unheard_quiet) (fun _ _ _ => unheard_move) trivial (Nat.le_refl _) (Nat.le_refl _)

/-! ### Events -/

theorem unheard_submit (s : Session) (command : Bytes) (last : Bool) :
    (s.submit command last).unheard = s.unheard.submit command last := by
  unfold submit
  simp only [unheard_state]
  split <;> rfl

theorem unheard_start (s : Session) : s.start.unheard = s.unheard.start := by
  unfold start
  rw [unheard_state]
  split
  · rw [unheard_emit rfl]
    rfl
  · rfl

theorem unheard_launch (s : Session) : s.launch.unheard = s.unheard.launch := by
  have hlaunching : s.unheard.launching = s.launching := rfl
  dsimp only [launch]
  rw [hlaunching, unheard_options]
  split
  · split
    · rw [unheard_terminate]
      rfl
    · rw [unheard_terminate]
      rfl
    · rfl
  · rfl

theorem unheard_complain (s : Session) (text : Bytes) : (s.complain text).unheard = s.unheard := by
  unfold complain
  split <;> rfl

theorem unheard_apply {e : Event} (h : e.complains = false) (hpass : ∀ time, e ≠ .pass time)
    (s : Session) : (s.apply e).unheard = s.unheard.apply e := by
  cases e with
  | complaint => cases h
  | pass time => exact absurd rfl (hpass time)
  | start => exact unheard_start s
  | launch => exact unheard_launch s
  | submit command => exact unheard_submit s command false
  | execute command limit =>
      simp only [apply]
      rw [← unheard_submit]
      rfl
  | quit command limit =>
      simp only [apply, quit, unheard_state]
      split
      · rfl
      · rw [← unheard_submit]
        rfl
  | close =>
      simp only [apply, close]
      rw [← unheard_terminate]
      rfl
  | abandon call =>
      simp only [apply, abandon, unheard_outcome?]
      split <;> rfl
  | output text =>
      cases hended : s.child.stdoutEnded <;> simp [apply, write, unheard, hended]
  | exit status => exact unheard_childExits s status
  | breakStdin | breakStdout => rfl

/-! ### Time -/

theorem unheard_expire (s : Session) (call : Nat) :
    (s.expire call).unheard = s.unheard.expire call := by
  have hcalls : s.unheard.calls[call]? = s.calls[call]? := rfl
  unfold expire
  rw [hcalls]
  split
  · rfl
  · have hstop (t : Session) : t.stop.unheard = t.unheard.stop := rfl
    dsimp only
    rw [hstop, unheard_kill, unheard_terminate]
    rfl

theorem unheard_expireClient (s : Session) (c : Client) :
    s.unheard.expireClient c = ((s.expireClient c).1.unheard, (s.expireClient c).2) := by
  cases c with
  | quitting call deadline => exact unheard_release (s.giveUp call) _
  | releasing result deadline => simp [expireClient, unheard_kill]
  | executing | leaving | reaping | shutting | closing | executed | hasQuit | hasClosed => rfl

theorem unheard_expireFrom? (s : Session) (time : Nat) (before rest : List Client) :
    s.unheard.expireFrom? time before rest = (s.expireFrom? time before rest).map unheard := by
  induction rest generalizing before with
  | nil => rfl
  | cons c rest ih =>
      simp only [expireFrom?]
      split
      · simp only [unheard_expireClient, Option.map_some]
        rfl
      · exact ih (c :: before)

theorem unheard_expireAt (s : Session) (time : Nat) :
    (s.expireAt time).unheard = s.unheard.expireAt time := by
  have hclients : ((s.expireFrom? time [] s.clients).getD s).unheard =
      (s.unheard.expireFrom? time [] s.clients).getD s.unheard := by
    rw [unheard_expireFrom?]
    cases s.expireFrom? time [] s.clients <;> rfl
  simp only [expireAt, unheard_worker, unheard_clients]
  split
  · split
    · exact unheard_expire s _
    · exact hclients
  · exact hclients

/-- Nobody's time depends on complaints. -/
theorem unheard_advanceWithin (fuel target : Nat) (s : Session) :
    (advanceWithin fuel target s).unheard = advanceWithin fuel target s.unheard := by
  induction fuel generalizing s with
  | zero => rfl
  | succ fuel ih =>
      have hnext : s.unheard.nextDeadline? = s.nextDeadline? := rfl
      simp only [advanceWithin, hnext]
      split
      · split
        · rw [ih, unheard_settle, unheard_expireAt]
          rfl
        · rfl
      · rfl

/-! ### Runs -/

theorem unheard_step {e : Event} (h : e.complains = false) (s : Session) :
    (s.step e).unheard = s.unheard.step e := by
  unfold step
  rw [unheard_settle]
  by_cases hpass : ∃ time, e = .pass time
  · obtain ⟨time, rfl⟩ := hpass
    exact congrArg settle (unheard_advanceWithin s.deadlines (s.now + time) s)
  · rw [unheard_apply h fun time he => hpass ⟨time, he⟩]

/-- **A run without its complaints is the run without the events that bring them.** -/
theorem unheard_run (hquiet : s.move? = none) (events : List Event) :
    (s.run events).unheard = s.unheard.run (events.filter (!·.complains)) := by
  induction events generalizing s with
  | nil => rfl
  | cons e events ih =>
      have hrest : (s.run (e :: events)).unheard =
          (s.step e).unheard.run (events.filter (!·.complains)) := ih (quiet_settle _)
      rw [hrest]
      cases he : e.complains with
      | false =>
          rw [unheard_step he]
          simp [he, run]
      | true =>
          -- What follows from a complaint is that it is read.
          have hsame : (s.step e).unheard = s.unheard := by
            cases e with
            | complaint text =>
                rw [step, unheard_settle, apply, unheard_complain,
                  settle_of_quiet (unheard_quiet hquiet)]
            | _ => cases he
          rw [hsame]
          simp [he]

/-! ### Plays -/

theorem unheard_clientAct (s : Session) (i : Nat) :
    (s.clientAct i).unheard = s.unheard.clientAct i := by
  have hclients : s.unheard.clients[i]? = s.clients[i]? := rfl
  unfold clientAct
  rw [hclients]
  split
  · rfl
  · rename_i c hc
    rw [unheard_clientStep?]
    cases s.clientStep? c <;> rfl

theorem unheard_timerAct (s : Session) : s.timerAct.unheard = s.unheard.timerAct := by
  have hnow : s.unheard.now = s.now := rfl
  simp only [timerAct, unheard_worker, hnow]
  split
  · split
    · exact unheard_expire s _
    · rfl
  · rfl

theorem unheard_clientTimerAct (s : Session) (i : Nat) :
    (s.clientTimerAct i).unheard = s.unheard.clientTimerAct i := by
  have hclients : s.unheard.clients[i]? = s.clients[i]? := rfl
  have hnow : s.unheard.now = s.now := rfl
  unfold clientTimerAct
  rw [hclients]
  split
  · rfl
  · split
    · rfl
    · rw [hnow]
      split
      · rw [unheard_expireClient]
        rfl
      · rfl

/-- **An act that has to do with anything but standard error does the same without complaints.** -/
theorem unheard_perform {a : Act} (h : a.heard = true) (s : Session) :
    (s.perform a).unheard = s.unheard.perform a := by
  cases a with
  | event e =>
      by_cases hpass : ∃ time, e = .pass time
      · obtain ⟨time, rfl⟩ := hpass
        rfl
      · have hpass' : ∀ time, e ≠ .pass time := fun time he => hpass ⟨time, he⟩
        rw [perform_event hpass', perform_event hpass']
        exact unheard_apply (by simpa [Act.heard] using h) hpass' s
  | complaints => cases h
  | announce =>
      simp only [perform, unheard_announce?]
      cases s.announce? <;> rfl
  | worker =>
      simp only [perform, unheard_workerMove?]
      cases s.workerMove? <;> rfl
  | pump =>
      simp only [perform, unheard_pumpMove?]
      cases s.pumpMove? <;> rfl
  | client i => exact unheard_clientAct s i
  | timer => exact unheard_timerAct s
  | clientTimer i => exact unheard_clientTimerAct s i

/-- Of the others only the end of standard error is seen. -/
theorem unheard_perform_cases {a : Act} (h : a.heard = false) (s : Session) :
    (s.perform a).unheard = s.unheard ∨
      a = .complaints ∧ (s.perform a).unheard = s.unheard.perform .complaints := by
  cases a with
  | event e =>
      cases e with
      | complaint text => exact .inl (unheard_complain s text)
      | _ => cases h
  | complaints =>
      cases hmove : s.complaintsMove? with
      | none => exact .inl (by simp [perform, hmove])
      | some s' =>
          rcases unheard_complaintsMove hmove with hsame | hunseen
          · exact .inr ⟨rfl, by simp [perform, hmove, hsame]⟩
          · exact .inl (by simpa [perform, hmove] using hunseen)
  | _ => cases h

/-- Complaints that come up are not seen. -/
theorem unheard_complaints {script : List Act} (hreader : ∀ a ∈ script, a ≠ .complaints)
    (hunheard : ∀ a ∈ script, a.heard = false) (s : Session) :
    (s.play script).unheard = s.unheard := by
  induction script generalizing s with
  | nil => rfl
  | cons a script ih =>
      have hone : (s.perform a).unheard = s.unheard :=
        (unheard_perform_cases (hunheard a (by simp)) s).resolve_right
          fun hmoves => hreader a (by simp) hmoves.1
      rw [play_cons, ← hone]
      exact ih (fun b hb => hreader b (by simp [hb])) (fun b hb => hunheard b (by simp [hb])) _

/-- **The reader of standard error can always catch up** with a session without complaints. -/
theorem unheard_catch_up (s : Session) :
    ∃ n, (s.play (List.replicate n .complaints)).unheard = s.unheard.perform .complaints := by
  induction hwork : s.work using Nat.strongRecOn generalizing s with
  | ind work ih =>
      cases hmove : s.complaintsMove? with
      | none => exact ⟨0, by simp [perform, unheard_complaintsMove_none hmove]⟩
      | some s' =>
          have hperform : s.perform .complaints = s' := by simp [perform, hmove]
          rcases unheard_complaintsMove hmove with hsame | hunseen
          · exact ⟨1, by simp [perform, hmove, hsame]⟩
          · obtain ⟨n, hn⟩ := ih s'.work (hwork ▸ work_complaintsMove hmove) s' rfl
            refine ⟨n + 1, ?_⟩
            rw [List.replicate_succ, play_cons, hperform, hn, hunseen]

/-- **What can happen with some complaints can happen with others**, if only the reader of standard
error moves at other times. -/
theorem unheard_play (h : t.unheard = s.unheard) {acts script : List Act}
    (hreader : ∀ a ∈ script, a ≠ .complaints)
    (hscript : script.filter Act.heard = acts.filter Act.heard) :
    ∃ acts', acts'.filter (· ≠ .complaints) = script ∧
      (t.play acts').unheard = (s.play acts).unheard := by
  have hall {script : List Act} (hreader : ∀ a ∈ script, a ≠ .complaints) :
      script.filter (· ≠ .complaints) = script :=
    List.filter_eq_self.2 fun a ha => by simpa using hreader a ha
  induction acts generalizing s t script with
  | nil =>
      refine ⟨script, hall hreader, ?_⟩
      rw [unheard_complaints hreader (by simpa using hscript), h]
      rfl
  | cons a acts ih =>
      cases hheard : a.heard with
      | false =>
          have hscript' : script.filter Act.heard = acts.filter Act.heard := by
            simpa [hheard] using hscript
          rcases unheard_perform_cases hheard s with hunseen | ⟨-, hends⟩
          · exact ih (h.trans hunseen.symm) hreader hscript'
          · -- The reader came to the end of the stream, and so it must on the other side.
            obtain ⟨n, hn⟩ := unheard_catch_up t
            obtain ⟨acts', hacts', hplay⟩ :=
              ih (hn.trans ((congrArg (perform · .complaints) h).trans hends.symm)) hreader hscript'
            refine ⟨List.replicate n .complaints ++ acts', ?_, ?_⟩
            · rw [List.filter_append, hacts']
              simp
            · rw [play_append, hplay]
              rfl
      | true =>
          rw [List.filter_cons_of_pos hheard] at hscript
          obtain ⟨before, rest, rfl, hbefore, -, hrest⟩ := List.filter_eq_cons_iff.1 hscript
          have hreader' : ∀ b ∈ before, b ≠ .complaints := fun b hb => hreader b (by simp [hb])
          have hquiet := unheard_complaints hreader' (by simpa using hbefore) t
          obtain ⟨acts', hacts', hplay⟩ := ih (s := s.perform a) (t := (t.play before).perform a)
            (by rw [unheard_perform hheard, unheard_perform hheard, hquiet, h])
            (fun b hb => hreader b (by simp [hb])) hrest
          refine ⟨before ++ a :: acts', ?_, ?_⟩
          · rw [List.filter_append, hall hreader',
              List.filter_cons_of_pos (by simpa using hreader a (by simp)), hacts']
          · rw [play_append, play_cons, hplay]
            rfl

/-- Views that do not show complaints do not depend on them. -/
theorem filterMap_unheard {α : Type} {f : Effect → Option α}
    (hf : ∀ line, f (.complained line) = none) (s : Session) :
    s.unheard.log.filterMap f = s.log.filterMap f := by
  have hlog : s.unheard.log = s.log.filter (!·.isComplaint) := rfl
  rw [hlog, List.filterMap_filter]
  congr 1
  funext e
  cases e <;> simp [Effect.isComplaint, hf]

/-- **What the subprocess complains of changes nothing else.**  Take two runs with the same events,
apart from those that bring complaints: these may be more or fewer, come at other times and have
other texts.  Then the two sessions differ in nothing but complaints.  In particular the same lines
were written, the same was recorded, the same states were entered, and all calls and all clients
have ended in the same way.

Nor does it matter in which order the parties act.  Take any play, and change the complaints that
come up in it in any way.  If all others act as they did, then the reader of standard error can act
so that the two sessions differ in nothing but complaints. -/
theorem stderr_disturbs_nothing (options : Options) :
    (∀ events events' : List Event,
      events.filter (!·.complains) = events'.filter (!·.complains) →
      let s := (new options).run events
      let s' := (new options).run events'
      s.unheard = s'.unheard ∧ written s.log = written s'.log ∧ records s.log = records s'.log ∧
      states s.log = states s'.log ∧ s.state = s'.state ∧ s.calls = s'.calls ∧
      s.clients = s'.clients) ∧
    ∀ acts script : List Act, (∀ a ∈ script, a ≠ .complaints) →
      script.filter Act.heard = acts.filter Act.heard →
      ∃ acts', acts'.filter (· ≠ .complaints) = script ∧
        ((new options).play acts').unheard = ((new options).play acts).unheard := by
  constructor
  · intro events events' hsame s s'
    have hrun : s.unheard = s'.unheard := by
      rw [unheard_run rfl, unheard_run rfl, hsame]
    have hview {α : Type} {f : Effect → Option α} (hf : ∀ line, f (.complained line) = none) :
        s.log.filterMap f = s'.log.filterMap f := by
      rw [← filterMap_unheard hf s, ← filterMap_unheard hf s', hrun]
    refine ⟨hrun, hview fun _ => rfl, hview fun _ => rfl, hview fun _ => rfl, ?_, ?_, ?_⟩
    · rw [← unheard_state s, hrun, unheard_state]
    · rw [← unheard_calls s, hrun, unheard_calls]
    · rw [← unheard_clients s, hrun, unheard_clients]
  · intro acts script hreader hscript
    exact unheard_play rfl hreader hscript

/-- It happens: two complaints come up around a command, the second without the end of its line, and
the subprocess leaves before it answers.  And a play in which the end of the subprocess is noticed
has its like with a complaint that nobody has read by then. -/
theorem stderr_disturbs_nothing_at_exit :
    let options : Options := { sentinel := [62], launcher := .spawns {} }
    let s := (new options).run
      [.start, .launch, .complaint [33, 10], .output [62], .submit [97], .complaint [63], .exit none]
    let s' := (new options).run [.start, .launch, .output [62], .submit [97], .exit none]
    let u := (new options).play
      [.event .start, .event .launch, .event (.exit none), .complaints, .pump, .pump, .worker]
    (complaintLines s.log = [[33], [63]] ∧ complaintLines s'.log = [] ∧
      s'.outcome? 0 = some (.failed (.ofTermination (.ofExit none))) ∧ s.calls = s'.calls ∧
      s.state = s'.state ∧ written s.log = written s'.log) ∧
    u.reason? = some (.ofExit none) ∧
    ∃ acts', acts'.filter (· ≠ .complaints) = [.event .start, .event .launch,
        .event (.complaint [33]), .event (.exit none), .pump, .pump, .worker] ∧
      ((new options).play acts').unheard = u.unheard := by
  obtain ⟨hruns, hplays⟩ :=
    stderr_disturbs_nothing { sentinel := [62], launcher := .spawns {} }
  obtain ⟨-, hwritten, -, -, hstate, hcalls, -⟩ := hruns
    [.start, .launch, .complaint [33, 10], .output [62], .submit [97], .complaint [63], .exit none]
    [.start, .launch, .output [62], .submit [97], .exit none] (by decide)
  refine ⟨⟨by decide, by decide, by decide, hcalls, hstate, hwritten⟩, by decide, ?_⟩
  exact hplays
    [.event .start, .event .launch, .event (.exit none), .complaints, .pump, .pump, .worker]
    [.event .start, .event .launch, .event (.complaint [33]), .event (.exit none), .pump, .pump,
      .worker]
    (by decide) (by decide)

end Session

end ReplBridge.Repl
