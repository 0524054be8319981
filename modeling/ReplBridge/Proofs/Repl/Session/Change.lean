import ReplBridge.Proofs.Repl.Session.Play

/-!
**What an act can change.**

The functions that move a session are many and share their work: a call may fail in a dozen places,
and a session may end in as many.  Taken apart, every act is a short chain of *elementary changes*,
each of them one plain update of the session under a stated condition.  An invariant of sessions
then has to be checked once for each elementary change, and never again for an act.

A change carries a label where a later argument needs to know that it happened: portions of output
came up, a call left the queue, a command ran out of time, the clock moved.

Main definitions:

* `Repl.Call.finish`, `Repl.finishAll` — a call ends, and the calls in a queue end;
* `Repl.Child.Follows` — what the subprocess may do while nobody reads it;
* `Repl.Label`, `Session.Change` — **the elementary changes**;
* `Session.Calm` — chains of silent changes.

That every act is such a chain is `Session.perform_cases`, in the module on acts.
-/

set_option autoImplicit false

namespace ReplBridge.Repl

/-! ### Ending calls -/

/-- A call ends, unless it has ended. -/
def Call.finish (o : Outcome) (c : Call) : Call :=
  match c.outcome with
  | none => { c with outcome := some o }
  | some _ => c

theorem Call.finish_of_none {c : Call} (h : c.outcome = none) (o : Outcome) :
    c.finish o = { c with outcome := some o } := by
  simp [Call.finish, h]

theorem Call.finish_of_some {c : Call} {o : Outcome} (h : c.outcome = some o) (o' : Outcome) :
    c.finish o' = c := by
  simp [Call.finish, h]

@[simp] theorem Call.finish_seq (o : Outcome) (c : Call) : (c.finish o).seq = c.seq := by
  unfold Call.finish
  split <;> rfl

@[simp] theorem Call.finish_command (o : Outcome) (c : Call) :
    (c.finish o).command = c.command := by
  unfold Call.finish
  split <;> rfl

@[simp] theorem Call.finish_last (o : Outcome) (c : Call) : (c.finish o).last = c.last := by
  unfold Call.finish
  split <;> rfl

@[simp] theorem Call.finish_abandoned (o : Outcome) (c : Call) :
    (c.finish o).abandoned = c.abandoned := by
  unfold Call.finish
  split <;> rfl

@[simp] theorem Call.finish_finish (o o' : Outcome) (c : Call) :
    (c.finish o).finish o' = c.finish o := by
  cases h : c.outcome with
  | none => rw [Call.finish_of_none h]; rfl
  | some p => rw [Call.finish_of_some h, Call.finish_of_some h]

def finishAll (o : Outcome) (queue : List Nat) (calls : List Call) : List Call :=
  queue.foldl (fun calls i => calls.modify i (Call.finish o)) calls

theorem getElem?_finishAll (o : Outcome) (queue : List Nat) (calls : List Call) (i : Nat) :
    (finishAll o queue calls)[i]? =
      calls[i]?.map fun c => if i ∈ queue then c.finish o else c := by
  induction queue generalizing calls with
  | nil => simp [finishAll]
  | cons q queue ih =>
      have hstep : finishAll o (q :: queue) calls =
          finishAll o queue (calls.modify q (Call.finish o)) := rfl
      rw [hstep, ih, List.getElem?_modify]
      cases calls[i]? with
      | none => rfl
      | some c => by_cases hq : q = i <;> by_cases hi : i ∈ queue <;> simp_all [eq_comm]

@[simp] theorem length_finishAll (o : Outcome) (queue : List Nat) (calls : List Call) :
    (finishAll o queue calls).length = calls.length := by
  induction queue generalizing calls with
  | nil => rfl
  | cons q queue ih => simpa [finishAll] using ih (calls.modify q (Call.finish o))

namespace Session

variable {s : Session}

@[simp] theorem finish_eq (s : Session) (call : Nat) (o : Outcome) :
    s.finish call o = { s with calls := s.calls.modify call (Call.finish o) } := rfl

/-! ### Ending a session -/

@[simp] theorem reason?_terminated {r : Failure} (h : s.state = .terminated r) :
    s.reason? = some r := by
  simp [reason?, h]

theorem state_of_reason? {r : Failure} (h : s.reason? = some r) : s.state = .terminated r := by
  unfold reason? at h
  split at h
  · simp_all
  · cases h

theorem reason?_eq_none_iff : s.reason? = none ↔ ∀ r, s.state ≠ .terminated r := by
  unfold reason?
  split <;> simp_all

/-- A session that is over does not end again. -/
theorem terminate_over (h : s.reason? ≠ none) (r : Failure) : s.terminate r = s := by
  obtain ⟨r', hr'⟩ := Option.ne_none_iff_exists'.1 h
  simp [terminate, state_of_reason? hr']

/-- A session that ends drops its queue. -/
theorem terminate_open (h : s.reason? = none) (r : Failure) :
    s.terminate r = { s with
      state := .terminated r
      queue := []
      calls := finishAll (.failed (.ofTermination r)) s.queue s.calls
      log := s.log ++ [.became (.terminated r)] } := by
  have hfold : ∀ (queue : List Nat) (t : Session),
      queue.foldl (fun s call => s.finish call (.failed (.ofTermination r))) t =
        { t with calls := finishAll (.failed (.ofTermination r)) queue t.calls } := by
    intro queue
    induction queue with
    | nil => intro t; rfl
    | cons q queue ih => intro t; simp only [List.foldl_cons, ih]; rfl
  have hstate := reason?_eq_none_iff.1 h
  unfold terminate
  split
  · rename_i r' hr'
    exact absurd hr' (hstate r')
  · simp only [hfold, emit]

@[simp] theorem terminate_worker (s : Session) (r : Failure) :
    (s.terminate r).worker = s.worker := by
  by_cases h : s.reason? = none
  · rw [terminate_open h]
  · rw [terminate_over h]

@[simp] theorem terminate_options (s : Session) (r : Failure) :
    (s.terminate r).options = s.options := by
  by_cases h : s.reason? = none
  · rw [terminate_open h]
  · rw [terminate_over h]

@[simp] theorem terminate_launching (s : Session) (r : Failure) :
    (s.terminate r).launching = s.launching := by
  by_cases h : s.reason? = none
  · rw [terminate_open h]
  · rw [terminate_over h]

@[simp] theorem terminate_launched (s : Session) (r : Failure) :
    (s.terminate r).launched = s.launched := by
  by_cases h : s.reason? = none
  · rw [terminate_open h]
  · rw [terminate_over h]

@[simp] theorem terminate_child (s : Session) (r : Failure) : (s.terminate r).child = s.child := by
  by_cases h : s.reason? = none
  · rw [terminate_open h]
  · rw [terminate_over h]

/-- A call that is not queued does not end with the session. -/
theorem terminate_unqueued {i : Nat} (hi : i ∉ s.queue) (r : Failure) :
    (s.terminate r).calls[i]? = s.calls[i]? := by
  by_cases h : s.reason? = none
  · rw [terminate_open h]
    simp [getElem?_finishAll, hi]
  · rw [terminate_over h]

theorem terminate_reason? (s : Session) (r : Failure) : (s.terminate r).reason? ≠ none := by
  by_cases h : s.reason? = none
  · rw [terminate_open h]
    simp [reason?]
  · rwa [terminate_over h]

end Session

/-! ### The subprocess aside -/

/-- What may become of the subprocess while nobody reads it: it may end, and then nothing more
comes. -/
structure Child.Follows (c c' : Child) : Prop where
  /-- What it wrote stays to be read. -/
  stdout : c'.stdout = c.stdout
  /-- An end of the output is final. -/
  ended : c.stdoutEnded = true → c'.stdoutEnded = true
  /-- Its own end is final too, and ends the output. -/
  exit : c'.exit = c.exit ∨ c.exit = none ∧ c'.stdoutEnded = true

theorem Child.Follows.refl (c : Child) : c.Follows c := ⟨rfl, id, .inl rfl⟩

theorem Child.Follows.trans {c c' c'' : Child} (h : c.Follows c') (h' : c'.Follows c'') :
    c.Follows c'' := by
  refine ⟨h'.stdout.trans h.stdout, fun hc => h'.ended (h.ended hc), ?_⟩
  rcases h.exit with hsame | ⟨hnone, hended⟩
  · rcases h'.exit with hsame' | ⟨hnone', hended'⟩
    · exact .inl (hsame'.trans hsame)
    · exact .inr ⟨hsame ▸ hnone', hended'⟩
  · exact .inr ⟨hnone, h'.ended hended⟩

namespace Session

theorem childExits_eq (s : Session) (status : Option Failure) :
    ∃ child, s.childExits status = { s with child } ∧ s.child.Follows child := by
  unfold childExits
  split
  · exact ⟨s.child, rfl, .refl _⟩
  · rename_i hnone
    exact ⟨_, rfl, rfl, fun _ => rfl, .inr ⟨hnone, rfl⟩⟩

theorem kill_eq (s : Session) : ∃ child, s.kill = { s with child } ∧ s.child.Follows child := by
  have hcount : s.child.Follows { s.child with kills := s.child.kills + 1 } :=
    ⟨rfl, id, .inl rfl⟩
  dsimp only [kill]
  split
  · split
    · obtain ⟨child, heq, hfollows⟩ := childExits_eq
        { s with child := { s.child with kills := s.child.kills + 1 } }
        (some (.other (utf8 "signal: killed")))
      exact ⟨child, heq, hcount.trans hfollows⟩
    · exact ⟨_, rfl, hcount⟩
  · exact ⟨_, rfl, hcount⟩

theorem closeStdin_eq (s : Session) :
    ∃ child, s.closeStdin = { s with child } ∧ s.child.Follows child := by
  have hcount : s.child.Follows
      { s.child with stdinCloses := s.child.stdinCloses + 1, stdinClosed := true } :=
    ⟨rfl, id, .inl rfl⟩
  dsimp only [closeStdin]
  split
  · split
    · obtain ⟨child, heq, hfollows⟩ := childExits_eq { s with child :=
        { s.child with stdinCloses := s.child.stdinCloses + 1, stdinClosed := true } } none
      exact ⟨child, heq, hcount.trans hfollows⟩
    · exact ⟨_, rfl, hcount⟩
  · exact ⟨_, rfl, hcount⟩

end Session

/-! ### Elementary changes -/

/-- What is remembered of a change: nothing, that time passed, the portions of output that came up,
that the first call left the queue to be written or to be skipped, or that the time of a call in
flight was up. -/
inductive Label where
  | silent
  | ticked
  | printed (chunks : List Bytes)
  | taken
  | expired (call : Nat)

/-- The portions of output that came up. -/
def Label.chunks : Label → List Bytes
  | .printed chunks => chunks
  | _ => []

namespace Session

/-- **An elementary change** of a session.

The launcher is set to work (`starting`) and returns with a subprocess (`launched`) or without
(`stranded`).  The first prompt makes the session ready (`greeted`), or comes when it is over
(`overtaken`).  The next call of the queue is passed over, written, or refused, which ends the
session.  A call in flight is answered by a frame, or, if it is the last one, by what is left of the
output of a subprocess that is gone (`parted`; `outlived` if the session is over by then); or it
fails with the session, or since it has had its time.  The reader of standard output reads a
portion, drops the frames nobody takes, comes to the end of the output, and learns that the
subprocess is gone. -/
inductive Change (s : Session) : Label → Session → Prop where
  | aside {child : Child} (complaints : Complaints) (clients : List Client) (lines : List Bytes)
      (hchild : s.child.Follows child) :
      Change s .silent { s with
        child, complaints, clients, log := s.log ++ lines.map .complained }
  | ticked (time : Nat) : Change s .ticked { s with now := s.now + time }
  | printed (chunks : List Bytes) (hopen : s.child.stdoutEnded = false) :
      Change s (.printed chunks)
        { s with child := { s.child with stdout := s.child.stdout ++ chunks } }
  | starting (hidle : s.state = .idle) :
      Change s .silent { s with
        state := .starting, launching := true, log := s.log ++ [.became .starting] }
  | stranded (hlaunching : s.launching = true) : Change s .silent { s with launching := false }
  | launched (manner : Manner) (complaints : Complaints) (hlaunching : s.launching = true) :
      Change s .silent { s with
        launching := false, launched := some manner, worker := .greeting, complaints }
  | accepted (command : Bytes) (last : Bool) (hopen : s.reason? = none) :
      Change s .silent { s with
        accepted := s.accepted + 1
        calls := s.calls ++ [{ command, last, seq := s.accepted + 1 }]
        queue := s.queue ++ [s.calls.length] }
  | rejected (command : Bytes) (last : Bool) {reason : Failure} (hover : s.reason? = some reason) :
      Change s .silent { s with
        calls := s.calls ++
          [{ command, last, seq := 0, outcome := some (.failed (.ofTermination reason)) }] }
  | gaveUp (call : Nat) :
      Change s .silent { s with
        calls := s.calls.modify call fun c => { c with abandoned := true } }
  | ended (reason : Failure) (hopen : s.reason? = none) :
      Change s .silent { s with
        state := .terminated reason
        queue := []
        calls := finishAll (.failed (.ofTermination reason)) s.queue s.calls
        log := s.log ++ [.became (.terminated reason)] }
  | announced (hover : s.reason? ≠ none) : Change s .silent { s with done := true }
  | greeted {sanitizer : Terminal.Sanitizer} {framer : Framer} {banner : Bytes}
      {offered : List Bytes} (hworker : s.worker = .greeting) (hopen : s.reason? = none)
      (hpump : s.pump = .reading sanitizer framer (banner :: offered)) :
      Change s .silent { s with
        state := .ready
        worker := .idle
        pump := .reading sanitizer framer offered
        log := s.log ++ [.recorded .output 0 banner, .became .ready] }
  | overtaken {sanitizer : Terminal.Sanitizer} {framer : Framer} {banner : Bytes}
      {offered : List Bytes} (hworker : s.worker = .greeting) (hover : s.reason? ≠ none)
      (hunheard : s.done = false)
      (hpump : s.pump = .reading sanitizer framer (banner :: offered)) :
      Change s .silent { s with
        worker := .off
        pump := .reading sanitizer framer offered
        log := s.log ++ [.recorded .output 0 banner] }
  | skipped {call : Nat} {rest : List Nat} {c : Call} (hworker : s.worker = .idle)
      (hqueue : s.queue = call :: rest) (hcall : s.calls[call]? = some c)
      (hgone : c.abandoned = true) :
      Change s .taken { s with
        queue := rest
        calls := s.calls.modify call (Call.finish (.failed (.plain .canceled))) }
  | wrote {call : Nat} {rest : List Nat} {c : Call} (hworker : s.worker = .idle)
      (hqueue : s.queue = call :: rest) (hcall : s.calls[call]? = some c)
      (hwaits : c.abandoned = false) (hfree : s.writeFailure? = none) :
      Change s .taken { s with
        queue := rest
        log := s.log ++ [.recorded .input c.seq c.command,
          .wrote c.seq (c.command ++ [Bytes.newline])]
        worker := .awaiting call (s.options.timeLimit.map (s.now + ·)) }
  | refused {call : Nat} {rest : List Nat} {c : Call} {cause : Failure} (hworker : s.worker = .idle)
      (hopen : s.reason? = none) (hqueue : s.queue = call :: rest)
      (hcall : s.calls[call]? = some c) (hwaits : c.abandoned = false)
      (hfail : s.writeFailure? = some cause) :
      Change s .silent { s with
        state := .terminated (.write cause)
        queue := []
        calls := finishAll (.failed (.ofTermination (.write cause))) s.queue s.calls
        log := s.log ++ [.recorded .input c.seq c.command, .became (.terminated (.write cause))]
        worker := .off }
  | answered {call : Nat} {deadline : Option Nat} {c : Call} {sanitizer : Terminal.Sanitizer}
      {framer : Framer} {frame : Bytes} {offered : List Bytes}
      (hworker : s.worker = .awaiting call deadline) (hunheard : s.done = false)
      (hpump : s.pump = .reading sanitizer framer (frame :: offered))
      (hcall : s.calls[call]? = some c) :
      Change s .silent { s with
        worker := .idle
        pump := .reading sanitizer framer offered
        calls := s.calls.modify call (Call.finish (.answered (classify frame)))
        log := s.log ++ [.recorded .output c.seq frame] }
  | parted {call : Nat} {deadline : Option Nat} {c : Call} {tail : Bytes}
      {status : Option Failure} (hworker : s.worker = .awaiting call deadline)
      (hopen : s.reason? = none) (hpump : s.pump = .finished tail status)
      (hcall : s.calls[call]? = some c) (hlast : c.last = true) :
      Change s .silent { s with
        state := .terminated (.plain .quit)
        queue := []
        calls := (finishAll (.failed (.ofTermination (.plain .quit))) s.queue s.calls).modify call
          (Call.finish (.answered (classify tail)))
        log := s.log ++ [.recorded .output c.seq tail, .became (.terminated (.plain .quit))]
        worker := .off }
  | outlived {call : Nat} {deadline : Option Nat} {c : Call} {tail : Bytes}
      {status : Option Failure} (hworker : s.worker = .awaiting call deadline)
      (hover : s.reason? ≠ none) (hunheard : s.done = false)
      (hpump : s.pump = .finished tail status) (hcall : s.calls[call]? = some c)
      (hlast : c.last = true) :
      Change s .silent { s with
        calls := s.calls.modify call (Call.finish (.answered (classify tail)))
        log := s.log ++ [.recorded .output c.seq tail]
        worker := .off }
  | failed {call : Nat} {deadline : Option Nat} (reason : Failure)
      (hworker : s.worker = .awaiting call deadline) (hover : s.reason? ≠ none) :
      Change s .silent { s with
        calls := s.calls.modify call (Call.finish (.failed (.ofTermination reason)))
        worker := .off }
  | expired {call : Nat} {deadline : Option Nat} {c : Call}
      (hworker : s.worker = .awaiting call deadline) (hover : s.reason? ≠ none)
      (hcall : s.calls[call]? = some c) :
      Change s (.expired call) { s with
        calls := s.calls.modify call
          (Call.finish (.failed (.timedOut s.options.commandTimeout c.command)))
        worker := .off }
  | stopped (hworker : s.worker = .idle ∨ s.worker = .greeting) (hover : s.reason? ≠ none) :
      Change s .silent { s with worker := .off }
  | read {sanitizer : Terminal.Sanitizer} {framer : Framer} {chunk : Bytes} {rest : List Bytes}
      (hpump : s.pump = .reading sanitizer framer []) (hstdout : s.child.stdout = chunk :: rest) :
      Change s .silent { s with
        child := { s.child with stdout := rest }
        pump := .reading (sanitizer.write chunk).1 (framer.feed (sanitizer.write chunk).2).1
          (framer.feed (sanitizer.write chunk).2).2 }
  | dropped {sanitizer : Terminal.Sanitizer} {framer : Framer} {offered : List Bytes}
      (hpump : s.pump = .reading sanitizer framer offered) (hdone : s.done = true) :
      Change s .silent { s with pump := .reading sanitizer framer [] }
  | drained {sanitizer : Terminal.Sanitizer} {framer : Framer}
      (hpump : s.pump = .reading sanitizer framer []) (hstdout : s.child.stdout = [])
      (hended : s.child.stdoutEnded = true) :
      Change s .silent
        { s with pump := .drained (framer.feed sanitizer.flush).1.pending }
  | departed {tail : Bytes} {status : Option Failure} (hpump : s.pump = .drained tail)
      (hexit : s.child.exit = some status) :
      Change s .silent { s with pump := .finished tail status }

/-- **A chain of silent changes.** -/
inductive Calm (s : Session) : Session → Prop where
  | refl : Calm s s
  | tail {t u : Session} : Calm s t → t.Change .silent u → Calm s u

theorem Change.calm {s t : Session} (h : s.Change .silent t) : s.Calm t := .tail .refl h

theorem Calm.trans {s t u : Session} (h : s.Calm t) (h' : t.Calm u) : s.Calm u := by
  induction h' with
  | refl => exact h
  | tail _ hc ih => exact ih.tail hc

end Session

end ReplBridge.Repl
