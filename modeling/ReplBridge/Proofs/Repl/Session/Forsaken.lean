import ReplBridge.Proofs.Repl.Session.Attended

/-!
**A close leaves nothing behind, unless it comes into the launch.**

A close works from every state, and when a session is over and nobody has still to see its
subprocess off, the subprocess is gone or was killed.  The exception is a subprocess that was
forsaken: the launcher brought it when the session was over and every close and quit had returned,
or a quit that had found the session idle ended it after all.  Nobody comes back for such a
subprocess.  What is left of the session stops at once, and only another quit or close would kill
it.

Main definitions:

* `Session.Deserted` — the session is over, and nobody looks after the subprocess any more;
* `Session.Spared` — the subprocess was left alone;
* `Repl.Act.Patient` — acts other than a quit or a close;
* `Session.LeavesBehind` — the subprocess is left behind.

Main results:

* `Session.Deserted.play` — **a subprocess nobody looks after is never killed**;
* `Session.nothing_left_unless_forsaken` — **a close works from every state, and no subprocess is
  left behind that was not forsaken**;
* `Session.subprocess_left_behind` — it happens.
-/

set_option autoImplicit false

namespace ReplBridge.Repl

/-- Neither a quit nor a close. -/
def Act.Patient (a : Act) : Prop :=
  (∀ command limit, a ≠ .event (.quit command limit)) ∧ a ≠ .event .close

namespace Session

variable {s s' : Session}

/-! ### Nobody comes back for it -/

/-- **Nobody looks after the subprocess any more**: the session is over, no command is in flight, and
no client sees the subprocess off. -/
structure Deserted (s : Session) : Prop where
  ended : s.reason? ≠ none
  resting : ∀ call deadline, s.worker ≠ .awaiting call deadline
  nobody : ∀ c ∈ s.clients, c.parting = false

/-- The subprocess was neither killed nor was its input closed. -/
structure Spared (s s' : Session) : Prop where
  kills : s'.child.kills = s.child.kills
  stdinCloses : s'.child.stdinCloses = s.child.stdinCloses

theorem Spared.of_child (h : s'.child = s.child) : s.Spared s' :=
  ⟨congrArg Child.kills h, congrArg Child.stdinCloses h⟩

theorem spared_childExits (s : Session) (status : Option Failure) :
    s.Spared (s.childExits status) := by
  unfold childExits
  split <;> exact ⟨rfl, rfl⟩

theorem spared_event {e : Event} (h : (Act.event e).Patient) : s.Spared (s.perform (.event e)) := by
  cases e with
  | quit command limit => exact absurd rfl (h.1 command limit)
  | close => exact absurd rfl h.2
  | start =>
      refine .of_child ?_
      simp only [perform, apply, start]
      split <;> rfl
  | launch =>
      refine .of_child ?_
      have hlaunch : s.perform (.event .launch) = s.launch := rfl
      rw [hlaunch]
      rcases launch_cases s with ⟨-, heq⟩ | ⟨-, reason, heq⟩ | ⟨-, manner, -, heq⟩
      · rw [heq]
      · rw [heq, terminate_child]
      · rw [heq]
  | submit command | execute command limit =>
      refine .of_child ?_
      simp only [perform, apply, submit, join]
      split <;> rfl
  | abandon call =>
      refine .of_child ?_
      simp only [perform, apply, abandon]
      split <;> rfl
  | output text =>
      simp only [perform, apply, write]
      split <;> exact ⟨rfl, rfl⟩
  | complaint text =>
      simp only [perform, apply, complain]
      split <;> exact ⟨rfl, rfl⟩
  | exit status => exact spared_childExits s status
  | breakStdin | breakStdout | pass => exact ⟨rfl, rfl⟩

/-- A worker that stops leaves the subprocess alone. -/
theorem Deserted.spared_workerMove (h : s.Deserted) (ht : s.Tidy) (hmove : s.workerMove? = some s') :
    s.Spared s' := by
  cases workerMove?_eq_some hmove with
  | stops => exact ⟨rfl, rfl⟩
  | departs => exact .of_child (terminate_child s _)
  | greets =>
      refine .of_child ?_
      dsimp only [greet]
      split <;> exact (dropOffer_keeps s).1
  | dispatches _ hqueue =>
      rw [ht.emptied h.ended] at hqueue
      cases hqueue
  | fails hworker | answers hworker | loses hworker => exact absurd hworker (h.resting _ _)

theorem spared_pumpMove (h : s.pumpMove? = some s') : s.Spared s' := by
  cases pumpMove?_eq_some h <;> exact ⟨rfl, rfl⟩

theorem spared_complaintsMove (h : s.complaintsMove? = some s') : s.Spared s' := by
  cases complaintsMove?_eq_some h <;> exact ⟨rfl, rfl⟩

/-- A client that sees no subprocess off leaves it alone, and goes on so. -/
theorem spared_clientStep {c c' : Client} (hc : c.parting = false)
    (h : s.clientStep? c = some (s', c')) : s.Spared s' ∧ c'.parting = false := by
  cases clientStep?_eq_some h with
  | returns => exact ⟨⟨rfl, rfl⟩, rfl⟩
  | leaves => exact ⟨.of_child (terminate_child s _), rfl⟩
  | releases | released | reaped | shuts | closed => cases hc

theorem spared_expireClient {c : Client} (hc : c.parting = false) :
    s.Spared (s.expireClient c).1 ∧ (s.expireClient c).2.parting = false := by
  cases c with
  | executing call deadline => exact ⟨⟨rfl, rfl⟩, rfl⟩
  | quitting | releasing | reaping | shutting | closing => cases hc
  | leaving | executed | hasQuit | hasClosed => exact ⟨⟨rfl, rfl⟩, rfl⟩

/-- A session that is over sends no command out. -/
theorem resting_perform (ht : s.Tidy) (hover : s.reason? ≠ none)
    (hresting : ∀ call deadline, s.worker ≠ .awaiting call deadline) (a : Act) :
    ∀ call deadline, (s.perform a).worker ≠ .awaiting call deadline := by
  refine (play_induction (P := fun _ t => t.reason? ≠ none ∧
    ∀ call deadline, t.worker ≠ .awaiting call deadline) ?_ [] ht ⟨hover, hresting⟩ [a]).2.2
  intro chunks t t' l ht h hc
  obtain ⟨r, hr⟩ := Option.ne_none_iff_exists'.1 h.1
  refine ⟨by simp [hc.reason? hr], ?_⟩
  cases hc with
  | wrote hworker hqueue =>
      rw [ht.emptied h.1] at hqueue
      cases hqueue
  | launched | greeted | overtaken | refused | answered | parted | outlived | failed | expired
  | stopped => simp
  | _ => exact h.2

/-- **A subprocess nobody looks after is left alone**, one act at a time. -/
theorem Deserted.perform (h : s.Deserted) (ht : s.Tidy) {a : Act} (ha : a.Patient) :
    (s.perform a).Deserted ∧ s.Spared (s.perform a) := by
  have hover : (s.perform a).reason? ≠ none := by
    obtain ⟨r, hr⟩ := Option.ne_none_iff_exists'.1 h.ended
    have hr' : (s.perform a).reason? = some r := reason?_play ht hr [a]
    simp [hr']
  have hset {i : Nat} {c' : Client} (hc' : c'.parting = false) :
      ∀ c ∈ s.clients.set i c', c.parting = false := by
    intro c hc
    rcases List.mem_or_eq_of_mem_set hc with hold | rfl
    · exact h.nobody c hold
    · exact hc'
  refine ⟨⟨hover, resting_perform ht h.ended h.resting a, ?_⟩, ?_⟩
  · rcases perform_clients s a with ⟨more, hmore, hcomes⟩ | ⟨i, c, s', c', -, hc, hstep, heq⟩ |
      ⟨i, c, d, -, hc, -, -, heq⟩
    · intro c hc
      rw [hmore] at hc
      rcases List.mem_append.1 hc with hold | hnew
      · exact h.nobody c hold
      · obtain ⟨e, rfl, hbegins⟩ := hcomes c hnew
        cases c with
        | quitting n d =>
            obtain ⟨-, -, command, limit, rfl, -⟩ := hbegins
            exact absurd rfl (ha.1 command limit)
        | shutting => exact absurd (congrArg Act.event hbegins) ha.2
        | releasing | reaping | closing => exact hbegins.elim
        | executing | leaving | executed | hasQuit | hasClosed => rfl
    · rw [heq]
      exact hset (spared_clientStep (h.nobody c (List.mem_of_getElem? hc)) hstep).2
    · rw [heq]
      exact hset (spared_expireClient (h.nobody c (List.mem_of_getElem? hc))).2
  · have hperformed := s.performed a
    generalize s.perform a = s' at hperformed ⊢
    cases hperformed with
    | nothing => exact ⟨rfl, rfl⟩
    | event e => exact spared_event ha
    | announce hmove =>
        obtain ⟨-, -, rfl⟩ := announce?_eq_some hmove
        exact ⟨rfl, rfl⟩
    | worker hmove => exact h.spared_workerMove ht hmove
    | pump hmove => exact spared_pumpMove hmove
    | complaints hmove => exact spared_complaintsMove hmove
    | timer hworker => exact absurd hworker (h.resting _ _)
    | client hc hstep =>
        have hspared := (spared_clientStep (h.nobody _ (List.mem_of_getElem? hc)) hstep).1
        exact ⟨hspared.kills, hspared.stdinCloses⟩
    | clientTimer hc =>
        have hspared := (spared_expireClient (s := s) (h.nobody _ (List.mem_of_getElem? hc))).1
        exact ⟨hspared.kills, hspared.stdinCloses⟩

/-- **A subprocess nobody looks after is never killed**, as long as nobody quits or closes. -/
theorem Deserted.play (h : s.Deserted) (ht : s.Tidy) {acts : List Act}
    (hacts : ∀ a ∈ acts, a.Patient) : s.Spared (s.play acts) := by
  induction acts generalizing s with
  | nil => exact ⟨rfl, rfl⟩
  | cons a acts ih =>
      obtain ⟨hthen, hspared⟩ := h.perform ht (hacts a (by simp))
      have hrest := ih hthen (tidy_perform ht a) fun b hb => hacts b (by simp [hb])
      exact ⟨hrest.kills.trans hspared.kills, hrest.stdinCloses.trans hspared.stdinCloses⟩

/-! ### What is left behind -/

/-- **A close works from every state, and no subprocess is left behind that was not forsaken.**  Let
a session be closed at any moment of any play, and let the subprocess, if there is one, heed being
killed.  Once nothing can move, which is so after the session has settled, the close has returned,
the session is over and every call has ended; the subprocess is gone, unless the launcher brought it
only after the close had returned; and nothing that comes up later, another close for one, changes
the state of the session or the outcome of any call.

And after every play, at rest or not, if the session is over and no quit or close has still to see
it off, then the subprocess that was launched is gone, or was killed, or was forsaken in one of the
acts.  Such a subprocess is not killed later: in a session that is over, with no command in flight
and nobody to see the subprocess off, no play without a quit or a close kills it or closes its
input. -/
theorem nothing_left_unless_forsaken (options : Options) :
    (∀ before after, let i := ((new options).play before).clients.length
      let s := (new options).play (before ++ [.event .close] ++ after)
      s.move? = none → (∀ manner, s.launched = some manner → manner.heedsKill = true) →
      (∃ result, s.clients[i]? = some (.hasClosed result)) ∧ s.reason? ≠ none ∧
      (s.launched ≠ none → s.child.exit ≠ none ∨
        ∃ mid rest result, after = mid ++ .event .launch :: rest ∧
          ((new options).play (before ++ [.event .close] ++ mid)).launching = true ∧
          ((new options).play (before ++ [.event .close] ++ mid)).clients[i]? =
            some (.hasClosed result)) ∧
      (∀ i, i < s.calls.length → s.outcome? i ≠ none) ∧
      ∀ more, (s.play more).state = s.state ∧
        ∀ i, i < s.calls.length → (s.play more).outcome? i = s.outcome? i) ∧
    (∀ before, ∃ after, Internal after ∧
      ((new options).play before).step .close =
        (new options).play (before ++ [.event .close] ++ after) ∧
      ((new options).play (before ++ [.event .close] ++ after)).move? = none) ∧
    (∀ acts, let s := (new options).play acts
      s.reason? ≠ none → s.launched ≠ none → (∀ c ∈ s.clients, c.parting = false) →
      s.child.exit ≠ none ∨ 0 < s.child.kills ∨
        ∃ before a rest, acts = before ++ a :: rest ∧ ((new options).play before).Forsakes a) ∧
    ∀ before after, let s := (new options).play before
      s.reason? ≠ none → (∀ call deadline, s.worker ≠ .awaiting call deadline) →
      (∀ c ∈ s.clients, c.parting = false) → (∀ a ∈ after, a.Patient) →
      ((new options).play (before ++ after)).child.kills = s.child.kills ∧
        ((new options).play (before ++ after)).child.stdinCloses = s.child.stdinCloses := by
  refine ⟨?_, ?_, ?_, ?_⟩
  · intro before after i s hquiet hheeds
    have ht : s.Tidy := tidy_play (tidy_new options) _
    have hp : s.Placed := placed_play options _
    have hended : s.child.exit ≠ none → s.child.stdoutEnded = true := ended_play options _
    have hclosed : s.Closed (((new options).play before).launching = true) i := by
      have hr : ((new options).play before).Reached := ⟨options, before, rfl⟩
      have hbegins := (closed_close hr.tidy).play (hr.leads ⟨[.event .close], rfl⟩) after
      simpa [s] using hbegins
    have hover := hclosed.over
    have hdone : ∀ i, i < s.calls.length → s.outcome? i ≠ none := by
      intro i hi hnone
      have hc := List.getElem?_eq_getElem hi
      rw [outcome?_of_call hc] at hnone
      exact rest_of_quiet ht hp hended hquiet (.inl hover) i ((hp.undone i _ hc).1 hnone)
    refine ⟨(hclosed.rest hended hquiet hheeds).1, hover,
      gone_after_close options before after hquiet hheeds, hdone, ?_⟩
    intro more
    obtain ⟨r, hr⟩ := Option.ne_none_iff_exists'.1 hover
    refine ⟨?_, ?_⟩
    · rw [state_of_reason? hr, state_of_reason? (reason?_play ht hr more)]
    · intro i hi
      obtain ⟨o, ho⟩ := Option.ne_none_iff_exists'.1 (hdone i hi)
      rw [ho, outcome?_play ht ho more]
  · intro before
    obtain ⟨after, hinternal, hstep⟩ := step_internal (e := .close) (by simp)
      ((new options).play before)
    have hplay : ((new options).play before).step .close =
        (new options).play (before ++ [.event .close] ++ after) := by
      simpa using hstep
    exact ⟨after, hinternal, hplay, hplay ▸ quiet_settle _⟩
  · intro acts s hover hlaunched hnobody
    rcases attended_or_forsaken options acts with hattended | hforsaken
    · rcases hattended.later hlaunched (.inl hover) with hexit | hkilled | ⟨c, hc, hparting⟩
      · exact .inl hexit
      · exact .inr (.inl hkilled)
      · rw [hnobody c hc] at hparting
        cases hparting
    · exact .inr (.inr hforsaken)
  · intro before after s hover hresting hnobody hpatient
    have hspared := Deserted.play ⟨hover, hresting, hnobody⟩
      (tidy_play (tidy_new options) before) hpatient
    rw [play_append]
    exact ⟨hspared.kills, hspared.stdinCloses⟩

/-- It happens: a session is closed while its reader offers a frame nobody asked for; and a session
whose input broke is over, while its subprocess, which was killed, does not leave. -/
theorem nothing_left_parked :
    let options : Options := { sentinel := [62], launcher := .spawns {} }
    let before : List Act := [.event .start, .event .launch, .event (.output [62, 120, 62]), .pump,
      .worker, .event (.complaint [33])]
    let after : List Act :=
      [.announce, .worker, .client 0, .pump, .pump, .complaints, .complaints, .pump, .client 0]
    let s := (new options).play (before ++ [.event .close] ++ after)
    let stubborn : Options := { sentinel := [62], launcher := .spawns { heedsKill := false } }
    let u := (new stubborn).play [.event .start, .event .launch, .event (.output [62]), .pump,
      .worker, .event (.breakStdin (.plain .closedPipe)), .event (.submit [97]), .worker]
    (((new options).play before).Parked ∧ s.move? = none ∧
      (∃ result, s.clients[0]? = some (.hasClosed result)) ∧ s.reason? ≠ none ∧
      s.child.exit ≠ none ∧ ∀ more, (s.play more).state = s.state) ∧
    u.reason? ≠ none ∧ u.launched ≠ none ∧ u.child.exit = none ∧ 0 < u.child.kills ∧
      ∀ after, (∀ a ∈ after, a.Patient) → (u.play after).child.kills = u.child.kills := by
  obtain ⟨hclose, -, -, -⟩ :=
    nothing_left_unless_forsaken { sentinel := [62], launcher := .spawns {} }
  obtain ⟨-, -, -, hlater⟩ := nothing_left_unless_forsaken
    { sentinel := [62], launcher := .spawns { heedsKill := false } }
  obtain ⟨hreturned, hreason, -, -, hstate⟩ := hclose
    [.event .start, .event .launch, .event (.output [62, 120, 62]), .pump, .worker,
      .event (.complaint [33])]
    [.announce, .worker, .client 0, .pump, .pump, .complaints, .complaints, .pump, .client 0]
    (by decide) (by decide)
  refine ⟨⟨by decide, by decide, hreturned, hreason, by decide, fun more => (hstate more).1⟩,
    by decide, by decide, by decide, by decide, fun after hpatient => ?_⟩
  have hoff : ((new { sentinel := [62], launcher := .spawns { heedsKill := false } }).play
      [.event .start, .event .launch, .event (.output [62]), .pump, .worker,
        .event (.breakStdin (.plain .closedPipe)), .event (.submit [97]), .worker]).worker =
      .off := by decide
  rw [← play_append]
  exact (hlater _ after (by decide) (fun _ _ h => absurd (hoff.symm.trans h) (by simp)) (by decide)
    hpatient).1

/-- **The subprocess is left behind**: nothing can move, the session is over and nobody has still to
see the subprocess off; but it is there and was not killed, and it will not be unless somebody quits
or closes again. -/
structure LeavesBehind (s : Session) : Prop where
  quiet : s.move? = none
  ended : s.reason? ≠ none
  launched : s.launched ≠ none
  nobody : ∀ c ∈ s.clients, c.parting = false
  alive : s.child.exit = none
  spared : ∀ acts, (∀ a ∈ acts, a.Patient) → (s.play acts).child.kills = 0

theorem leavesBehind_of_quiet (hr : s.Reached) (hquiet : s.move? = none) (hover : s.reason? ≠ none)
    (hlaunched : s.launched ≠ none) (hnobody : ∀ c ∈ s.clients, c.parting = false)
    (hexit : s.child.exit = none) (hkills : s.child.kills = 0) : s.LeavesBehind := by
  obtain ⟨hannounced, hworker, -, -⟩ := quiet_parts hquiet
  have hoff := off_of_quiet hr.tidy hover hannounced hworker
  refine ⟨hquiet, hover, hlaunched, hnobody, hexit, fun acts hpatient => ?_⟩
  rw [(Deserted.play ⟨hover, by simp [hoff], hnobody⟩ hr.tidy hpatient).kills, hkills]

/-- **A subprocess may be left behind.**  A session is closed while its launcher is at work, or a
quit gives up then; the close, or the quit, has returned when the launcher brings the subprocess.
Or a quit finds the session idle, the session is started and its subprocess launched, and then the
quit ends it. -/
theorem subprocess_left_behind :
    let options : Options := { sentinel := [62], launcher := .spawns {} }
    ((new options).run [.start, .close, .launch]).LeavesBehind ∧
    ((new options).run [.start, .quit [113] 5, .pass 5, .launch]).LeavesBehind ∧
    ((new options).play [.event (.quit [113] 5), .event .start, .event .launch, .client 0,
      .announce, .worker]).LeavesBehind := by
  intro options
  refine ⟨?_, ?_, ?_⟩
  · exact leavesBehind_of_quiet ((reached_new options).run _) (by decide) (by decide) (by decide)
      (by decide) (by decide) (by decide)
  · exact leavesBehind_of_quiet ((reached_new options).run _) (by decide) (by decide) (by decide)
      (by decide) (by decide) (by decide)
  · exact leavesBehind_of_quiet ⟨options, _, rfl⟩ (by decide) (by decide) (by decide) (by decide)
      (by decide) (by decide)

end Session

end ReplBridge.Repl
