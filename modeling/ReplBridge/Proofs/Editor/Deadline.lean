import ReplBridge.Proofs.Editor.Moves

/-!
**The end of a server comes in time.**

When the compiler is asked to quit, a time is set up to which it is waited for.  Nothing that
happens afterwards puts that time off: whoever asks again finds the quit asked for, and the quit is
over with the first event at which the time has come, whatever request is under way then.  A server
whose stream is over has asked, and is done as soon as the quit is over.

Main definitions:

* `Server.Onward` — what is never undone;
* `Server.Punctual` — the quit is over in time, and the server is done with it;
* `Server.Told` — how the server says that it is done.

Main results:

* `Server.Move.onward` — a move undoes nothing;
* `Server.Punctual.step` — **an event leaves a server punctual**;
* `Server.Told.move` — what a move does to the outcome.
-/

set_option autoImplicit false

namespace ReplBridge.Editor

/-- The outcome that a server tells when it is done: whether it failed. -/
def Effect.outcome? : Effect → Option Bool
  | .done failed => some failed
  | _ => none

/-- The time that passes in an event. -/
def Event.time : Event → Nat
  | .pass time => time
  | _ => 0

/-- A server always waits for a while. -/
theorem Options.limit_pos (o : Options) : 0 < o.limit := by
  unfold Options.limit
  split
  · exact Int.lt_toNat.2 ‹_›
  · decide

namespace Server

variable {s s' : Server}

/-! ### What is never undone -/

/-- **What is never undone**: a server stays set up as it is, time does not go back, the stream
stays over for the reason it is, the editor has asked for the end once it has, the time up to which
the compiler is waited for stays as it is until the quit is over, and the server stays done. -/
structure Onward (s s' : Server) : Prop where
  options : s'.options = s.options
  now : s.now ≤ s'.now
  closing : ∀ {why}, s.closing = some why → s'.closing = some why
  exited : s.exited = true → s'.exited = true
  asked : ∀ {deadline byShutdown}, s.quit = .asked deadline byShutdown →
    s'.quit = .asked deadline byShutdown ∨ s'.quit = .finished
  finished : s.quit = .finished → s'.quit = .finished
  done : s.done = true → s'.done = true

theorem Onward.refl (s : Server) : s.Onward s := ⟨rfl, Nat.le_refl _, id, id, .inl, id, id⟩

theorem Onward.trans {s s' s'' : Server} (h : s.Onward s') (h' : s'.Onward s'') : s.Onward s'' := by
  refine ⟨h'.options.trans h.options, Nat.le_trans h.now h'.now,
    fun hwhy => h'.closing (h.closing hwhy), fun hexited => h'.exited (h.exited hexited), ?_,
    fun hfinished => h'.finished (h.finished hfinished), fun hdone => h'.done (h.done hdone)⟩
  intro deadline byShutdown hasked
  rcases h.asked hasked with hasked | hfinished
  · exact h'.asked hasked
  · exact .inr (h'.finished hfinished)

/-- Where the quit stays as it is, what is untouched goes on. -/
theorem Untouched.onward (h : s.Untouched s') (hquit : s'.quit = s.quit) : s.Onward s' :=
  ⟨h.options, Nat.le_of_eq h.now.symm, h.closing.trans, h.exited.trans,
    fun hasked => .inl (hquit.trans hasked), hquit.trans, h.done.trans⟩

theorem askToQuit_onward (s : Server) (byShutdown : Bool) : s.Onward (s.askToQuit byShutdown) := by
  by_cases hquit : s.quit = .never
  · obtain ⟨h₁, h₂, h₃, -, -, h₆, h₇⟩ := untouched_askToQuit s byShutdown
    exact ⟨h₁, Nat.le_of_eq h₇.symm, h₂.trans, h₃.trans, by simp [hquit], by simp [hquit], h₆.trans⟩
  · rw [askToQuit_of_ne hquit]
    exact .refl s

theorem Begins.onward {r : Request} (h : s.Begins r s') : s.Onward s' := by
  have hsame := h.untouched
  cases h with
  | atOnce | asks | quiet => exact hsame.onward rfl
  | waits =>
      obtain ⟨h₁, h₂, h₃, h₄, h₅, h₆, h₇⟩ := askToQuit_onward { s with shuttingDown := true } true
      exact ⟨h₁, h₂, h₃, h₄, h₅, h₆, h₇⟩

/-- **A move undoes nothing.** -/
theorem Move.onward (h : s.Move s') : s.Onward s' := by
  have hoptions := h.options
  cases h with
  | @begins r rest =>
      obtain ⟨-, h₂, h₃, h₄, h₅, h₆, h₇⟩ := (start_begins { s with queue := rest } r).onward
      exact ⟨hoptions, h₂, h₃, h₄, h₅, h₆, h₇⟩
  | @concludes t answer =>
      obtain ⟨store, ms, hconclude⟩ := conclude_tells { s with task := none } t answer
      rw [hconclude]
      exact ⟨rfl, Nat.le_refl _, id, id, .inl, id, id⟩
  | quits hquit => exact ⟨hoptions, Nat.le_refl _, id, id, fun _ => .inr rfl, fun _ => rfl, id⟩
  | closes why hopen =>
      obtain ⟨-, h₂, -, h₄, h₅, h₆, h₇⟩ := askToQuit_onward { s with closing := some why } false
      exact ⟨hoptions, h₂, by simp [hopen], h₄, h₅, h₆, h₇⟩
  | finishes => exact ⟨hoptions, Nat.le_refl _, id, id, .inl, id, fun _ => rfl⟩
  | exits id _ =>
      rw [reply_eq_tells]
      exact ⟨rfl, Nat.le_refl _, fun h => h, fun _ => rfl, .inl, fun h => h, fun h => h⟩
  | cancels | deafens => exact ⟨hoptions, Nat.le_refl _, id, id, .inl, id, id⟩
  | passes => exact ⟨hoptions, Nat.le_add_right _ _, id, id, .inl, id, id⟩

theorem Moves.onward (h : Moves s s') : s.Onward s' := by
  induction h with
  | refl => exact .refl s
  | tail _ hlast ih => exact ih.trans hlast.onward

theorem arrive_onward (s : Server) (e : Event) : s.Onward (s.arrive e) := by
  unfold arrive
  split
  · split <;> exact ⟨rfl, Nat.le_refl _, id, id, .inl, id, id⟩
  · exact .refl s

theorem step_onward (h : s.Idle) (e : Event) : s.Onward (s.step e) :=
  (arrive_onward s e).trans (step_moves h e).onward

/-! ### The time -/

theorem finish_now (s : Server) : s.finish.now = s.now := by
  unfold finish
  split <;> rfl

theorem close_now (s : Server) (why : Closing) : (s.close why).now = s.now := by
  unfold close
  split
  · rfl
  · rw [finish_now, (untouched_askToQuit _ _).now]

theorem step_now (h : s.Idle) (e : Event) : (s.step e).now = s.now + e.time := by
  cases e with
  | request r =>
      rw [step_request]
      split
      · rfl
      split
      · rw [reply_eq_tells]
        rfl
      · rw [handle_singleton h, (untouched_goOn _).now]
        rfl
  | garbage why => exact close_now s _
  | ended => exact close_now s _
  | canceled =>
      simp only [step, cancel]
      rw [finish_now, close_now]
      split
      · rw [(untouched_quitOver _).now, (untouched_answered _ _).now]
        rfl
      · rw [(untouched_answered _ _).now]
        rfl
  | writesBroken => rfl
  | answered answer => exact (untouched_answered s answer).now
  | hasQuit =>
      simp only [step]
      split
      · rw [finish_now, (untouched_quitOver s).now]
        rfl
      · rfl
  | pass time =>
      simp only [step, pass]
      split
      · split
        · rw [finish_now, (untouched_quitOver _).now]
          rfl
        · rfl
      · rfl

/-- What moves at one time keep, a chain of moves keeps that ends at the time it began. -/
theorem Moves.still {P : Server → Prop} (h : Moves s s') (hnow : s'.now = s.now)
    (hstep : ∀ a b, Move a b → b.now = a.now → P a → P b) (hs : P s) : P s' := by
  induction h with
  | refl => exact hs
  | @tail mid last hmoves hlast ih =>
      -- Time does not go back, so it has not moved in between.
      have hfirst := Moves.onward hmoves |>.now
      have hnext := hlast.onward.now
      exact hstep mid last hlast (by omega) (ih (by omega))

/-! ### The quit in time -/

/-- What holds at every moment: the compiler is waited for up to a time to come that is not far, and
it has been asked if the stream is over. -/
structure Timely (s : Server) : Prop where
  pending : ∀ {deadline byShutdown}, s.quit = .asked deadline byShutdown →
    s.now < deadline ∧ deadline ≤ s.now + s.options.limit
  asked : s.closing.isSome = true → s.quit ≠ .never

theorem Timely.askToQuit (h : ∀ {deadline byShutdown}, s.quit = .asked deadline byShutdown →
      s.now < deadline ∧ deadline ≤ s.now + s.options.limit) (byShutdown : Bool) :
    (s.askToQuit byShutdown).Timely := by
  have hpos := s.options.limit_pos
  by_cases hquit : s.quit = .never
  · rw [askToQuit_never hquit]
    refine ⟨?_, by simp [emit]⟩
    intro deadline by' hasked
    obtain ⟨rfl, -⟩ := Quit.asked.inj hasked
    exact ⟨Nat.lt_add_of_pos_right hpos, Nat.le_refl _⟩
  · rw [askToQuit_of_ne hquit]
    exact ⟨h, fun _ => hquit⟩

/-- **What a move at one time does to the quit.** -/
theorem Timely.move (h : s.Timely) (hmove : s.Move s') (hnow : s'.now = s.now) : s'.Timely := by
  cases hmove with
  | @begins r rest =>
      have hbegins := start_begins { s with queue := rest } r
      generalize { s with queue := rest }.start r = s' at hbegins
      cases hbegins with
      | atOnce | asks | quiet => exact ⟨h.pending, h.asked⟩
      | waits =>
          obtain ⟨hpending, hasked⟩ :=
            Timely.askToQuit (s := { s with queue := rest, shuttingDown := true }) h.pending true
          exact ⟨hpending, hasked⟩
  | @concludes t answer =>
      obtain ⟨store, ms, hconclude⟩ := conclude_tells { s with task := none } t answer
      rw [hconclude]
      exact ⟨h.pending, h.asked⟩
  | quits => exact ⟨by simp, by simp⟩
  | closes why => exact Timely.askToQuit (s := { s with closing := some why }) h.pending false
  | finishes => exact ⟨h.pending, h.asked⟩
  | exits id =>
      rw [reply_eq_tells]
      exact ⟨h.pending, h.asked⟩
  | cancels | deafens => exact ⟨h.pending, h.asked⟩
  | passes time =>
      have hzero : time = 0 := by simpa using hnow
      subst hzero
      exact h

/-- **A punctual server**, between events: with the quit and the stream over it is done. -/
structure Punctual (s : Server) : Prop extends Timely s where
  finished : s.closing.isSome = true → s.quit = .finished → s.done = true

theorem finish_quit (s : Server) : s.finish.quit = s.quit := by
  unfold finish
  split <;> rfl

theorem finish_over (s : Server) (hclosing : s.finish.closing.isSome = true)
    (hquit : s.finish.quit = .finished) : s.finish.done = true := by
  rw [finish_closing] at hclosing
  rw [finish_quit] at hquit
  cases hdone : s.done <;> simp [finish, hclosing, hquit, hdone, emit]

theorem Begins.quit_finished {r : Request} (h : s.Begins r s') :
    s'.quit = .finished ↔ s.quit = .finished := by
  cases h with
  | atOnce | asks | quiet => exact .rfl
  | waits => exact askToQuit_finished { s with shuttingDown := true } true

/-- To work off the queue does not make the quit over. -/
theorem goOn_quit_finished (s : Server) : s.goOn.quit = .finished ↔ s.quit = .finished := by
  refine goOn_induction (P := fun s' => s'.quit = .finished ↔ s.quit = .finished) ?_ .rfl
  intro s' r rest h _ _
  exact (start_begins { s' with queue := rest } r).quit_finished.trans h

theorem answered_quit_finished (s : Server) (answer : Except Repl.Failure Bytes) :
    (s.answered answer).quit = .finished ↔ s.quit = .finished := by
  have hconclude (t : Task) :
      ({ s with task := none }.conclude t answer).goOn.quit = .finished ↔ s.quit = .finished := by
    obtain ⟨store, ms, hconclude⟩ := conclude_tells { s with task := none } t answer
    rw [goOn_quit_finished, hconclude]
    rfl
  unfold answered
  split
  · exact hconclude _
  · exact hconclude _
  · exact .rfl

theorem quitOver_quit (s : Server) : s.quitOver.quit = .finished := by
  unfold quitOver
  dsimp only
  split
  · rw [goOn_quit_finished, reply_eq_tells]
    rfl
  · rfl

/-- With the quit and the stream over after an event, the server is done. -/
theorem step_over (h : s.Idle)
    (hover : s.closing.isSome = true → s.quit = .finished → s.done = true) (e : Event)
    (hclosing : (s.step e).closing.isSome = true) (hquit : (s.step e).quit = .finished) :
    (s.step e).done = true := by
  cases e with
  | request r =>
      -- A request changes something only while the stream is not over.
      rw [step_closing h] at hclosing
      have hclosed : s.closing.isSome = true := by simpa [Event.closing?] using hclosing
      rw [step_request, if_pos hclosed] at hquit ⊢
      exact hover hclosed hquit
  | garbage | ended =>
      simp only [step, close] at hclosing hquit ⊢
      split at hclosing
      · rw [if_pos ‹_›] at hquit ⊢
        exact hover hclosing hquit
      · rw [if_neg ‹_›] at hquit ⊢
        exact finish_over _ hclosing hquit
  | canceled => exact finish_over _ hclosing hquit
  | writesBroken => exact hover hclosing hquit
  | answered answer =>
      have hsame := untouched_answered s answer
      refine hsame.done.trans (hover ?_ ((answered_quit_finished s answer).1 hquit))
      exact hsame.closing ▸ hclosing
  | hasQuit =>
      cases hbefore : s.quit with
      | asked =>
          simp only [step, hbefore] at hclosing hquit ⊢
          exact finish_over _ hclosing hquit
      | never | finished =>
          have hsame : s.step .hasQuit = s := by simp only [step, hbefore]
          rw [hsame] at hclosing hquit ⊢
          exact hover hclosing hquit
  | pass time =>
      cases hbefore : s.quit with
      | asked deadline =>
          simp only [step, pass, hbefore] at hclosing hquit ⊢
          split at hclosing
          · rw [if_pos ‹_›] at hquit ⊢
            exact finish_over _ hclosing hquit
          · rw [if_neg ‹_›] at hquit
            cases hquit
      | never | finished =>
          have hsame : s.step (.pass time) = { s with now := s.now + time } := by
            simp only [step, pass, hbefore]
          rw [hsame] at hclosing hquit ⊢
          exact hover hclosing hquit

/-- Time passes, up to the time at which the quit is over or beyond. -/
theorem Timely.pass (h : s.Timely) (time : Nat) : (s.pass time).Timely := by
  unfold Server.pass
  dsimp only
  split
  · rename_i deadline byShutdown hquit
    obtain ⟨hafter, hnear⟩ := h.pending hquit
    split
    · have hfinished :=
        (finish_quit { s with now := s.now + time }.quitOver).trans (quitOver_quit _)
      exact ⟨by simp [hfinished], by simp [hfinished]⟩
    · refine ⟨?_, h.asked⟩
      intro deadline' byShutdown' hasked
      obtain ⟨rfl, -⟩ := Quit.asked.inj (hquit.symm.trans hasked)
      dsimp only at *
      omega
  · rename_i hquit
    refine ⟨?_, h.asked⟩
    intro deadline byShutdown hasked
    exact absurd hasked (hquit deadline byShutdown)

/-- **An event leaves a server punctual.** -/
theorem Punctual.step (h : s.Punctual) (hidle : s.Idle) (e : Event) : (s.step e).Punctual := by
  refine ⟨?_, step_over hidle h.finished e⟩
  by_cases hpass : e.time = 0
  · have harrived : (s.arrive e).Timely := by
      unfold arrive
      split
      · split <;> exact ⟨h.pending, h.asked⟩
      · exact h.toTimely
    refine Moves.still (step_moves hidle e) ?_ (fun _ _ hmove hnow hs => hs.move hmove hnow)
      harrived
    rw [step_now hidle, hpass]
    unfold arrive
    split
    · split <;> rfl
    · rfl
  · cases e with
    | pass time => exact h.toTimely.pass time
    | _ => exact absurd rfl hpass

/-! ### The outcome -/

/-- **How a server says that it is done**: once, when the stream is over, and well if the editor had
asked for the end or the stream just ended. -/
structure Told (s : Server) : Prop where
  before : s.done = false → s.log.filterMap Effect.outcome? = []
  after : s.done = true → s.closing.isSome = true ∧
    ∃ failed, s.log.filterMap Effect.outcome? = [failed] ∧
      (s.exited = true ∨ s.closing = some .ended → failed = false)

theorem Told.untouched (h : s.Told) (hsame : s.Untouched s')
    (hlog : s'.log.filterMap Effect.outcome? = s.log.filterMap Effect.outcome?) : s'.Told := by
  refine ⟨?_, ?_⟩
  · rw [hsame.done, hlog]
    exact h.before
  · rw [hsame.done, hlog, hsame.closing, hsame.exited]
    exact h.after

theorem tells_outcome (s : Server) (ms : List Outgoing) :
    (s.tells ms).log.filterMap Effect.outcome? = s.log.filterMap Effect.outcome? := by
  have hnone : (ms.map Effect.sent).filterMap Effect.outcome? = [] := by
    simp [List.filterMap_eq_nil_iff, Effect.outcome?]
  simp only [tells, List.filterMap_append]
  split
  · rw [hnone, List.append_nil]
  · rw [List.filterMap_nil, List.append_nil]

theorem askToQuit_outcome (s : Server) (byShutdown : Bool) :
    (s.askToQuit byShutdown).log.filterMap Effect.outcome? =
      s.log.filterMap Effect.outcome? := by
  by_cases hquit : s.quit = .never
  · rw [askToQuit_never hquit]
    simp [emit, Effect.outcome?]
  · rw [askToQuit_of_ne hquit]

theorem Begins.outcome {r : Request} (h : s.Begins r s') :
    s'.log.filterMap Effect.outcome? = s.log.filterMap Effect.outcome? := by
  cases h with
  | atOnce | quiet => exact tells_outcome _ _
  | asks => simp [emit, Effect.outcome?]
  | waits => exact askToQuit_outcome _ _

/-- **What a move does to the outcome.** -/
theorem Told.move (h : s.Told) (hmove : s.Move s') : s'.Told := by
  cases hmove with
  | @begins r rest =>
      have hbegins := start_begins { s with queue := rest } r
      have hsame : Told { s with queue := rest } := ⟨h.before, h.after⟩
      exact hsame.untouched hbegins.untouched hbegins.outcome
  | @concludes t answer =>
      obtain ⟨store, ms, hconclude⟩ := conclude_tells { s with task := none } t answer
      rw [hconclude]
      exact h.untouched ⟨rfl, rfl, rfl, rfl, rfl, rfl, rfl⟩ (tells_outcome _ _)
  | quits | deafens | passes => exact ⟨h.before, h.after⟩
  | closes why hopen =>
      -- A server is not done while its stream is not over.
      have hsame : Told { s with closing := some why } := by
        refine ⟨h.before, ?_⟩
        intro hdone
        have hclosed := (h.after hdone).1
        simp [hopen] at hclosed
      exact hsame.untouched (untouched_askToQuit _ _) (askToQuit_outcome _ _)
  | @finishes why hclosing hquit hdone =>
      refine ⟨by simp [emit], fun _ => ⟨by simp [emit, hclosing], s.failure?.isSome, ?_, ?_⟩⟩
      · simp [emit, h.before hdone, Effect.outcome?]
      · intro hwell
        unfold failure?
        rcases hwell with hexited | hended
        · split <;> simp [show s.exited = true from hexited]
        · simp [show s.closing = some .ended from hended]
  | exits id hopen =>
      rw [reply_eq_tells]
      have hsame : Told { s with exited := true } := by
        refine ⟨h.before, ?_⟩
        intro hdone
        have hclosed := (h.after hdone).1
        simp [hopen] at hclosed
      exact hsame.untouched ⟨rfl, rfl, rfl, rfl, rfl, rfl, rfl⟩ (tells_outcome _ _)
  | cancels => exact ⟨h.before, h.after⟩

theorem Told.step (h : s.Told) (hidle : s.Idle) (e : Event) : (s.step e).Told := by
  have harrived : (s.arrive e).Told := by
    unfold arrive
    split
    · split <;> exact ⟨h.before, h.after⟩
    · exact h
  have hmoves := step_moves hidle e
  generalize s.step e = after at hmoves
  induction hmoves with
  | refl => exact harrived
  | tail _ hlast ih => exact ih.move hlast

end Server

end ReplBridge.Editor
