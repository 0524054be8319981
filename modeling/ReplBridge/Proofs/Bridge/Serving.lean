import ReplBridge.Bridge.Serving
import ReplBridge.Proofs.Editor.Connection

/-!
**Serving with a dialog is a connection.**

What holds of every connection holds of a server whose questions are asked in a dialog: its events
are handed over as soon as they are read, each followed by the answers that it leads to, and no time
passes for the server.

Main results:

* `Serving.step_run`, `Serving.feed_run`, `Serving.finish_run` — one event, one portion, and the end
  of what the editor sends are lists of happenings;
* `Serving.exists_run` — **serving an editor to its end is a connection**.
-/

set_option autoImplicit false

namespace ReplBridge.Bridge.Serving

open Editor (Connection Happening Event)

variable {σ : Type}

/-! ### One event -/

/-- What is passed on to the compiler comes back as answers. -/
theorem passOn_run (host : Host σ) (fuel : Nat) (s : Serving σ) :
    ∃ hs, ∀ c : Connection, c.server = s.server →
      c.run hs = { c with server := (passOn host fuel s).server } := by
  induction fuel generalizing s with
  | zero =>
      refine ⟨[], ?_⟩
      intro c hc
      simp [Connection.run, passOn, ← hc]
  | succ fuel ih =>
      unfold passOn
      split
      · refine ⟨[], ?_⟩
        intro c hc
        simp [Connection.run, ← hc]
      · rename_i command _
        obtain ⟨hs, hrun⟩ := ih { s with
          dialog := (s.dialog.execute host command).2, passed := s.passed + 1
          server := s.server.step (.answered (s.dialog.execute host command).1) }
        refine ⟨.answered (s.dialog.execute host command).1 :: hs, ?_⟩
        intro c hc
        exact hrun (c.tell (.answered (s.dialog.execute host command).1)) (by rw [← hc]; rfl)
      · obtain ⟨hs, hrun⟩ := ih { s with
          dialog := (s.dialog.quit host Analysis.quitCommand s.server.options.limit).2
          passed := s.passed + 1, server := s.server.step .hasQuit }
        refine ⟨.hasQuit :: hs, ?_⟩
        intro c hc
        exact hrun (c.tell .hasQuit) (by rw [← hc]; rfl)

/-- An event that was read is handed to the server, with all that follows from it. -/
theorem step_run (host : Host σ) (s : Serving σ) (e : Event) :
    ∃ hs, ∀ (c : Connection) (rest : List Event), c.server = s.server → c.ahead = e :: rest →
      c.run hs = { c with
        server := (step host s e).server, past := c.past ++ [e], ahead := rest } := by
  obtain ⟨hs, hrun⟩ := passOn_run host ((s.server.step e).queue.length + 3)
    { s with server := s.server.step e }
  refine ⟨.reads :: hs, ?_⟩
  intro c rest hc hahead
  have hreads : c.step .reads =
      { c with server := s.server.step e, past := c.past ++ [e], ahead := rest } := by
    simp [Connection.step, Connection.next, hahead, hc]
  show (c.step .reads).run hs = _
  rw [hreads]
  exact hrun _ rfl

/-! ### What the editor sends -/

theorem foldl_run (host : Host σ) (s : Serving σ) (events : List Event) :
    ∃ hs, ∀ c : Connection, c.server = s.server → c.ahead = events →
      c.run hs = { c with
        server := (events.foldl (step host) s).server, past := c.past ++ events, ahead := [] } := by
  induction events generalizing s with
  | nil =>
      refine ⟨[], ?_⟩
      intro c hc hahead
      cases c
      cases hc
      cases hahead
      simp [Connection.run]
  | cons e events ih =>
      obtain ⟨first, hfirst⟩ := step_run host s e
      obtain ⟨hs, hrun⟩ := ih (step host s e)
      refine ⟨first ++ hs, ?_⟩
      intro c hc hahead
      rw [Connection.run_append, hfirst c events hc hahead, hrun _ rfl rfl]
      simp

theorem passOn_intake (host : Host σ) (fuel : Nat) (s : Serving σ) :
    (passOn host fuel s).intake = s.intake := by
  induction fuel generalizing s with
  | zero => rfl
  | succ fuel ih =>
      unfold passOn
      split
      · rfl
      · exact ih _
      · exact ih _

theorem foldl_intake (host : Host σ) (s : Serving σ) (events : List Event) :
    (events.foldl (step host) s).intake = s.intake := by
  induction events generalizing s with
  | nil => rfl
  | cons e events ih =>
      rw [List.foldl_cons, ih]
      exact passOn_intake host _ _

/-- A connection that has come as far as a serving, with nothing to hand over. -/
structure Meets (c : Connection) (s : Serving σ) : Prop where
  server : c.server = s.server
  intake : c.intake = s.intake
  ahead : c.ahead = []

/-- **A portion of bytes** arrives, and its events are handed over. -/
theorem feed_run (host : Host σ) (s : Serving σ) (bytes : Bytes) :
    ∃ hs, ∀ c : Connection, Meets c s → Meets (c.run hs) (s.feed host bytes) := by
  obtain ⟨hs, hrun⟩ := foldl_run host { s with intake := (s.intake.feed bytes).2 }
    (s.intake.feed bytes).1
  refine ⟨.arrives bytes :: hs, ?_⟩
  intro c h
  have harrives : c.step (.arrives bytes) = { c with
      intake := (s.intake.feed bytes).2, ahead := (s.intake.feed bytes).1 } := by
    simp [Connection.step, h.ahead, h.intake]
  show Meets ((c.step (.arrives bytes)).run hs) _
  have hall := hrun { c with
    intake := (s.intake.feed bytes).2, ahead := (s.intake.feed bytes).1 } h.server rfl
  rw [harrives, hall]
  exact ⟨rfl, (foldl_intake host { s with intake := (s.intake.feed bytes).2 } _).symm, rfl⟩

/-- A stream that is over does not end again. -/
theorem step_finish_of_closed {s : Editor.Server} (h : s.closing.isSome = true)
    (i : Editor.Intake) : s.step i.finish = s := by
  unfold Editor.Intake.finish
  split
  · exact if_pos h
  · exact if_pos h

/-- **The bytes are over.** -/
theorem finish_run (host : Host σ) {s : Serving σ} {c : Connection} (hsound : c.Sound)
    (h : Meets c s) : ∃ hs, (c.run hs).server = (s.finish host).server := by
  cases hstopped : c.intake.stopped with
  | false =>
      obtain ⟨hs, hrun⟩ := step_run host s s.intake.finish
      have hended : c.step .ended = { c with
          intake := c.intake.stop, ahead := [s.intake.finish] } := by
        simp [Connection.step, hstopped, h.ahead, ← h.intake]
      have hlast := hrun { c with
        intake := c.intake.stop, ahead := [s.intake.finish] } [] h.server rfl
      refine ⟨.ended :: hs, ?_⟩
      show ((c.step .ended).run hs).server = _
      rw [hended, hlast]
      rfl
  | true =>
      -- The stream was over with the event that ended the reading; only answers are left.
      have hclosing : s.server.closing.isSome = true := by
        rcases hsound.ending_of_stopped hstopped with hclosing | ⟨e, he, -⟩
        · rwa [← h.server]
        · rw [h.ahead] at he
          cases he
      have hsame := step_finish_of_closed hclosing s.intake
      obtain ⟨hs, hrun⟩ := passOn_run host (s.server.queue.length + 3) s
      refine ⟨hs, ?_⟩
      rw [hrun c h.server]
      simp [finish, step, hsame]

/-- **Serving an editor to its end is a connection.** -/
theorem exists_run (host : Host σ) (options : Editor.Options) (dialog : Dialog σ)
    (portions : List Bytes) :
    ∃ hs, (Connection.run { server := { options } } hs).server =
      ((portions.foldl (feed host) { server := { options }, dialog }).finish host).server := by
  have hfeed (s : Serving σ) : ∃ hs, ∀ c : Connection, Meets c s →
      Meets (c.run hs) (portions.foldl (feed host) s) := by
    induction portions generalizing s with
    | nil => exact ⟨[], fun c h => h⟩
    | cons bytes portions ih =>
        obtain ⟨first, hfirst⟩ := feed_run host s bytes
        obtain ⟨hs, hrun⟩ := ih (s.feed host bytes)
        refine ⟨first ++ hs, ?_⟩
        intro c h
        rw [Connection.run_append]
        exact hrun _ (hfirst c h)
  obtain ⟨hs, hrun⟩ := hfeed { server := { options }, dialog }
  have hmeets := hrun { server := { options } } ⟨rfl, rfl, rfl⟩
  obtain ⟨last, hlast⟩ := finish_run host (Connection.sound_run options hs).1 hmeets
  refine ⟨hs ++ last, ?_⟩
  rw [Connection.run_append, hlast]

end ReplBridge.Bridge.Serving
