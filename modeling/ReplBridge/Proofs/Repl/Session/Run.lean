import ReplBridge.Proofs.Repl.Session.Settle

/-!
**Runs are plays that come to rest.**

A run answers each event with everything that follows from it by itself, in an order of its own.  It
is one play among many, so what holds of every play holds of every run; and it is at rest after each
event.

Main definitions:

* `Session.outputs` — the portions of standard output that come up in a run.

Main results:

* `Session.exists_play_of_run` — **every run is a play**, with the same output;
* `Session.quiet_run` — **every run comes to rest**.
-/

set_option autoImplicit false

namespace ReplBridge.Repl.Session

variable {acts : List Act} {time : Nat}

variable {s s' : Session} {l : Label}

/-! ### Moves are acts -/

/-- Nothing comes from outside in these acts. -/
def Internal (acts : List Act) : Prop := ∀ a ∈ acts, ∀ e, a ≠ .event e

/-- Nothing comes from outside in these acts but the passing of time. -/
def Idle (acts : List Act) : Prop := ∀ a ∈ acts, ∀ e, a = .event e → ∃ time, e = .pass time

theorem Internal.idle (h : Internal acts) : Idle acts :=
  fun a ha e he => absurd he (h a ha e)

theorem Internal.append {acts more : List Act} (h : Internal acts) (h' : Internal more) :
    Internal (acts ++ more) :=
  fun a ha => (List.mem_append.1 ha).elim (h a) (h' a)

theorem Idle.append {acts more : List Act} (h : Idle acts) (h' : Idle more) : Idle (acts ++ more) :=
  fun a ha => (List.mem_append.1 ha).elim (h a) (h' a)

theorem printed_idle (h : Idle acts) (s : Session) : s.printed acts = [] := by
  induction acts generalizing s with
  | nil => rfl
  | cons a acts ih =>
      have hreads : s.reads a = [] := by
        cases a with
        | event e =>
            obtain ⟨time, rfl⟩ := h (.event e) (by simp) e rfl
            rfl
        | _ => rfl
      rw [printed_cons, hreads, ih fun b hb => h b (by simp [hb])]
      rfl

/-- Only the passing of time moves the clock. -/
theorem Change.now (h : s.Change l s') (hl : l ≠ .ticked) : s'.now = s.now := by
  cases h with
  | ticked => exact absurd rfl hl
  | _ => rfl

theorem Calm.now (h : s.Calm s') : s'.now = s.now := by
  induction h with
  | refl => rfl
  | tail _ hc ih => rw [hc.now (by simp), ih]

/-- Whoever acts, the clock stands still. -/
theorem perform_now (ht : s.Tidy) {a : Act} (ha : ∀ time, a ≠ .event (.pass time)) :
    (s.perform a).now = s.now := by
  rcases perform_cases ht a with ⟨hcalm, -⟩ | ⟨chunks, hc, -⟩ | ⟨time, rfl⟩ | ⟨-, hc⟩ |
    ⟨-, call, deadline, s₁, s₂, -, -, hbefore, hc, hafter⟩
  · exact hcalm.now
  · exact hc.now (by simp)
  · exact absurd rfl (ha time)
  · exact hc.now (by simp)
  · rw [hafter.now, hc.now (by simp), hbefore.now]

theorem now_internal (h : Internal acts) (ht : s.Tidy) : (s.play acts).now = s.now := by
  induction acts generalizing s with
  | nil => rfl
  | cons a acts ih =>
      have hnow := perform_now ht fun time => h a (by simp) (.pass time)
      rw [play_cons, ih (fun b hb => h b (by simp [hb])) (tidy_perform ht a), hnow]

/-- **A move is an act of one of the parties**, or the end is announced. -/
theorem move_party (h : s.move? = some s') :
    ∃ a, (a = .announce ∨ a = .worker ∨ a = .pump ∨ a = .complaints ∨ ∃ i, a = .client i) ∧
      s' = s.perform a := by
  rcases move?_cases h with hmove | hmove | hmove | hmove | ⟨i, c, t, c', hc, hstep, rfl⟩
  · exact ⟨.announce, .inl rfl, by simp [perform, hmove]⟩
  · exact ⟨.worker, .inr (.inl rfl), by simp [perform, hmove]⟩
  · exact ⟨.pump, .inr (.inr (.inl rfl)), by simp [perform, hmove]⟩
  · exact ⟨.complaints, .inr (.inr (.inr (.inl rfl))), by simp [perform, hmove]⟩
  · exact ⟨.client i, .inr (.inr (.inr (.inr ⟨i, rfl⟩))), by simp [perform, clientAct, hc, hstep]⟩

theorem move_act (h : s.move? = some s') : ∃ a, (∀ e, a ≠ .event e) ∧ s' = s.perform a := by
  obtain ⟨a, hparty, heq⟩ := move_party h
  refine ⟨a, ?_, heq⟩
  rcases hparty with rfl | rfl | rfl | rfl | ⟨i, rfl⟩ <;> simp

theorem settleWithin_play (fuel : Nat) (s : Session) :
    ∃ acts, Internal acts ∧ settleWithin fuel s = s.play acts := by
  induction fuel generalizing s with
  | zero => exact ⟨[], by simp [Internal], rfl⟩
  | succ fuel ih =>
      cases hmove : s.move? with
      | none => exact ⟨[], by simp [Internal], by simp [settleWithin, hmove]⟩
      | some s' =>
          obtain ⟨a, ha, rfl⟩ := move_act hmove
          obtain ⟨acts, hacts, heq⟩ := ih (s.perform a)
          refine ⟨a :: acts, ?_, by simp [settleWithin, hmove, heq]⟩
          intro b hb
          rcases List.mem_cons.1 hb with rfl | hb
          · exact ha
          · exact hacts b hb

/-! ### Time passes in acts -/

/-- The first client whose time is up acts in its place. -/
theorem expireFrom?_act {before rest : List Client} (h : s.expireFrom? time before rest = some s')
    (hclients : s.clients = before.reverse ++ rest) (hnow : time ≤ s.now) :
    ∃ i c, s.clients[i]? = some c ∧ c.deadline? = some time ∧ s' = s.clientTimerAct i := by
  induction rest generalizing before with
  | nil => simp [expireFrom?] at h
  | cons c rest ih =>
      by_cases hdue : c.deadline? = some time
      · simp only [expireFrom?, hdue, beq_self_eq_true, if_true, Option.some.injEq] at h
        have hc : s.clients[before.length]? = some c := by simp [hclients]
        refine ⟨before.length, c, hc, hdue, ?_⟩
        simp only [clientTimerAct, hc, hdue, hnow, if_true, ← h]
        rw [hclients, List.set_append_right _ _ (by simp)]
        simp
      · simp only [expireFrom?, beq_iff_eq, hdue, if_false] at h
        exact ih h (by simp [hclients])

/-- Nobody acts only if nobody's time is up. -/
theorem expireFrom?_none {before rest : List Client} (h : s.expireFrom? time before rest = none) :
    ∀ c ∈ rest, c.deadline? ≠ some time := by
  induction rest generalizing before with
  | nil => simp
  | cons c rest ih =>
      by_cases hdue : c.deadline? = some time
      · simp [expireFrom?, hdue] at h
      · simp only [expireFrom?, beq_iff_eq, hdue, if_false] at h
        simpa [hdue] using ih h

/-- **Whoever's time is up acts**: the worker, or a client, or nobody if it is nobody's time. -/
theorem expireAt_cases (hnow : time ≤ s.now) :
    (∃ call, s.worker = .awaiting call (some time) ∧ s.expireAt time = s.perform .timer) ∨
      (∃ i c, s.clients[i]? = some c ∧ c.deadline? = some time ∧
        s.expireAt time = s.perform (.clientTimer i)) ∨
      s.worker.deadline? ≠ some time ∧ (∀ c ∈ s.clients, c.deadline? ≠ some time) ∧
        s.expireAt time = s := by
  have hclients (hworker : s.worker.deadline? ≠ some time)
      (heq : s.expireAt time = (s.expireFrom? time [] s.clients).getD s) :
      (∃ i c, s.clients[i]? = some c ∧ c.deadline? = some time ∧
        s.expireAt time = s.perform (.clientTimer i)) ∨
      s.worker.deadline? ≠ some time ∧ (∀ c ∈ s.clients, c.deadline? ≠ some time) ∧
        s.expireAt time = s := by
    cases hexpire : s.expireFrom? time [] s.clients with
    | none => exact .inr ⟨hworker, expireFrom?_none hexpire, by simp [heq, hexpire]⟩
    | some s' =>
        obtain ⟨i, c, hc, hdue, hs'⟩ := expireFrom?_act hexpire rfl hnow
        exact .inl ⟨i, c, hc, hdue, by simp [heq, hexpire, hs', perform]⟩
  cases hworker : s.worker with
  | awaiting call deadline =>
      by_cases hdue : deadline = some time
      · subst hdue
        exact .inl ⟨call, rfl, by simp [expireAt, perform, timerAct, hworker, hnow]⟩
      · exact .inr (hworker ▸ hclients (by simpa [hworker, Worker.deadline?] using hdue)
          (by simp [expireAt, hworker, hdue]))
  | off | greeting | idle =>
      exact .inr (hworker ▸ hclients (by simp [hworker, Worker.deadline?])
        (by simp [expireAt, hworker]))

theorem expireAt_play (hnow : time ≤ s.now) :
    ∃ acts, Internal acts ∧ s.expireAt time = s.play acts := by
  rcases expireAt_cases hnow with ⟨call, -, heq⟩ | ⟨i, c, -, -, heq⟩ | ⟨-, -, heq⟩
  · exact ⟨[.timer], by simp [Internal], heq⟩
  · exact ⟨[.clientTimer i], by simp [Internal], heq⟩
  · exact ⟨[], by simp [Internal], heq⟩

/-- The clock is moved to a later time. -/
theorem set_now_play (h : s.now ≤ time) :
    { s with now := time } = s.play [.event (.pass (time - s.now))] := by
  simp [perform, Nat.add_sub_cancel' h]

/-- The clock moves to a deadline, someone acts on it, and all settles. -/
theorem reach_deadline_play (ht : s.Tidy) (time : Nat) :
    ∃ acts, Idle acts ∧ ({ s with now := max s.now time }.expireAt time).settle = s.play acts ∧
      (s.play acts).now = max s.now time := by
  have hwait := set_now_play (Nat.le_max_left s.now time)
  obtain ⟨expire, hexpire, hexpired⟩ :=
    expireAt_play (s := { s with now := max s.now time }) (Nat.le_max_right s.now time)
  rw [hwait] at hexpired
  have ht₁ := tidy_play ht [.event (.pass (max s.now time - s.now))]
  have ht₂ := tidy_play ht₁ expire
  obtain ⟨settle, hsettle, hsettled⟩ := settleWithin_play _ _
  refine ⟨[.event (.pass (max s.now time - s.now))] ++ (expire ++ settle), ?_, ?_, ?_⟩
  · have hpass : Idle [.event (.pass (max s.now time - s.now))] := by simp [Idle]
    exact hpass.append (hexpire.append hsettle).idle
  · rw [Session.settle, hwait, hexpired, hsettled, play_append s, play_append]
  · have hnow : (s.play [.event (.pass (max s.now time - s.now))]).now = max s.now time := by
      rw [← hwait]
    rw [play_append s, play_append, now_internal hsettle ht₂, now_internal hexpire ht₁, hnow]

theorem advanceWithin_play (fuel target : Nat) (ht : s.Tidy) (h : s.now ≤ target) :
    ∃ acts, Idle acts ∧ advanceWithin fuel target s = s.play acts := by
  have hpass (s : Session) (hs : s.now ≤ target) :
      ∃ acts, Idle acts ∧ { s with now := target } = s.play acts :=
    ⟨_, by simp [Idle], set_now_play hs⟩
  induction fuel generalizing s with
  | zero => exact hpass s h
  | succ fuel ih =>
      unfold advanceWithin
      split
      · rename_i time hnext
        split
        · rename_i hle
          obtain ⟨acts, hacts, hreached, hnow⟩ := reach_deadline_play ht time
          obtain ⟨rest, hrest, heq⟩ :=
            ih (tidy_play ht acts) (hnow ▸ Nat.max_le.2 ⟨h, hle⟩)
          exact ⟨acts ++ rest, hacts.append hrest, by rw [hreached, heq, play_append]⟩
        · exact hpass s h
      · exact hpass s h

/-! ### Runs are plays -/

/-- **The portions of standard output that come up in a run**, read or not. -/
def outputs (s : Session) : List Event → List Bytes
  | [] => []
  | e :: events => s.reads (.event e) ++ (s.step e).outputs events

/-- What an event does at once is an act, unless time passes. -/
theorem perform_event {e : Event} (h : ∀ time, e ≠ .pass time) (s : Session) :
    s.perform (.event e) = s.apply e := by
  cases e with
  | pass time => exact absurd rfl (h time)
  | _ => rfl

theorem apply_play (ht : s.Tidy) (e : Event) :
    ∃ acts, s.apply e = s.play acts ∧ s.printed acts = s.reads (.event e) := by
  by_cases hpass : ∃ time, e = .pass time
  · obtain ⟨time, rfl⟩ := hpass
    obtain ⟨acts, hacts, heq⟩ :=
      advanceWithin_play s.deadlines (s.now + time) ht (Nat.le_add_right _ _)
    exact ⟨acts, heq, printed_idle hacts s⟩
  · have hperform := perform_event (fun time heq => hpass ⟨time, heq⟩) s
    exact ⟨[.event e], by simp [hperform], by simp⟩

/-- What follows from an event, unless time passes, is a play of the parties. -/
theorem step_internal {e : Event} (h : ∀ time, e ≠ .pass time) (s : Session) :
    ∃ after, Internal after ∧ s.step e = (s.perform (.event e)).play after := by
  rw [perform_event h]
  exact settleWithin_play (s.apply e).work (s.apply e)

theorem step_play (ht : s.Tidy) (e : Event) :
    ∃ acts, s.step e = s.play acts ∧ s.printed acts = s.reads (.event e) := by
  obtain ⟨acts, happly, hprinted⟩ := apply_play ht e
  obtain ⟨settle, hsettle, hsettled⟩ := settleWithin_play (s.apply e).work (s.apply e)
  refine ⟨acts ++ settle, ?_, ?_⟩
  · rw [step, Session.settle, hsettled, happly, play_append]
  · rw [printed_append, hprinted, printed_idle hsettle.idle, List.append_nil]

/-- **Every run is a play**, with the same output. -/
theorem exists_play_of_run (ht : s.Tidy) (events : List Event) :
    ∃ acts, s.run events = s.play acts ∧ s.printed acts = s.outputs events := by
  induction events generalizing s with
  | nil => exact ⟨[], rfl, rfl⟩
  | cons e events ih =>
      obtain ⟨acts, hstep, hprinted⟩ := step_play ht e
      obtain ⟨rest, hrun, hrest⟩ := ih (hstep ▸ tidy_play ht acts)
      refine ⟨acts ++ rest, ?_, ?_⟩
      · rw [play_append, ← hstep]
        exact hrun
      · rw [printed_append, hprinted, ← hstep, hrest]
        rfl

theorem run_append (s : Session) (xs ys : List Event) : s.run (xs ++ ys) = (s.run xs).run ys :=
  List.foldl_append

/-- A run that begins at rest comes to rest. -/
theorem quiet_run_of_quiet (h : s.move? = none) (events : List Event) :
    (s.run events).move? = none := by
  induction events generalizing s with
  | nil => exact h
  | cons e events ih => exact ih (quiet_settle (s.apply e))

/-- **Every run comes to rest.** -/
theorem quiet_run (options : Options) (events : List Event) :
    ((new options).run events).move? = none :=
  quiet_run_of_quiet rfl events

end ReplBridge.Repl.Session
