import Mathlib.Logic.Relation
import ReplBridge.Proofs.Repl.Session.Completion
import ReplBridge.Repl.Phase
import ReplBridge.Repl.Session.View

/-!
**Whoever watches a session learns where it stands.**

A session goes through its phases in one direction, and its end is announced for good.  The news of
each phase is told to whoever watches.  Entering a phase and telling of it are two steps, and between them the session may go on:
it may be over before anybody was told that it was ready.  So news is told one piece at a time, and
a piece is dropped if it no longer holds when its turn comes.  The turns may come in any order.

A *watch* is a session with the news that is on its way, the piece that is being told and what was
told before.  For every order of steps, what is told rises from phase to phase, and when no news is
left the last of it is the state of the session.

The log of a session shows the watch in which all news is told at once.

Main definitions:

* `Repl.Watch`, `Repl.Watch.Next` — watched sessions, and **the steps they take in any order**;
* `Repl.Watch.prompt` — the watch in which all news is told at once;
* `Repl.Watch.Fair` — the invariant.

Main results:

* `Session.Change.states_cases` — **a session enters phases in one direction**;
* `Session.done_iff_of_quiet` — **at rest, the end was announced just when it has come**;
* `Repl.Watch.Fair.next`, `Repl.Watch.fair_of_reaches` — every order of steps is fair;
* `Repl.Watch.Fair.onward` — nothing is taken back;
* `Repl.Watch.prompt_play` — every play is watched;
* `Repl.Watch.Fair.last`, `Repl.Watch.Fair.ended` — what was told when no news is left.
-/

set_option autoImplicit false

namespace ReplBridge.Repl

/-! ### States in a log -/

@[simp] theorem states_nil : states [] = [] := rfl

@[simp] theorem states_append (log more : List Effect) :
    states (log ++ more) = states log ++ states more := by
  simp [states]

@[simp] theorem states_cons_became (state : State) (log : List Effect) :
    states (.became state :: log) = state :: states log := rfl

@[simp] theorem states_cons_recorded (direction : Direction) (seq : Nat) (text : Bytes)
    (log : List Effect) : states (.recorded direction seq text :: log) = states log := rfl

@[simp] theorem states_cons_wrote (seq : Nat) (line : Bytes) (log : List Effect) :
    states (.wrote seq line :: log) = states log := rfl

@[simp] theorem states_complained (lines : List Bytes) : states (lines.map .complained) = [] := by
  induction lines with
  | nil => rfl
  | cons line lines ih => exact ih

/-! ### Phases in one direction -/

/-- How far a session has come. -/
def State.rank (state : State) : Nat := state.phase.number

theorem State.rank_eq_of_phase {state state' : State} (h : state.phase = state'.phase) :
    state.rank = state'.rank :=
  congrArg Phase.number h

/-- Nothing comes after the end. -/
theorem State.rank_le_terminated (state : State) (r : Failure) :
    state.rank ≤ State.rank (.terminated r) := by
  cases state <;> simp [State.rank, State.phase, Phase.number]

namespace Session

variable {s s' : Session} {l : Label}

theorem reason?_isSome_iff (s : Session) :
    s.reason?.isSome = true ↔ s.state.phase = .terminated := by
  cases hstate : s.state <;> simp [reason?, hstate, State.phase]

/-- **A session enters phases in one direction**, and its log shows each. -/
theorem Change.states_cases (hc : s.Change l s') (hs : s.Staged) :
    states s'.log = states s.log ∧ s'.state = s.state ∨
      states s'.log = states s.log ++ [s'.state] ∧ s.state.rank < s'.state.rank := by
  have hlast (hopen : s.reason? = none) (r : Failure) :
      s.state.rank < State.rank (.terminated r) := by
    cases hstate : s.state with
    | terminated r' => exact absurd hstate (reason?_eq_none_iff.1 hopen r')
    | idle | starting | ready => simp [State.rank, State.phase, Phase.number]
  cases hc with
  | starting hidle =>
      exact .inr ⟨by simp, by simp [hidle, State.rank, State.phase, Phase.number]⟩
  | ended reason hopen => exact .inr ⟨by simp, hlast hopen reason⟩
  | refused _ hopen | parted _ hopen => exact .inr ⟨by simp, hlast hopen _⟩
  | greeted hworker hopen =>
      have hstarting := (hs.greeting hworker).resolve_right (fun hover => hover hopen)
      exact .inr ⟨by simp, by simp [hstarting, State.rank, State.phase, Phase.number]⟩
  | _ => exact .inl ⟨by simp, rfl⟩

theorem Change.rank_le (hc : s.Change l s') (hs : s.Staged) : s.state.rank ≤ s'.state.rank := by
  rcases hc.states_cases hs with ⟨-, hsame⟩ | ⟨-, hlt⟩
  · exact Nat.le_of_eq (congrArg State.rank hsame.symm)
  · exact Nat.le_of_lt hlt

/-- **A session never goes back**, in any play. -/
theorem rank_play (ht : s.Tidy) (acts : List Act) : s.state.rank ≤ (s.play acts).state.rank :=
  (play_induction (P := fun _ t => s.state.rank ≤ t.state.rank)
    (fun ht h hc => Nat.le_trans h (hc.rank_le ht.staged)) [] ht (Nat.le_refl _) acts).2

/-! ### The announcement of the end -/

theorem Change.done (hc : s.Change l s') (hdone : s.done = true) : s'.done = true := by
  cases hc with
  | announced => rfl
  | _ => exact hdone

/-- **What was announced stays announced**, in any play. -/
theorem done_play (ht : s.Tidy) (hdone : s.done = true) (acts : List Act) :
    (s.play acts).done = true :=
  (play_induction (P := fun _ t => t.done = true) (fun _ h hc => hc.done h) [] ht hdone acts).2

/-- No end is announced that has not come. -/
theorem Staged.terminated (h : s.Staged) (hdone : s.done = true) : s.state.phase = .terminated :=
  s.reason?_isSome_iff.1 (Option.isSome_iff_ne_none.2 (h.announced hdone))

/-- **At rest, the end was announced just when it has come.** -/
theorem done_iff_of_quiet (hs : s.Staged) (hquiet : s.move? = none) :
    s.done = true ↔ s.state.phase = .terminated := by
  refine ⟨hs.terminated, fun hphase => ?_⟩
  have hover := Option.isSome_iff_ne_none.1 (s.reason?_isSome_iff.2 hphase)
  exact done_of_quiet hover (quiet_parts hquiet).1

end Session

/-! ### Watched sessions -/

/-- **A session, and what somebody who watches it is told.** -/
structure Watch where
  session : Session
  /-- The states that were entered and whose turn to be told has not come. -/
  news : List State := []
  /-- The state that is being told. -/
  telling : Option State := none
  told : List State := []

namespace Watch

/-- What the watcher has heard of, in order. -/
def heard (w : Watch) : List State := w.told ++ w.telling.toList

/-- Nothing is left to be told. -/
def Quiet (w : Watch) : Prop := w.news = [] ∧ w.telling = none

theorem Quiet.heard {w : Watch} (h : w.Quiet) : w.heard = w.told := by
  simp [Watch.heard, h.2]

/-- **What may happen next** to a watched session.  The session changes, and if it enters a state
there is news.  It is the turn of a piece of news, which is dropped if it no longer holds.  The
watcher was told. -/
inductive Next (w : Watch) : Watch → Prop where
  | changed {l : Label} {s : Session} {entered : List State} (hc : w.session.Change l s)
      (hentered : states s.log = states w.session.log ++ entered) :
      Next w { w with session := s, news := w.news ++ entered }
  | dropped {before after : List State} {state : State} (hfree : w.telling = none)
      (hnews : w.news = before ++ state :: after)
      (hpast : state.phase ≠ w.session.state.phase) :
      Next w { w with news := before ++ after }
  | begun {before after : List State} {state : State} (hfree : w.telling = none)
      (hnews : w.news = before ++ state :: after)
      (hholds : state.phase = w.session.state.phase) :
      Next w { w with news := before ++ after, telling := some state }
  | finished {state : State} (htelling : w.telling = some state) :
      Next w { w with telling := none, told := w.told ++ [state] }

/-- Some order of steps leads from one watch to the other. -/
def Reaches : Watch → Watch → Prop := Relation.ReflTransGen Next

/-- **What the watcher has heard of fits the session**, whatever is still on its way. -/
structure Fair (w : Watch) : Prop where
  /-- The session is not ready before the first prompt. -/
  staged : w.session.Staged
  /-- There is at most one piece of news about each phase. -/
  fresh : ((w.news ++ w.heard).map State.rank).Nodup
  /-- News is about the state of the session or one before it. -/
  past : ∀ state ∈ w.news ++ w.heard,
    state = w.session.state ∨ state.rank < w.session.state.rank
  /-- There is no news of an idle session. -/
  left : ∀ state ∈ w.news ++ w.heard, state ≠ .idle
  /-- What is heard rises from phase to phase. -/
  rising : (w.heard.map State.rank).Pairwise (· < ·)
  /-- The state of the session is not forgotten. -/
  current : w.session.state ≠ .idle → w.session.state ∈ w.news ++ w.heard

theorem fair_new (options : Options) : Fair { session := Session.new options } :=
  ⟨Session.staged_new options, by simp [heard], by simp [heard], by simp [heard], by simp [heard],
    fun h => absurd rfl h⟩

namespace Fair

variable {w : Watch}

theorem changed (h : w.Fair) {l : Label} {s : Session} {entered : List State}
    (hc : w.session.Change l s) (hentered : states s.log = states w.session.log ++ entered) :
    Fair { w with session := s, news := w.news ++ entered } := by
  have hstaged := h.staged.change hc
  rcases hc.states_cases h.staged with ⟨hsame, hstate⟩ | ⟨hnew, hlt⟩
  · obtain rfl : entered = [] := by simpa [hentered] using hsame
    rw [List.append_nil]
    exact ⟨hstaged, h.fresh, hstate ▸ h.past, h.left, h.rising, hstate ▸ h.current⟩
  · obtain rfl : entered = [s.state] := List.append_cancel_left (hentered.symm.trans hnew)
    -- All other news is about states before the one that was entered.
    have hbefore : ∀ state ∈ w.news ++ w.heard, state.rank < s.state.rank := by
      intro state hmem
      rcases h.past state hmem with rfl | hrank
      · exact hlt
      · exact Nat.lt_trans hrank hlt
    have hperm : (w.news ++ [s.state] ++ w.heard).Perm (s.state :: (w.news ++ w.heard)) := by
      grind
    have hmem {state : State} : state ∈ w.news ++ [s.state] ++ w.heard ↔
        state = s.state ∨ state ∈ w.news ++ w.heard :=
      hperm.mem_iff.trans List.mem_cons
    refine ⟨hstaged, ?_, ?_, ?_, h.rising, fun _ => hmem.2 (.inl rfl)⟩
    · refine ((hperm.map State.rank).nodup_iff).2 (List.nodup_cons.2 ⟨?_, h.fresh⟩)
      intro hrank
      obtain ⟨state, hstate, heq⟩ := List.mem_map.1 hrank
      exact Nat.ne_of_lt (hbefore state hstate) heq
    · intro state hstate
      exact (hmem.1 hstate).imp_right (hbefore state)
    · intro state hstate
      rcases hmem.1 hstate with rfl | hold
      · intro hidle
        rw [hidle] at hlt
        exact Nat.not_lt_zero _ hlt
      · exact h.left state hold

theorem dropped (h : w.Fair) {before after : List State} {state : State}
    (hnews : w.news = before ++ state :: after) (hpast : state.phase ≠ w.session.state.phase) :
    Fair { w with news := before ++ after } := by
  have hsub : (before ++ after ++ w.heard).Sublist (w.news ++ w.heard) := by
    rw [hnews]
    exact ((List.sublist_cons_self state after).append_left before).append_right w.heard
  refine ⟨h.staged, h.fresh.sublist (hsub.map _), fun st hst => h.past st (hsub.subset hst),
    fun st hst => h.left st (hsub.subset hst), h.rising, ?_⟩
  intro hidle
  have hne : w.session.state ≠ state := by
    rintro rfl
    exact hpast rfl
  have hmem : w.session.state ∈ before ++ after ++ w.heard := by
    simpa [hnews, hne] using h.current hidle
  exact hmem

theorem begun (h : w.Fair) {before after : List State} {state : State} (hfree : w.telling = none)
    (hnews : w.news = before ++ state :: after) (hholds : state.phase = w.session.state.phase) :
    Fair { w with news := before ++ after, telling := some state } := by
  have hheard : w.heard = w.told := by simp [heard, hfree]
  have hperm : (before ++ after ++ (w.told ++ [state])).Perm (w.news ++ w.heard) := by
    rw [hnews, hheard]
    grind
  have hcurrent : state = w.session.state := by
    refine (h.past state (by simp [hnews])).resolve_right ?_
    rw [State.rank_eq_of_phase hholds]
    exact Nat.lt_irrefl _
  have hfresh := ((hperm.map State.rank).nodup_iff).2 h.fresh
  refine ⟨h.staged, hfresh, fun st hst => h.past st (hperm.mem_iff.1 hst),
    fun st hst => h.left st (hperm.mem_iff.1 hst), ?_,
    fun hidle => hperm.mem_iff.2 (h.current hidle)⟩
  show ((w.told ++ [state]).map State.rank).Pairwise (· < ·)
  rw [List.map_append]
  refine List.pairwise_append.2 ⟨hheard ▸ h.rising, List.pairwise_singleton _ _, ?_⟩
  intro n hn m hm
  obtain ⟨st, hst, rfl⟩ := List.mem_map.1 hn
  rw [List.mem_singleton.1 hm, hcurrent]
  -- What was told before is about an earlier state, since there is no news twice.
  refine (h.past st (by simp [hheard, hst])).resolve_left ?_
  rintro rfl
  simp only [List.map_append] at hfresh
  exact (List.nodup_append.1 (List.nodup_append.1 hfresh).2.1).2.2 _ (List.mem_map_of_mem hst) _
    (by simp [hcurrent]) rfl

/-- **Every step is fair.** -/
theorem next (h : w.Fair) {w' : Watch} (hnext : w.Next w') : w'.Fair := by
  cases hnext with
  | changed hc hentered => exact h.changed hc hentered
  | dropped hfree hnews hpast => exact h.dropped hnews hpast
  | begun hfree hnews hholds => exact h.begun hfree hnews hholds
  | @finished state htelling =>
      have hheard : heard { w with telling := none, told := w.told ++ [state] } = w.heard := by
        simp [heard, htelling]
      exact ⟨h.staged, by rw [hheard]; exact h.fresh, by rw [hheard]; exact h.past,
        by rw [hheard]; exact h.left, by rw [hheard]; exact h.rising,
        by rw [hheard]; exact h.current⟩

end Fair

/-- **Every order of steps is fair.** -/
theorem fair_of_reaches {w w' : Watch} (h : w.Fair) (hreaches : w.Reaches w') : w'.Fair := by
  induction hreaches with
  | refl => exact h
  | tail _ hnext ih => exact ih.next hnext

/-- **Nothing is taken back**, in any order of steps. -/
theorem Fair.onward {w w' : Watch} (h : w.Fair) (hreaches : w.Reaches w') :
    w.session.state.rank ≤ w'.session.state.rank ∧
      (∀ r, w.session.reason? = some r → w'.session.reason? = some r) ∧
      (w.session.done = true → w'.session.done = true) ∧ w.told <+: w'.told := by
  induction hreaches with
  | refl => exact ⟨Nat.le_refl _, fun _ => id, id, List.prefix_rfl⟩
  | @tail u u' hbefore hnext ih =>
      obtain ⟨hrank, hreason, hdone, htold⟩ := ih
      cases hnext with
      | changed hc =>
          exact ⟨Nat.le_trans hrank (hc.rank_le (fair_of_reaches h hbefore).staged),
            fun r hr => hc.reason? (hreason r hr), fun hd => hc.done (hdone hd), htold⟩
      | dropped | begun => exact ⟨hrank, hreason, hdone, htold⟩
      | finished => exact ⟨hrank, hreason, hdone, htold.trans (List.prefix_append _ _)⟩

/-! ### News told at once -/

/-- **The watch in which all news is told at once**: the log shows what was told. -/
def prompt (s : Session) : Watch := { session := s, told := states s.log }

theorem prompt_quiet (s : Session) : (prompt s).Quiet := ⟨rfl, rfl⟩

theorem prompt_change {s s' : Session} {l : Label} (hc : s.Change l s') (hs : s.Staged) :
    (prompt s).Reaches (prompt s') := by
  rcases hc.states_cases hs with ⟨hsame, -⟩ | ⟨hnew, -⟩
  · refine .single ?_
    have hnext : (prompt s).Next { prompt s with session := s', news := [] ++ [] } :=
      .changed hc (hsame.trans (List.append_nil _).symm)
    simpa [prompt, hsame] using hnext
  · -- The state is entered, its turn comes at once, and it is told.
    have hentered : (prompt s).Next { prompt s with session := s', news := [s'.state] } :=
      .changed hc hnew
    have hbegun : Next { prompt s with session := s', news := [s'.state] }
        { prompt s with session := s', telling := some s'.state } :=
      @Next.begun _ [] [] _ rfl rfl rfl
    have hfinished : Next { prompt s with session := s', telling := some s'.state }
        { prompt s with session := s', told := states s.log ++ [s'.state] } :=
      .finished rfl
    rw [← hnew] at hfinished
    exact ((Relation.ReflTransGen.single hentered).tail hbegun).tail hfinished

/-- **Every play is watched.** -/
theorem prompt_play (options : Options) (acts : List Act) :
    (prompt (.new options)).Reaches (prompt ((Session.new options).play acts)) :=
  Session.ledger_induction (P := fun _ t => (prompt (.new options)).Reaches (prompt t))
    (fun ht _ _ h hc => h.trans (prompt_change hc ht.staged)) options .refl acts

/-! ### When no news is left -/

namespace Fair

variable {w : Watch}

theorem told_rising (h : w.Fair) : (w.told.map State.rank).Pairwise (· < ·) :=
  (h.rising.sublist ((List.sublist_append_left _ _).map _))

/-- **The end is told as it was.** -/
theorem reason?_of_told (h : w.Fair) {r : Failure} (hmem : .terminated r ∈ w.told) :
    w.session.reason? = some r := by
  rcases h.past (.terminated r) (by simp [heard, hmem]) with hstate | hlt
  · exact Session.reason?_terminated hstate.symm
  · exact absurd (w.session.state.rank_le_terminated r) (Nat.not_le.2 hlt)

theorem told_of_idle (h : w.Fair) (hidle : w.session.state = .idle) : w.told = [] := by
  refine List.eq_nil_iff_forall_not_mem.2 fun state hmem => ?_
  have hmem : state ∈ w.news ++ w.heard := by simp [heard, hmem]
  rcases h.past state hmem with heq | hlt
  · exact h.left state hmem (heq.trans hidle)
  · rw [hidle] at hlt
    cases hlt

/-- **When no news is left, the last that was told is the state of the session**, and all before is
about states before it. -/
theorem last (h : w.Fair) (hquiet : w.Quiet) (hidle : w.session.state ≠ .idle) :
    ∃ before, w.told = before ++ [w.session.state] ∧
      ∀ state ∈ before, state.rank < w.session.state.rank := by
  have hmem : w.session.state ∈ w.told := by
    simpa [hquiet.1, hquiet.heard] using h.current hidle
  obtain ⟨before, after, htold⟩ := List.append_of_mem hmem
  have hrising := h.told_rising
  rw [htold, List.map_append, List.map_cons, List.pairwise_append, List.pairwise_cons] at hrising
  obtain ⟨-, ⟨hafter, -⟩, hbefore⟩ := hrising
  -- Whatever was told after it would be about a later state, and there is none.
  have hnil : after = [] := by
    refine List.eq_nil_iff_forall_not_mem.2 fun state hstate => ?_
    have hlater := hafter _ (List.mem_map_of_mem hstate)
    rcases h.past state (by simp [heard, htold, hstate]) with rfl | hlt
    · exact Nat.lt_irrefl _ hlater
    · exact Nat.lt_asymm hlater hlt
  subst hnil
  exact ⟨before, htold, fun state hstate =>
    hbefore _ (List.mem_map_of_mem hstate) _ List.mem_cons_self⟩

/-- **When no news is left, the end was told once if the session is over, and else never.** -/
theorem ended (h : w.Fair) (hquiet : w.Quiet) :
    (w.told.filter fun state => state.phase = .terminated) =
      (w.session.reason?.map State.terminated).toList := by
  cases hr : w.session.reason? with
  | none =>
      refine List.filter_eq_nil_iff.2 fun state hmem => ?_
      cases state with
      | terminated r => simp [h.reason?_of_told hmem] at hr
      | idle | starting | ready => simp [State.phase]
  | some r =>
      have hstate := Session.state_of_reason? hr
      obtain ⟨before, htold, hbefore⟩ := h.last hquiet (by simp [hstate])
      have hnone : (before.filter fun state => state.phase = .terminated) = [] := by
        refine List.filter_eq_nil_iff.2 fun state hmem => ?_
        have hlt := hbefore state hmem
        cases state with
        | terminated r' => rw [hstate] at hlt; exact absurd hlt (Nat.lt_irrefl _)
        | idle | starting | ready => simp [State.phase]
      rw [htold, List.filter_append, hnone, hstate]
      rfl

end Fair

end Watch

end ReplBridge.Repl
