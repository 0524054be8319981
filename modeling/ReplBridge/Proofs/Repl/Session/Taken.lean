import ReplBridge.Proofs.Repl.Session.Order
import ReplBridge.Proofs.Repl.Session.Run

/-!
**Which calls the worker has taken.**

A worker that takes a call from the queue to write it records the command first.  So the log shows
which calls were taken, whether writing them succeeded or not; and a call that is passed over leaves
nothing in the log.  Once its caller has given up, a call that was not taken never is.

Main definitions:

* `Session.Leads`, `Session.Reached` — sessions that some play leads to;
* `Session.GivenUp`, `Session.Taken`, `Session.Sent` — what became of a call;
* `Session.Recorded` — what the log says of numbers.

Main results:

* `Session.recorded_play` — **numbers in the log are those of calls, and of none that is queued**;
* `Session.sent_of_pending` — a call that was taken and has no outcome was written;
* `Session.not_taken_leads` — **a call that is given up before it is taken is never taken**.
-/

set_option autoImplicit false

namespace ReplBridge.Repl

/-- The number that an effect names; 0 if it names none. -/
def Effect.number : Effect → Nat
  | .wrote seq _ => seq
  | .recorded _ seq _ => seq
  | _ => 0

namespace Session

variable {s s' t : Session} {l : Label}

/-! ### Sessions that can be reached -/

/-- Some play leads from one session to the other. -/
def Leads (s t : Session) : Prop := ∃ acts, t = s.play acts

theorem leads_move (h : s.move? = some s') : s.Leads s' := by
  obtain ⟨a, -, rfl⟩ := move_act h
  exact ⟨[a], rfl⟩

theorem leads_settleWithin (fuel : Nat) (s : Session) : s.Leads (settleWithin fuel s) := by
  obtain ⟨acts, -, heq⟩ := settleWithin_play fuel s
  exact ⟨acts, heq⟩

theorem leads_settle (s : Session) : s.Leads s.settle := leads_settleWithin s.work s

theorem leads_clock {time : Nat} (h : s.now ≤ time) : s.Leads { s with now := time } :=
  ⟨_, set_now_play h⟩

theorem leads_expireAt {time : Nat} (h : time ≤ s.now) : s.Leads (s.expireAt time) := by
  obtain ⟨acts, -, heq⟩ := expireAt_play h
  exact ⟨acts, heq⟩

theorem leads_advanceWithin (fuel : Nat) {target : Nat} (ht : s.Tidy) (h : s.now ≤ target) :
    s.Leads (advanceWithin fuel target s) := by
  obtain ⟨acts, -, heq⟩ := advanceWithin_play fuel target ht h
  exact ⟨acts, heq⟩

theorem leads_apply (ht : s.Tidy) (e : Event) : s.Leads (s.apply e) := by
  obtain ⟨acts, heq, -⟩ := apply_play ht e
  exact ⟨acts, heq⟩

theorem leads_run (ht : s.Tidy) (events : List Event) : s.Leads (s.run events) := by
  obtain ⟨acts, heq, -⟩ := exists_play_of_run ht events
  exact ⟨acts, heq⟩

/-- **Some play leads to the session.** -/
def Reached (s : Session) : Prop := ∃ options acts, s = (new options).play acts

theorem reached_new (options : Options) : (new options).Reached := ⟨options, [], rfl⟩

namespace Reached

variable {s : Session}

theorem tidy (h : s.Reached) : s.Tidy := by
  obtain ⟨options, acts, rfl⟩ := h
  exact tidy_play (tidy_new options) acts

theorem numbered (h : s.Reached) : s.Numbered := by
  obtain ⟨options, acts, rfl⟩ := h
  exact numbered_play options acts

theorem placed (h : s.Reached) : s.Placed := by
  obtain ⟨options, acts, rfl⟩ := h
  exact placed_play options acts

theorem paired (h : s.Reached) : s.Paired := by
  obtain ⟨options, acts, rfl⟩ := h
  exact paired_play options acts

theorem leads (h : s.Reached) (hl : s.Leads t) : t.Reached := by
  obtain ⟨options, before, rfl⟩ := h
  obtain ⟨acts, rfl⟩ := hl
  exact ⟨options, before ++ acts, (play_append _ _ _).symm⟩

/-- **What every act keeps, a play keeps.** -/
theorem induction {P : Session → Prop} (hstep : ∀ t a, t.Reached → P t → P (t.perform a))
    (h : s.Reached) (hs : P s) (acts : List Act) : P (s.play acts) := by
  induction acts generalizing s with
  | nil => exact hs
  | cons a acts ih => exact ih (h.leads ⟨[a], rfl⟩) (hstep s a h hs)

theorem run (h : s.Reached) (events : List Event) : (s.run events).Reached :=
  h.leads (leads_run h.tidy events)

end Reached

/-! ### What becomes of a call -/

/-- The caller of a call has given up. -/
def GivenUp (s : Session) (x : Nat) : Prop := s.calls[x]?.map Call.abandoned = some true

/-- The worker has taken a call in order to write it. -/
def Taken (s : Session) (x : Nat) : Prop := ∃ text, .recorded .input (x + 1) text ∈ s.log

/-- The command of a call was written. -/
def Sent (s : Session) (x : Nat) : Prop := x + 1 ∈ (writes s.log).map Prod.fst

instance (s : Session) (x : Nat) : Decidable (s.GivenUp x) :=
  inferInstanceAs (Decidable (_ = _))

instance (s : Session) (x : Nat) : Decidable (s.Sent x) :=
  inferInstanceAs (Decidable (_ ∈ _))

theorem givenUp_iff {x : Nat} : s.GivenUp x ↔ ∃ c, s.calls[x]? = some c ∧ c.abandoned = true :=
  Option.map_eq_some_iff

theorem GivenUp.of_kept {x : Nat} (h : s.GivenUp x) (hkept : Kept s.calls s'.calls) :
    s'.GivenUp x := by
  obtain ⟨c, hc, hgone⟩ := givenUp_iff.1 h
  obtain ⟨c', hc', hgrows⟩ := hkept x c hc
  exact givenUp_iff.2 ⟨c', hc', hgrows.abandoned hgone⟩

theorem GivenUp.leads {x : Nat} (h : s.GivenUp x) (ht : s.Tidy) (hl : s.Leads t) : t.GivenUp x := by
  obtain ⟨acts, rfl⟩ := hl
  exact h.of_kept (play_calls ht acts)

theorem Change.log_prefix (h : s.Change l s') : s.log <+: s'.log := by
  cases h with
  | aside | starting | ended | greeted | overtaken | wrote | refused | answered | parted
  | outlived => exact List.prefix_append _ _
  | _ => exact List.prefix_rfl

theorem log_play (ht : s.Tidy) (acts : List Act) : s.log <+: (s.play acts).log :=
  (play_induction (P := fun _ t => s.log <+: t.log) (fun _ h hc => h.trans hc.log_prefix) [] ht
    List.prefix_rfl acts).2

theorem Taken.leads {x : Nat} (h : s.Taken x) (ht : s.Tidy) (hl : s.Leads t) : t.Taken x := by
  obtain ⟨text, hmem⟩ := h
  obtain ⟨acts, rfl⟩ := hl
  exact ⟨text, (log_play ht acts).subset hmem⟩

theorem Sent.leads {x : Nat} (h : s.Sent x) (ht : s.Tidy) (hl : s.Leads t) : t.Sent x := by
  obtain ⟨acts, rfl⟩ := hl
  obtain ⟨more, hmore⟩ := log_play ht acts
  unfold Sent at *
  rw [← hmore, writes_append, List.map_append]
  exact List.mem_append_left _ h

/-! ### Numbers in the log -/

/-- **What the log says of numbers.** -/
structure Recorded (s : Session) : Prop where
  /-- They are numbers of accepted calls, or 0. -/
  bound : ∀ e ∈ s.log, e.number ≤ s.accepted
  /-- Calls that were taken stand before all that are queued. -/
  before : ∀ n text, .recorded .input n text ∈ s.log → ∀ q ∈ s.queue, n ≤ q
  /-- Calls that were written were taken. -/
  sent : ∀ p ∈ writes s.log, ∃ text, .recorded .input p.1 text ∈ s.log

theorem recorded_new (options : Options) : (new options).Recorded :=
  ⟨by simp [new], by simp [new], by simp [new]⟩

/-- Where no call is taken and the queue only loses calls, only the numbers that are new are to be
looked at. -/
theorem Recorded.extend (h : s.Recorded) (more : List Effect) (hlog : s'.log = s.log ++ more)
    (hbound : ∀ e ∈ more, e.number ≤ s'.accepted)
    (hinput : ∀ n text, .recorded .input n text ∉ more) (hwrites : writes more = [])
    (haccepted : s'.accepted = s.accepted) (hqueue : ∀ q ∈ s'.queue, q ∈ s.queue) :
    s'.Recorded := by
  have hold {n : Nat} {text : Bytes} (hmem : .recorded .input n text ∈ s'.log) :
      .recorded .input n text ∈ s.log := by
    rw [hlog] at hmem
    exact (List.mem_append.1 hmem).resolve_right (hinput n text)
  refine ⟨?_, ?_, ?_⟩
  · intro e he
    rw [hlog] at he
    rcases List.mem_append.1 he with he | he
    · rw [haccepted]
      exact h.bound e he
    · exact hbound e he
  · intro n text hmem q hq
    exact h.before n text (hold hmem) q (hqueue q hq)
  · intro p hp
    rw [hlog, writes_append, hwrites, List.append_nil] at hp
    obtain ⟨text, hmem⟩ := h.sent p hp
    exact ⟨text, by rw [hlog]; exact List.mem_append_left _ hmem⟩

theorem Recorded.same (h : s.Recorded) (hlog : s'.log = s.log)
    (haccepted : s'.accepted = s.accepted) (hqueue : ∀ q ∈ s'.queue, q ∈ s.queue) : s'.Recorded :=
  h.extend [] (by simpa using hlog) (by simp) (by simp) rfl haccepted hqueue

/-- **Changes keep the numbers in the log in order.** -/
theorem Recorded.change (h : s.Recorded) (ht : s.Tidy) (hn : s.Numbered) (hp : s.Placed)
    (hc : s.Change l s') : s'.Recorded := by
  have hflight {call : Nat} {deadline : Option Nat} {c : Call}
      (hworker : s.worker = .awaiting call deadline) (hcall : s.calls[call]? = some c) :
      c.seq ≤ s.accepted := by
    obtain ⟨hlt, hseq⟩ := hn.waiting hp hcall (.inr ⟨deadline, hworker⟩)
    omega
  cases hc with
  | ticked | printed | stranded | launched | announced | rejected | gaveUp | failed | expired
  | stopped | read | dropped | drained | departed => exact h.same rfl rfl fun _ => id
  | skipped hworker hqueue =>
      exact h.same rfl rfl fun q hq => hqueue ▸ List.mem_cons_of_mem _ hq
  | aside complaints clients lines =>
      refine h.extend _ rfl ?_ (by simp) (by simp) rfl fun _ => id
      intro e he
      obtain ⟨line, -, rfl⟩ := List.mem_map.1 he
      exact Nat.zero_le _
  | starting | greeted | overtaken =>
      exact h.extend _ rfl (by simp [Effect.number]) (by simp) rfl rfl fun _ => id
  | ended => exact h.extend _ rfl (by simp [Effect.number]) (by simp) rfl rfl (by simp)
  | answered hworker _ hpump hcall | outlived hworker _ _ hpump hcall =>
      exact h.extend _ rfl (by simpa [Effect.number] using hflight hworker hcall) (by simp) rfl rfl
        fun _ => id
  | parted hworker hopen hpump hcall =>
      exact h.extend _ rfl (by simpa [Effect.number] using hflight hworker hcall) (by simp) rfl rfl
        (by simp)
  | accepted command last hopen =>
      refine ⟨fun e he => Nat.le_succ_of_le (h.bound e he), ?_, h.sent⟩
      intro n text hmem q hq
      rcases List.mem_append.1 hq with hq | hq
      · exact h.before n text hmem q hq
      · -- The new call stands behind all that were accepted.
        rw [List.mem_singleton.1 hq, hn.opened hopen]
        exact h.bound _ hmem
  | @wrote call rest c hworker hqueue hcall hwaits hfree =>
      obtain ⟨hlt, hseq⟩ := hn.waiting hp hcall (.inl (by simp [hqueue]))
      have hsorted := ht.sorted
      rw [hqueue] at hsorted
      refine ⟨?_, ?_, ?_⟩
      · intro e he
        rcases List.mem_append.1 he with he | he
        · exact h.bound e he
        · simp only [List.mem_cons, List.not_mem_nil, or_false] at he
          rcases he with rfl | rfl <;> simp only [Effect.number] <;> omega
      · intro n text hmem q hq
        have hbefore := (List.pairwise_cons.1 hsorted).1 q hq
        rcases List.mem_append.1 hmem with hmem | hmem
        · exact h.before n text hmem q (by simp [hqueue, hq])
        · simp only [List.mem_cons, Effect.recorded.injEq, true_and, reduceCtorEq, List.not_mem_nil,
            or_self, or_false] at hmem
          omega
      · intro p hp
        simp only [writes_append, writes_cons_recorded, writes_cons_wrote, writes_nil,
          List.mem_append, List.mem_singleton] at hp
        rcases hp with hp | rfl
        · obtain ⟨text, hmem⟩ := h.sent p hp
          exact ⟨text, List.mem_append_left _ hmem⟩
        · exact ⟨c.command, by simp⟩
  | @refused call rest c cause hworker hopen hqueue hcall hwaits hfail =>
      obtain ⟨hlt, hseq⟩ := hn.waiting hp hcall (.inl (by simp [hqueue]))
      refine ⟨?_, by simp, ?_⟩
      · intro e he
        rcases List.mem_append.1 he with he | he
        · exact h.bound e he
        · simp only [List.mem_cons, List.not_mem_nil, or_false] at he
          rcases he with rfl | rfl <;> simp only [Effect.number] <;> omega
      · intro p hp
        simp only [writes_append, writes_cons_recorded, writes_cons_became, writes_nil,
          List.append_nil] at hp
        obtain ⟨text, hmem⟩ := h.sent p hp
        exact ⟨text, List.mem_append_left _ hmem⟩

/-- The numbers in the log are in order after every play. -/
theorem recorded_play (options : Options) (acts : List Act) : ((new options).play acts).Recorded :=
  ledger_induction (P := fun _ t => t.Recorded) (fun ht hn hp h hc => h.change ht hn hp hc) options
    (recorded_new options) acts

theorem Reached.recorded (h : s.Reached) : s.Recorded := by
  obtain ⟨options, acts, rfl⟩ := h
  exact recorded_play options acts

/-! ### Calls that are taken -/

theorem not_taken_of_queued (h : s.Reached) {x : Nat} (hq : x ∈ s.queue) : ¬ s.Taken x := by
  rintro ⟨text, hmem⟩
  have := h.recorded.before _ text hmem x hq
  omega

theorem Sent.taken {x : Nat} (hsent : s.Sent x) (h : s.Reached) : s.Taken x := by
  obtain ⟨p, hp, hx⟩ := List.mem_map.1 hsent
  obtain ⟨text, hmem⟩ := h.recorded.sent p hp
  exact ⟨text, hx ▸ hmem⟩

/-- The command of the call in flight was written. -/
theorem sent_of_awaiting (h : s.Reached) {x : Nat} {deadline : Option Nat}
    (hworker : s.worker = .awaiting x deadline) : s.Sent x := by
  have hpaired := h.paired.worker
  rw [hworker] at hpaired
  have hpaired : (answers s.log).map Prod.fst ++ [x + 1] = 0 :: (writes s.log).map Prod.fst :=
    hpaired
  have hmem : x + 1 ∈ 0 :: (writes s.log).map Prod.fst := by simp [← hpaired]
  exact (List.mem_cons.1 hmem).resolve_left (Nat.succ_ne_zero x)

theorem sent_of_pending (h : s.Reached) {x : Nat} (hx : x < s.calls.length)
    (hpending : s.outcome? x = none) (htaken : s.Taken x) : s.Sent x := by
  have hcall : s.calls[x]? = some s.calls[x] := List.getElem?_eq_getElem hx
  rw [outcome?_of_call hcall] at hpending
  rcases (h.placed.undone x _ hcall).1 hpending with hq | ⟨deadline, hworker⟩
  · exact absurd htaken (not_taken_of_queued h hq)
  · exact sent_of_awaiting h hworker

/-- **Only a call whose caller waits is taken.** -/
theorem Change.taken (hc : s.Change l s') (hn : s.Numbered) (hp : s.Placed) {x : Nat}
    (h : s'.Taken x) : s.Taken x ∨ ¬ s.GivenUp x := by
  obtain ⟨text, hmem⟩ := h
  -- What is recorded anew is the command of the first call in the queue.
  have hfirst {call : Nat} {rest : List Nat} {c : Call} (hqueue : s.queue = call :: rest)
      (hcall : s.calls[call]? = some c) (hwaits : c.abandoned = false) (hseq : x + 1 = c.seq) :
      ¬ s.GivenUp x := by
    obtain ⟨-, hnumber⟩ := hn.waiting hp hcall (.inl (by simp [hqueue]))
    obtain rfl : x = call := by omega
    simp [GivenUp, hcall, hwaits]
  cases hc with
  | wrote hworker hqueue hcall hwaits =>
      rcases List.mem_append.1 hmem with hmem | hmem
      · exact .inl ⟨text, hmem⟩
      · simp only [List.mem_cons, Effect.recorded.injEq, true_and, reduceCtorEq, List.not_mem_nil,
          or_self, or_false] at hmem
        exact .inr (hfirst hqueue hcall hwaits hmem.1)
  | refused hworker hopen hqueue hcall hwaits =>
      rcases List.mem_append.1 hmem with hmem | hmem
      · exact .inl ⟨text, hmem⟩
      · simp only [List.mem_cons, Effect.recorded.injEq, true_and, reduceCtorEq, List.not_mem_nil,
          or_self, or_false] at hmem
        exact .inr (hfirst hqueue hcall hwaits hmem.1)
  | aside | starting | ended | greeted | overtaken | answered | parted | outlived =>
      exact .inl ⟨text, by simpa using hmem⟩
  | _ => exact .inl ⟨text, hmem⟩

/-- **A call that is given up before it is taken is never taken.** -/
theorem not_taken_leads (h : s.Reached) {x : Nat} (hgone : s.GivenUp x) (hfree : ¬ s.Taken x)
    (hl : s.Leads t) : ¬ t.Taken x := by
  obtain ⟨acts, rfl⟩ := hl
  refine (play_induction (P := fun _ t => t.Numbered ∧ t.Placed ∧ t.GivenUp x ∧ ¬ t.Taken x) ?_ []
    h.tidy ⟨h.numbered, h.placed, hgone, hfree⟩ acts).2.2.2.2
  rintro chunks t t' l ht ⟨hn, hp, hgone, hfree⟩ hc
  refine ⟨hn.change hc, hp.change ht hc, hgone.of_kept hc.kept, ?_⟩
  intro htaken
  rcases hc.taken hn hp htaken with hold | hwaits
  · exact hfree hold
  · exact hwaits hgone

end Session

end ReplBridge.Repl
