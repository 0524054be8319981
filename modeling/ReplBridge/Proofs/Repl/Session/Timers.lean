import ReplBridge.Proofs.Repl.Session.Parties
import ReplBridge.Proofs.Repl.Session.Run

/-!
**No deadline is missed.**

Time passes in jumps from one deadline to the next, and `Session.deadlines` bounds the number of
jumps.  As with settling, the bound is never what ends it.  A timer that goes off ends the session
or moves a client on by one stage, and neither is ever undone; so `Session.timers`, which counts
both, falls with every jump, while nothing that a session does by itself makes it rise.

When a run has come to rest, then, nothing can move and every deadline is ahead: the session is
*still*.

Main definitions:

* `Session.Due` — someone waits until a time;
* `Session.Ahead` — a time has come, and all deadlines are after it;
* `Session.Still` — nothing moves, and all deadlines are ahead;
* `Session.timers` — how many timers can still go off.

Main results:

* `Session.nextDeadline?_eq_some`, `Session.nextDeadline?_eq_none` — what the next deadline is;
* `Session.Ahead.play` — **nobody sets a deadline in the past**;
* `Session.timers_expireAt` — a timer that goes off is used up;
* `Session.still_run` — **after every run all deadlines are ahead**.
-/

set_option autoImplicit false

namespace ReplBridge.Repl

variable {t : Nat} {c : Client}

theorem Options.grace_pos (o : Options) : 0 < o.grace := by
  unfold Options.grace
  split
  · rename_i hgrace
    exact Int.pos_iff_toNat_pos.1 hgrace
  · decide

theorem Options.timeLimit_pos {o : Options} {limit : Nat} (h : o.timeLimit = some limit) :
    0 < limit := by
  unfold Options.timeLimit at h
  split at h
  · rename_i hlimit
    cases h
    exact Int.pos_iff_toNat_pos.1 hlimit
  · cases h

namespace Session

variable {s s' : Session} {l : Label}

/-! ### The next deadline -/

/-- Someone waits until `time`. -/
def Due (s : Session) (time : Nat) : Prop :=
  s.worker.deadline? = some time ∨ ∃ c ∈ s.clients, c.deadline? = some time

theorem earlier_eq_none {a b : Option Nat} (h : earlier a b = none) : a = none ∧ b = none := by
  cases a <;> cases b <;> simp_all [earlier]

theorem earlier_eq_some {a b : Option Nat} (h : earlier a b = some t) :
    (a = some t ∨ b = some t) ∧ (∀ x, a = some x → t ≤ x) ∧ ∀ x, b = some x → t ≤ x := by
  cases a with
  | none =>
      have hb : b = some t := h
      simp [hb]
  | some a =>
      cases b with
      | none =>
          have ha : some a = some t := h
          simp [ha]
      | some b =>
          have hmin : min a b = t := Option.some.inj h
          simp only [Option.some.injEq, forall_eq']
          omega

theorem foldl_earlier_none {clients : List Client} {first : Option Nat}
    (h : clients.foldl (fun t c => earlier t c.deadline?) first = none) :
    first = none ∧ ∀ c ∈ clients, c.deadline? = none := by
  induction clients generalizing first with
  | nil => exact ⟨h, by simp⟩
  | cons c clients ih =>
      obtain ⟨hfirst, hrest⟩ := ih h
      obtain ⟨hnone, hc⟩ := earlier_eq_none hfirst
      exact ⟨hnone, by simpa [hc] using hrest⟩

theorem foldl_earlier_some {clients : List Client} {first : Option Nat}
    (h : clients.foldl (fun t c => earlier t c.deadline?) first = some t) :
    (first = some t ∨ ∃ c ∈ clients, c.deadline? = some t) ∧ (∀ x, first = some x → t ≤ x) ∧
      ∀ c ∈ clients, ∀ x, c.deadline? = some x → t ≤ x := by
  induction clients generalizing first with
  | nil =>
      refine ⟨.inl h, ?_, by simp⟩
      intro x hx
      rw [List.foldl_nil, hx] at h
      cases h
      exact Nat.le_refl _
  | cons c clients ih =>
      obtain ⟨hmem, hfirst, hrest⟩ := ih h
      dsimp only at hmem hfirst
      cases hmin : earlier first c.deadline? with
      | none =>
          obtain ⟨hnone, hc⟩ := earlier_eq_none hmin
          refine ⟨?_, by simp [hnone], by simpa [hc] using hrest⟩
          obtain ⟨b, hb, hdue⟩ := hmem.resolve_left (by simp [hmin])
          exact .inr ⟨b, by simp [hb], hdue⟩
      | some m =>
          obtain ⟨hm, hle, hle'⟩ := earlier_eq_some hmin
          have htm : t ≤ m := hfirst m hmin
          refine ⟨?_, fun x hx => Nat.le_trans htm (hle x hx), ?_⟩
          · rcases hmem with heq | ⟨b, hb, hdue⟩
            · rw [hmin] at heq
              cases heq
              exact hm.imp id fun hc => ⟨c, by simp, hc⟩
            · exact .inr ⟨b, by simp [hb], hdue⟩
          · intro b hb x hx
            rcases List.mem_cons.1 hb with rfl | hb
            · exact Nat.le_trans htm (hle' x hx)
            · exact hrest b hb x hx

/-- The next deadline is the first at which someone's time is up. -/
theorem nextDeadline?_eq_some (h : s.nextDeadline? = some t) : s.Due t ∧ ∀ x, s.Due x → t ≤ x := by
  obtain ⟨hdue, hworker, hclients⟩ := foldl_earlier_some h
  refine ⟨hdue, ?_⟩
  intro x hx
  rcases hx with hx | ⟨c, hc, hx⟩
  · exact hworker x hx
  · exact hclients c hc x hx

theorem nextDeadline?_of_first (hdue : s.Due t) (hfirst : ∀ x, s.Due x → t ≤ x) :
    s.nextDeadline? = some t := by
  cases hnext : s.nextDeadline? with
  | none =>
      obtain ⟨hworker, hclients⟩ := foldl_earlier_none hnext
      rcases hdue with hdue | ⟨c, hc, hdue⟩
      · simp [hworker] at hdue
      · simp [hclients c hc] at hdue
  | some x =>
      obtain ⟨hx, hle⟩ := nextDeadline?_eq_some hnext
      rw [Nat.le_antisymm (hle t hdue) (hfirst x hx)]

theorem nextDeadline?_eq_none (h : s.nextDeadline? = none) (x : Nat) : ¬ s.Due x := by
  obtain ⟨hworker, hclients⟩ := foldl_earlier_none h
  rintro (hx | ⟨c, hc, hx⟩)
  · rw [hworker] at hx
    cases hx
  · rw [hclients c hc] at hx
    cases hx

/-! ### Nobody sets a deadline in the past -/

/-- The time `n` has come, and all deadlines are after it. -/
def Ahead (n : Nat) (s : Session) : Prop := n ≤ s.now ∧ ∀ time, s.Due time → n < time

theorem deadline_ahead {limit t : Nat} (h : s.deadline limit = some t) : s.now < t := by
  unfold deadline at h
  split at h
  · cases h
  · cases h
    omega

theorem Comes.ahead {e : Event} (h : s.Comes e c) (ht : c.deadline? = some t) : s.now < t := by
  cases c with
  | executing call deadline =>
      obtain ⟨-, command, limit, -, rfl⟩ := h
      exact deadline_ahead ht
  | quitting call deadline =>
      obtain ⟨-, -, command, limit, -, rfl⟩ := h
      exact deadline_ahead ht
  | releasing | reaping | closing | executed | hasQuit | hasClosed => exact h.elim
  | leaving | shutting => cases ht

theorem release_ahead {result : Option Failure} (ht : (s.release result).2.deadline? = some t) :
    s.now < t := by
  have hgrace := s.options.grace_pos
  unfold release at ht
  split at ht
  · cases ht
  · cases ht
    omega

theorem shut_deadline? (s : Session) : s.shut.2.deadline? = none := by
  unfold shut
  split <;> rfl

theorem clientStep_ahead {c c' : Client} (h : s.clientStep? c = some (s', c'))
    (ht : c'.deadline? = some t) : s.now < t := by
  cases clientStep?_eq_some h with
  | releases => exact release_ahead ht
  | shuts =>
      rw [shut_deadline?] at ht
      cases ht
  | returns | leaves | released | reaped | closed => cases ht

theorem expireClient_ahead {d t : Nat} (hd : c.deadline? = some d)
    (ht : (s.expireClient c).2.deadline? = some t) : s.now < t := by
  cases c with
  | quitting call deadline => exact release_ahead (s := s.giveUp call) ht
  | executing | releasing => cases ht
  | leaving | reaping | shutting | closing | executed | hasQuit | hasClosed => cases hd

/-- A worker that begins to wait does so with its time before it. -/
theorem Change.worker_ahead (h : s.Change l s') (ht : s'.worker.deadline? = some t) :
    s.worker.deadline? = some t ∨ s.now < t := by
  cases h with
  | wrote =>
      obtain ⟨limit, hlimit, rfl⟩ := Option.map_eq_some_iff.1 ht
      have := Options.timeLimit_pos hlimit
      exact .inr (by omega)
  | launched | greeted | overtaken | refused | answered | parted | outlived | failed | expired
  | stopped => cases ht
  | _ => exact .inl ht

theorem worker_ahead_perform (ht : s.Tidy) {n : Nat} (h : s.Ahead n) (a : Act) :
    n ≤ (s.perform a).now ∧ ∀ t, (s.perform a).worker.deadline? = some t → n < t := by
  refine (play_induction (P := fun _ u => n ≤ u.now ∧ ∀ t, u.worker.deadline? = some t → n < t)
    ?_ [] ht ⟨h.1, fun t hdue => h.2 t (.inl hdue)⟩ [a]).2
  intro chunks u u' l _ hu hc
  have hnow : u.now ≤ u'.now := by
    cases hc with
    | ticked time => exact Nat.le_add_right _ _
    | _ => exact Nat.le_refl _
  refine ⟨Nat.le_trans hu.1 hnow, ?_⟩
  intro t hdue
  rcases hc.worker_ahead hdue with hold | hnew
  · exact hu.2 t hold
  · exact Nat.lt_of_le_of_lt hu.1 hnew

/-- **Nobody sets a deadline in the past**, one act at a time. -/
theorem Ahead.perform {n : Nat} (h : s.Ahead n) (ht : s.Tidy) (a : Act) :
    (s.perform a).Ahead n := by
  obtain ⟨hnow, hworker⟩ := worker_ahead_perform ht h a
  -- A client in the list after the act was there, or begins, or has just moved.
  have hset {i : Nat} {c' : Client} (hc' : ∀ t, c'.deadline? = some t → n < t) :
      ∀ c ∈ s.clients.set i c', ∀ t, c.deadline? = some t → n < t := by
    intro c hc t hdue
    rcases List.mem_or_eq_of_mem_set hc with hold | rfl
    · exact h.2 t (.inr ⟨c, hold, hdue⟩)
    · exact hc' t hdue
  have hclients : ∀ c ∈ (s.perform a).clients, ∀ t, c.deadline? = some t → n < t := by
    rcases perform_clients s a with ⟨more, hmore, hcomes⟩ | ⟨i, c, s', c', -, -, hstep, heq⟩ |
      ⟨i, c, d, -, -, hd, -, heq⟩
    · intro c hc t hdue
      rw [hmore] at hc
      rcases List.mem_append.1 hc with hold | hnew
      · exact h.2 t (.inr ⟨c, hold, hdue⟩)
      · obtain ⟨e, -, hbegins⟩ := hcomes c hnew
        exact Nat.lt_of_le_of_lt h.1 (hbegins.ahead hdue)
    · rw [heq]
      exact hset fun t hdue => Nat.lt_of_le_of_lt h.1 (clientStep_ahead hstep hdue)
    · rw [heq]
      exact hset fun t hdue => Nat.lt_of_le_of_lt h.1 (expireClient_ahead hd hdue)
  refine ⟨hnow, ?_⟩
  rintro t (hdue | ⟨c, hc, hdue⟩)
  · exact hworker t hdue
  · exact hclients c hc t hdue

/-- **Nobody sets a deadline in the past.** -/
theorem Ahead.play {n : Nat} (h : s.Ahead n) (ht : s.Tidy) (acts : List Act) :
    (s.play acts).Ahead n := by
  induction acts generalizing s with
  | nil => exact h
  | cons a acts ih => exact ih (h.perform ht a) (tidy_perform ht a)

theorem Ahead.settle {n : Nat} (h : s.Ahead n) (ht : s.Tidy) : s.settle.Ahead n := by
  obtain ⟨acts, -, heq⟩ := settleWithin_play s.work s
  rw [Session.settle, heq]
  exact h.play ht acts

theorem now_settle (ht : s.Tidy) : s.settle.now = s.now := by
  obtain ⟨acts, hacts, heq⟩ := settleWithin_play s.work s
  rw [Session.settle, heq, now_internal hacts ht]

theorem tidy_settle (ht : s.Tidy) : s.settle.Tidy := by
  obtain ⟨acts, -, heq⟩ := settleWithin_play s.work s
  rw [Session.settle, heq]
  exact tidy_play ht acts

end Session

/-! ### How many timers can still go off -/

/-- How many timers a client can still set off. -/
def Client.timers : Client → Nat
  | .quitting _ _ => 2
  | .executing _ _ | .releasing _ _ => 1
  | _ => 0

theorem Client.timers_le (c : Client) : c.timers ≤ 2 * c.rank := by
  cases c <;> simp [Client.timers, Client.rank]

theorem Client.deadline?_of_timers (h : c.timers = 0) : c.deadline? = none := by
  cases c <;> simp_all [Client.timers, Client.deadline?]

theorem total_map_le {f g : Client → Nat} (h : ∀ c, f c ≤ g c) (clients : List Client) :
    total (clients.map f) ≤ total (clients.map g) := by
  induction clients with
  | nil => exact Nat.le_refl _
  | cons c clients ih =>
      have := h c
      simp only [List.map_cons, Session.total_cons]
      omega

theorem le_total_of_mem {f : Client → Nat} {clients : List Client} (h : c ∈ clients) :
    f c ≤ total (clients.map f) := by
  induction clients with
  | nil => cases h
  | cons b clients ih =>
      simp only [List.map_cons, Session.total_cons]
      rcases List.mem_cons.1 h with rfl | h
      · omega
      · have := ih h
        omega

namespace Session

variable {s s' : Session}

/-- **How many timers can still go off**: one that ends the session, and those of the clients. -/
def timers (s : Session) : Nat :=
  (if s.reason?.isSome then 0 else 1) + total (s.clients.map Client.timers)

theorem timers_le_deadlines (s : Session) : s.timers ≤ s.deadlines := by
  have hclients := total_map_le Client.timers_le s.clients
  unfold timers deadlines
  split <;> omega

theorem release_timers (s : Session) (result : Option Failure) :
    (s.release result).2.timers ≤ 1 := by
  unfold release
  split <;> simp [Client.timers]

theorem shut_timers (s : Session) : s.shut.2.timers = 0 := by
  unfold shut
  split <;> rfl

theorem clientStep_timers {c c' : Client} (h : s.clientStep? c = some (s', c')) :
    c'.timers ≤ c.timers := by
  cases clientStep?_eq_some h with
  | releases => exact Nat.le_trans (release_timers s _) (by simp [Client.timers])
  | shuts =>
      rw [shut_timers]
      exact Nat.zero_le _
  | returns | leaves | released | reaped | closed => simp [Client.timers]

theorem expireClient_timers {d : Nat} (hd : c.deadline? = some d) :
    (s.expireClient c).2.timers < c.timers := by
  cases c with
  | executing | releasing => simp [expireClient, Client.timers]
  | quitting call deadline =>
      have hrelease := release_timers (s.giveUp call) (some (.plain .deadlineExceeded))
      exact Nat.lt_of_le_of_lt hrelease (by simp [Client.timers])
  | leaving | reaping | shutting | closing | executed | hasQuit | hasClosed => cases hd

theorem reason?_perform (ht : s.Tidy) (a : Act) (h : s.reason?.isSome = true) :
    (s.perform a).reason?.isSome = true := by
  obtain ⟨r, hr⟩ := Option.isSome_iff_exists.1 h
  have := reason?_play ht hr [a]
  simpa using Option.isSome_iff_exists.2 ⟨r, this⟩

/-- What a session does by itself sets no timer that was not counted. -/
theorem timers_perform_le (ht : s.Tidy) {a : Act} (ha : ∀ e, a ≠ .event e) :
    (s.perform a).timers ≤ s.timers := by
  have hclients : total ((s.perform a).clients.map Client.timers) ≤
      total (s.clients.map Client.timers) := by
    rcases perform_clients s a with ⟨more, hmore, hcomes⟩ | ⟨i, c, s', c', -, hc, hstep, heq⟩ |
      ⟨i, c, d, -, hc, hd, -, heq⟩
    · have hnone : more = [] := by
        refine List.eq_nil_iff_forall_not_mem.2 ?_
        intro c hc
        obtain ⟨e, he, -⟩ := hcomes c hc
        exact ha e he
      exact Nat.le_of_eq (by rw [hmore, hnone, List.append_nil])
    · have hset := total_map_set (f := Client.timers) hc c'
      have := clientStep_timers hstep
      rw [heq]
      dsimp only
      omega
    · have hset := total_map_set (f := Client.timers) hc (s.expireClient c).2
      have := expireClient_timers (s := s) hd
      rw [heq]
      dsimp only
      omega
  have hover := reason?_perform ht a
  unfold timers
  cases hs : s.reason?.isSome <;> cases hs' : (s.perform a).reason?.isSome <;> simp_all
  omega

theorem timers_internal {acts : List Act} (h : Internal acts) (ht : s.Tidy) :
    (s.play acts).timers ≤ s.timers := by
  induction acts generalizing s with
  | nil => exact Nat.le_refl _
  | cons a acts ih =>
      have hfirst := timers_perform_le ht (h a (by simp))
      have hrest := ih (fun b hb => h b (by simp [hb])) (tidy_perform ht a)
      exact Nat.le_trans hrest hfirst

theorem timers_settle (ht : s.Tidy) : s.settle.timers ≤ s.timers := by
  obtain ⟨acts, hacts, heq⟩ := settleWithin_play s.work s
  rw [Session.settle, heq]
  exact timers_internal hacts ht

/-- **A timer that goes off is used up.** -/
theorem timers_expireAt (ht : s.Tidy) {time : Nat} (hnow : time ≤ s.now) (hdue : s.Due time)
    (hopen : s.worker.deadline? ≠ none → s.reason? = none) :
    (s.expireAt time).timers < s.timers := by
  rcases expireAt_cases hnow with ⟨call, hworker, heq⟩ | ⟨i, c, hc, hd, heq⟩ |
    ⟨hworker, hclients, -⟩
  · -- The command in flight has had its time, which ends the session.
    have hopen := hopen (by simp [hworker, Worker.deadline?])
    have hexpire : s.expireAt time = s.expire call := by
      rw [heq]
      simp [perform, timerAct, hworker, hnow]
    obtain ⟨b, hb⟩ := ht.call_of_waits (.inr ⟨_, hworker⟩)
    have hover : (s.expire call).reason?.isSome = true := by
      have := (expire_over hb).2
      rwa [← Option.isSome_iff_ne_none] at this
    rw [hexpire]
    simp [timers, (untouched_expire s call).clients, hover, hopen]
  · have hperform : s.expireAt time =
        { (s.expireClient c).1 with clients := s.clients.set i (s.expireClient c).2 } := by
      rw [heq]
      simp [perform, clientTimerAct, hc, hd, hnow]
    have hless := expireClient_timers (s := s) hd
    have hset := total_map_set (f := Client.timers) hc (s.expireClient c).2
    have hover := reason?_perform ht (.clientTimer i)
    rw [← heq] at hover
    have hclients : (s.expireAt time).clients = s.clients.set i (s.expireClient c).2 := by
      rw [hperform]
    unfold timers
    rw [hclients]
    cases hs : s.reason?.isSome <;> cases hs' : (s.expireAt time).reason?.isSome <;> simp_all <;>
      omega
  · rcases hdue with hdue | ⟨c, hc, hdue⟩
    · exact absurd hdue hworker
    · exact absurd hdue (hclients c hc)

/-- A session at rest in which a command is in flight is not over. -/
theorem open_of_deadline (ht : s.Tidy) (hquiet : s.move? = none) (h : s.worker.deadline? ≠ none) :
    s.reason? = none := by
  by_contra hover
  rw [off_of_quiet ht hover (quiet_parts hquiet).1 (quiet_parts hquiet).2.1] at h
  exact h rfl

theorem not_due_of_timers (ht : s.Tidy) (hquiet : s.move? = none) (h : s.timers = 0) (time : Nat) :
    ¬ s.Due time := by
  unfold timers at h
  rintro (hdue | ⟨c, hc, hdue⟩)
  · simp [open_of_deadline ht hquiet (by simp [hdue])] at h
  · have hle := le_total_of_mem (f := Client.timers) hc
    rw [Client.deadline?_of_timers (by omega)] at hdue
    cases hdue

/-- **When a deadline is reached, fewer timers are left**, and the session comes to rest again. -/
theorem timers_reach (ht : s.Tidy) (hquiet : s.move? = none) {time : Nat} (hdue : s.Due time) :
    let t := ({ s with now := max s.now time }.expireAt time).settle
    t.Tidy ∧ t.move? = none ∧ t.now = max s.now time ∧ t.timers < s.timers := by
  intro t
  obtain ⟨acts, -, hreached, hclock⟩ := reach_deadline_play ht time
  have hplay : t = s.play acts := hreached
  have hbefore : Tidy { s with now := max s.now time } :=
    ⟨ht.sorted, ht.queued, ht.emptied, ht.awaited, ht.staged.announced, ht.staged.off,
      ht.staged.launching, ht.staged.greeting⟩
  obtain ⟨expire, -, hexpired⟩ := expireAt_play
    (s := { s with now := max s.now time }) (Nat.le_max_right s.now time)
  have hless := timers_expireAt hbefore (Nat.le_max_right s.now time) hdue
    fun hflight => open_of_deadline (s := s) ht hquiet hflight
  have hsettled := timers_settle (hexpired ▸ tidy_play hbefore expire)
  refine ⟨?_, quiet_settle _, ?_, Nat.lt_of_le_of_lt hsettled hless⟩
  · rw [hplay]
    exact tidy_play ht acts
  · rw [hplay, hclock]

/-! ### All deadlines are ahead -/

/-- **When time has passed, all deadlines up to then were reached.** -/
theorem advanceWithin_ahead (fuel target : Nat) (ht : s.Tidy) (hquiet : s.move? = none)
    (hnow : s.now ≤ target) (hfuel : s.timers ≤ fuel) :
    (advanceWithin fuel target s).Ahead target ∧ (advanceWithin fuel target s).now = target := by
  have hjump (s : Session) (hlater : ∀ time, s.Due time → target < time) :
      Ahead target { s with now := target } ∧ ({ s with now := target }).now = target :=
    ⟨⟨Nat.le_refl _, hlater⟩, rfl⟩
  induction fuel generalizing s with
  | zero =>
      refine hjump s fun time hdue => ?_
      exact absurd hdue (not_due_of_timers ht hquiet (Nat.le_zero.1 hfuel) time)
  | succ fuel ih =>
      unfold advanceWithin
      split
      · rename_i time hnext
        obtain ⟨hdue, hfirst⟩ := nextDeadline?_eq_some hnext
        split
        · rename_i hle
          obtain ⟨htidy, hrest, hclock, hless⟩ := timers_reach ht hquiet hdue
          refine ih htidy hrest ?_ (by omega)
          rw [hclock]
          exact Nat.max_le.2 ⟨hnow, hle⟩
        · rename_i hlate
          refine hjump s fun x hx => ?_
          have := hfirst x hx
          omega
      · rename_i hnext
        exact hjump s fun x hx => absurd hx (nextDeadline?_eq_none hnext x)

/-- Where nobody's time is up, only the clock moves. -/
theorem advanceWithin_of_later {target : Nat} (h : ∀ time, s.Due time → target < time) (fuel : Nat)
    :
    advanceWithin fuel target s = { s with now := target } := by
  cases fuel with
  | zero => rfl
  | succ fuel =>
      unfold advanceWithin
      split
      · rename_i time hnext
        exact if_neg (Nat.not_le.2 (h time (nextDeadline?_eq_some hnext).1))
      · rfl

/-- The bound on the number of deadlines does not matter. -/
theorem advanceWithin_fuel {fuel fuel' : Nat} (target : Nat) (ht : s.Tidy) (hquiet : s.move? = none)
    (hfuel : s.timers ≤ fuel) (hfuel' : s.timers ≤ fuel') :
    advanceWithin fuel target s = advanceWithin fuel' target s := by
  have hnone (s : Session) (ht : s.Tidy) (hquiet : s.move? = none) (h : s.timers = 0) (n m : Nat) :
      advanceWithin n target s = advanceWithin m target s := by
    have hlater : ∀ time, s.Due time → target < time :=
      fun time hdue => absurd hdue (not_due_of_timers ht hquiet h time)
    rw [advanceWithin_of_later hlater, advanceWithin_of_later hlater]
  induction fuel generalizing s fuel' with
  | zero => exact hnone s ht hquiet (by omega) _ _
  | succ fuel ih =>
      cases fuel' with
      | zero => exact hnone s ht hquiet (by omega) _ _
      | succ fuel' =>
          unfold advanceWithin
          split
          · rename_i time hnext
            split
            · obtain ⟨htidy, hrest, -, hless⟩ :=
                timers_reach ht hquiet (nextDeadline?_eq_some hnext).1
              exact ih htidy hrest (by omega) (by omega)
            · rfl
          · rfl

/-- **Nothing can move, and all deadlines are ahead.** -/
structure Still (s : Session) : Prop where
  quiet : s.move? = none
  ahead : ∀ time, s.Due time → s.now < time

theorem still_iff :
    s.Still ↔ s.move? = none ∧ ∀ time, s.nextDeadline? = some time → s.now < time := by
  refine ⟨fun h => ⟨h.quiet, fun time hnext => h.ahead time (nextDeadline?_eq_some hnext).1⟩, ?_⟩
  rintro ⟨hquiet, hnext⟩
  refine ⟨hquiet, fun time hdue => ?_⟩
  cases hfirst : s.nextDeadline? with
  | none => exact absurd hdue (nextDeadline?_eq_none hfirst time)
  | some first =>
      exact Nat.lt_of_lt_of_le (hnext first hfirst) ((nextDeadline?_eq_some hfirst).2 time hdue)

instance (s : Session) : Decidable s.Still :=
  decidable_of_iff (s.move? = none ∧ ∀ time ∈ s.nextDeadline?, s.now < time) still_iff.symm

theorem still_new (options : Options) : (new options).Still :=
  ⟨rfl, by simp [Due, new, Worker.deadline?]⟩

theorem Ahead.still_settle (h : s.Ahead s.now) (ht : s.Tidy) : s.settle.Still := by
  refine ⟨quiet_settle s, ?_⟩
  rw [now_settle ht]
  exact (h.settle ht).2

/-- One event later all deadlines are ahead again. -/
theorem Still.step (h : s.Still) (ht : s.Tidy) (e : Event) :
    (s.step e).Still ∧ (s.step e).Tidy := by
  obtain ⟨acts, happly, -⟩ := apply_play ht e
  have htidy : (s.apply e).Tidy := happly ▸ tidy_play ht acts
  refine ⟨Ahead.still_settle ?_ htidy, tidy_settle htidy⟩
  by_cases hpass : ∃ time, e = .pass time
  · obtain ⟨time, rfl⟩ := hpass
    obtain ⟨hahead, hclock⟩ := advanceWithin_ahead s.deadlines (s.now + time) ht h.quiet
      (Nat.le_add_right _ _) (timers_le_deadlines s)
    have happlied : s.apply (.pass time) = advanceWithin s.deadlines (s.now + time) s := rfl
    rwa [happlied, hclock]
  · have hperform := perform_event (fun time heq => hpass ⟨time, heq⟩) s
    have hclock := perform_now ht (a := .event e)
      fun time heq => hpass ⟨time, by simpa using heq⟩
    rw [← hperform, hclock]
    exact Ahead.perform ⟨Nat.le_refl _, h.ahead⟩ ht _

/-- **After every run all deadlines are ahead.** -/
theorem still_run (options : Options) (events : List Event) : ((new options).run events).Still := by
  have hrun : ∀ s : Session, s.Still → s.Tidy → (s.run events).Still := by
    induction events with
    | nil => exact fun s h _ => h
    | cons e events ih =>
        intro s h ht
        obtain ⟨hstill, htidy⟩ := h.step ht e
        exact ih (s.step e) hstill htidy
  exact hrun _ (still_new options) (tidy_new options)

end Session

end ReplBridge.Repl
