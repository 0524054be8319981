import ReplBridge.Proofs.Repl.Session.Timers
import ReplBridge.Proofs.Repl.Session.Unseen

/-!
**Runs behind a veil.**

An event does behind a veil what it does before it, unless it is that someone gives up on the hidden
call; that is not seen.  Timers go off behind the veil as they do before it, unless it is the timer
of the hidden client.  So a run behind a veil is the run of what is seen of its events.

Main definitions:

* `Veil.event` — what is seen of an event.

Main results:

* `Session.behind_apply` — an event behind a veil;
* `Session.behind_expireAt`, `Session.behind_advanceWithin` — the passing of time behind a veil;
* `Session.behind_run` — **a run behind a veil is the run of what is seen**.
-/

set_option autoImplicit false

namespace ReplBridge.Repl

namespace Session

variable {v : Veil}

/-! ### Events behind a veil -/

theorem behind_submit {s : Session} (hv : v.Hides s) (hn : s.Numbered) (command : Bytes)
    (last : Bool) : (s.submit command last).behind v = (s.behind v).submit command last := by
  have hlt := hv.call_lt hn
  have hseen : ¬ v.Covers s.calls.length := by
    rintro ⟨hwhole, heq⟩
    exact Nat.lt_irrefl _ (heq ▸ hlt hwhole)
  cases hr : s.reason? with
  | some r =>
      have hstate := state_of_reason? hr
      simp [submit, behind, hstate, Veil.calls_append hlt, Veil.entry]
  | none =>
      have hcount : v.index (s.accepted + 1) = v.index s.accepted + 1 :=
        Veil.index_succ fun hwhole => hv.accepted hwhole
      rw [submit_open hr, submit_open (s := s.behind v) hr]
      simp [behind, Veil.calls_append hlt, Veil.queue_concat hseen, Veil.length_calls hlt, hcount,
        Veil.entry, Veil.number_succ]

theorem behind_join {s : Session} (h : ∀ k, v.place = some k → k < s.clients.length)
    (c : Client) : (s.join c).behind v = (s.behind v).join (v.client c) := by
  simp [join, behind, Veil.clients_append h]

theorem behind_start (s : Session) : s.start.behind v = (s.behind v).start := by
  unfold start
  rw [behind_state]
  split
  · rw [behind_emit]
    rfl
  · rfl

theorem behind_launch (s : Session) : s.launch.behind v = (s.behind v).launch := by
  dsimp only [launch]
  rw [behind_launching, behind_options]
  split
  · split
    · rw [behind_terminate]
      rfl
    · rw [behind_terminate]
      rfl
    · rfl
  · rfl

theorem behind_abandon {i : Nat} (h : i ≠ v.call) (s : Session) :
    (s.abandon i).behind v = (s.behind v).abandon (v.index i) := by
  unfold abandon
  rw [behind_outcome? (Veil.not_covers_of_ne h)]
  split
  · rfl
  · exact behind_giveUp h s

theorem behind_abandon_call (s : Session) : (s.abandon v.call).behind v = s.behind v := by
  unfold abandon
  split
  · rfl
  · exact behind_giveUp_call s

end Session

/-- **What is seen of an event.** -/
def Veil.event (v : Veil) : Event → Option Event
  | .abandon i => if i = v.call then none else some (.abandon (v.index i))
  | e => some e

namespace Session

variable {s : Session}

variable {v : Veil}

/-- **An event does behind a veil what it does before it.** -/
theorem behind_apply (hv : v.Hides s) (hn : s.Numbered) {e e' : Event} (he : v.event e = some e')
    (hpass : ∀ time, e ≠ .pass time) : (s.apply e).behind v = (s.behind v).apply e' := by
  have hlength : (s.behind v).calls.length = v.index s.calls.length :=
    Veil.length_calls (hv.call_lt hn)
  have hjoin {t : Session} (ht : s.Unmoved t) (c : Client) :
      (t.join c).behind v = (t.behind v).join (v.client c) := by
    refine behind_join ?_ c
    intro k hk
    obtain ⟨b, hb, -⟩ := hv.seated k hk
    rw [ht.clients]
    exact (List.getElem?_eq_some_iff.1 hb).1
  cases e with
  | abandon i =>
      simp only [Veil.event] at he
      split at he
      · cases he
      · rename_i hi
        cases he
        exact behind_abandon hi s
  | pass time => exact absurd rfl (hpass time)
  | start =>
      cases he
      exact behind_start s
  | launch =>
      cases he
      exact behind_launch s
  | submit command =>
      cases he
      exact behind_submit hv hn command false
  | execute command limit =>
      cases he
      simp only [apply]
      rw [hjoin (unmoved_submit s command false), behind_submit hv hn, hlength]
      rfl
  | quit command limit =>
      cases he
      simp only [apply, quit, behind_state]
      split
      · rw [hjoin (.refl s)]
        rfl
      · rw [hjoin (unmoved_submit s command true), behind_submit hv hn, hlength]
        rfl
  | close =>
      cases he
      simp only [apply, close]
      rw [hjoin (unmoved_terminate s (.plain .closed)), behind_terminate]
      rfl
  | output text =>
      cases he
      cases hended : s.child.stdoutEnded <;> simp [apply, write, behind, hended]
  | complaint text =>
      cases he
      cases hexit : s.child.exit <;> simp [apply, complain, behind, hexit]
  | exit status =>
      cases he
      exact behind_childExits s status
  | breakStdin cause | breakStdout =>
      cases he
      rfl

/-! ### Time behind a veil -/

/-- What a client does whose time may be up. -/
def timeUp? (s : Session) (time : Nat) (c : Client) : Option (Session × Client) :=
  if c.deadline? = some time then some (s.expireClient c) else none

theorem timeUp?_eq_some {time : Nat} {c : Client} {p : Session × Client} :
    s.timeUp? time c = some p ↔ c.deadline? = some time ∧ s.expireClient c = p := by
  simp [timeUp?]

theorem expireFrom?_eq_firstMove (s : Session) (time : Nat) (before rest : List Client) :
    s.expireFrom? time before rest = firstMove (s.timeUp? time) before rest := by
  induction rest generalizing before with
  | nil => rfl
  | cons c rest ih =>
      by_cases hdue : c.deadline? = some time
      · simp [expireFrom?, firstMove, timeUp?, hdue]
      · simp [expireFrom?, firstMove, timeUp?, hdue, ih]

theorem due_of_behind {time : Nat} (h : (s.behind v).Due time) : s.Due time := by
  rcases h with hworker | ⟨c', hc', hdue⟩
  · exact .inl (by simpa [behind] using hworker)
  · obtain ⟨c, hc, rfl⟩ := Veil.mem_clients hc'
    exact .inr ⟨c, hc, by simpa using hdue⟩

theorem expireAt_of_worker {time : Nat} (h : s.worker.deadline? ≠ some time) :
    s.expireAt time = (firstMove (s.timeUp? time) [] s.clients).getD s := by
  rw [← expireFrom?_eq_firstMove]
  unfold expireAt
  split
  · rename_i call deadline hworker
    have hlater : ¬ deadline = some time := by simpa [hworker, Worker.deadline?] using h
    simp [hlater]
  · rfl

/-- **Whoever's time is up acts behind a veil as well**, unless it is the hidden client. -/
theorem behind_expireAt (h : s.Reached) (hv : v.Hides s) (huntimed : v.Untimed s)
    (htorn : ¬ v.Torn s) {time : Nat} (hdue : s.Due time) :
    ((s.behind v).Due time ∧ (s.expireAt time).behind v = (s.behind v).expireAt time) ∨
      v.place ≠ none ∧ (s.expireAt time).behind v = s.behind v := by
  have hsame : (s.behind v).worker.deadline? = s.worker.deadline? := by simp [behind]
  by_cases hworker : s.worker.deadline? = some time
  · refine .inl ⟨.inl (hsame.trans hworker), ?_⟩
    obtain ⟨call, hflight⟩ : ∃ call, s.worker = .awaiting call (some time) := by
      cases hw : s.worker with
      | awaiting call deadline => exact ⟨call, by simp_all [Worker.deadline?]⟩
      | off | greeting | idle => simp [hw, Worker.deadline?] at hworker
    have hseen : ¬ v.Covers call := not_covers_awaited h htorn hflight
    have hflight' : (s.behind v).worker = .awaiting (v.index call) (some time) := by
      simp [behind, hflight, Veil.worker]
    simp [expireAt, hflight, hflight', behind_expire hseen]
  · -- It is a client whose time is up.
    have hclients : (s.behind v).clients = v.clients s.clients := rfl
    rw [expireAt_of_worker hworker, expireAt_of_worker (hsame ▸ hworker), hclients]
    have hfirst := behind_firstMove (v := v) (f := s.timeUp? time) (g := (s.behind v).timeUp? time)
      (s := s) ?_ ?_
    · cases hmove : firstMove (s.timeUp? time) [] s.clients with
      | none =>
          obtain ⟨c, hc, hctime⟩ := hdue.resolve_left hworker
          have := firstMove_eq_none.1 hmove c hc
          simp [timeUp?, hctime] at this
      | some s' =>
          rcases hfirst.2 s' hmove with hmove' | ⟨hplace, hunseen⟩
          · refine .inl ⟨.inr ?_, by simp [hmove']⟩
            obtain ⟨i, c, p, hc, hp, -⟩ := firstMove_eq_some.1 hmove'
            exact ⟨c, List.mem_of_getElem? hc, (timeUp?_eq_some.1 hp).1⟩
          · exact .inr ⟨hplace, by simpa using hunseen⟩
    · intro j c hc hj
      unfold timeUp?
      rw [Veil.client_deadline?]
      split
      · rename_i hctime
        have hcall : c.call? ≠ some v.call :=
          fun hcall => hj (huntimed j c hc hcall (by simp [hctime]))
        simp [behind_expireClient hcall]
      · rfl
    · intro k c p hc hk hp
      obtain ⟨hctime, rfl⟩ := timeUp?_eq_some.1 hp
      rcases hv.hidden hk hc with ⟨deadline, rfl⟩ | ⟨o, rfl⟩
      · exact behind_giveUp_call s
      · cases hctime

/-- Whether anything can move does not depend on the time. -/
theorem quiet_clock (h : s.move? = none) (n : Nat) :
    ({ s with now := n } : Session).move? = none := by
  obtain ⟨ha, hw, hp, hc⟩ := quiet_parts h
  have hclient : s.clientMove? = none := by simpa [move?, ha, hw, hp, hc] using h
  have hreason : ({ s with now := n } : Session).reason? = s.reason? := rfl
  have hheard : ({ s with now := n } : Session).announced? = s.announced? := rfl
  have hannounce : ({ s with now := n } : Session).announce? = none := by
    unfold announce? at ha ⊢
    simp only [hreason]
    split at ha <;> simp_all
  have hworker : ({ s with now := n } : Session).workerMove? = none := by
    unfold workerMove? at hw ⊢
    cases hworker : s.worker with
    | off => rfl
    | greeting | idle | awaiting =>
        simp only [hworker] at hw ⊢
        split at hw <;> simp_all [offered?]
  have hpump : ({ s with now := n } : Session).pumpMove? = none := by
    have hsame : ({ s with now := n } : Session).pumpMove? =
        s.pumpMove?.map fun t => { t with now := n } := by
      dsimp only [pumpMove?]
      rw [hheard]
      split
      · rfl
      · split <;> rfl
      · split
        · rfl
        · split <;> rfl
      · split <;> rfl
      · rfl
    rw [hsame, hp]
    rfl
  have hcomplaints : ({ s with now := n } : Session).complaintsMove? = none := by
    have hsame : ({ s with now := n } : Session).complaintsMove? =
        s.complaintsMove?.map fun t => { t with now := n } := by
      dsimp only [complaintsMove?]
      split <;> rfl
    rw [hsame, hc]
    rfl
  have hclients : ({ s with now := n } : Session).clientMove? = none := by
    rw [clientMove?, clientMoveFrom?_eq_firstMove] at hclient ⊢
    refine firstMove_eq_none.2 fun c hmem => ?_
    have hnone := firstMove_eq_none.1 hclient c hmem
    cases c with
    | executing | quitting => exact Option.map_eq_none_iff.2 (Option.map_eq_none_iff.1 hnone)
    | releasing | reaping | closing =>
        have hgone : ¬ s.childGone = true := by simpa [clientStep?] using hnone
        exact if_neg hgone
    | leaving | shutting => cases hnone
    | executed | hasQuit | hasClosed => rfl
  simp only [move?, hannounce, hworker, hpump, hcomplaints, hclients]

/-- The clock may be moved up to the next deadline beforehand. -/
theorem advanceWithin_clock {time : Nat} (h : ∀ x, s.Due x → time ≤ x) (fuel target : Nat) :
    advanceWithin fuel target { s with now := max s.now time } = advanceWithin fuel target s := by
  have hnext : ({ s with now := max s.now time } : Session).nextDeadline? = s.nextDeadline? := rfl
  cases fuel with
  | zero => rfl
  | succ fuel =>
      simp only [advanceWithin, hnext]
      cases hfirst : s.nextDeadline? with
      | none => rfl
      | some x =>
          have hle := h x (nextDeadline?_eq_some hfirst).1
          have hmax : max (max s.now time) x = max s.now x := by omega
          simp only [hmax]

/-- **Time passes behind a veil as it does before it.** -/
theorem behind_advanceWithin {fuel fuel' target : Nat} (hv : v.Veiled s) (hquiet : s.move? = none)
    (hnow : s.now ≤ target) (hfuel : s.timers ≤ fuel) (hfuel' : fuel ≤ fuel')
    (htorn : ¬ v.Torn (advanceWithin fuel target s)) :
    (advanceWithin fuel target s).behind v = advanceWithin fuel' target (s.behind v) := by
  have hlater (s : Session) (hs : ∀ time, s.Due time → target < time) (n m : Nat) :
      (advanceWithin n target s).behind v = advanceWithin m target (s.behind v) := by
    rw [advanceWithin_of_later hs,
      advanceWithin_of_later fun time hdue => hs time (due_of_behind hdue)]
    rfl
  induction fuel generalizing s fuel' with
  | zero =>
      refine hlater s (fun time hdue => ?_) _ _
      exact absurd hdue (not_due_of_timers hv.reached.tidy hquiet (by omega) time)
  | succ fuel ih =>
      cases hnext : s.nextDeadline? with
      | none => exact hlater s (fun time hdue => absurd hdue (nextDeadline?_eq_none hnext time)) _ _
      | some time =>
          obtain ⟨hdue, hfirst⟩ := nextDeadline?_eq_some hnext
          by_cases hle : time ≤ target
          · -- The session when the deadline is reached, and when it has settled again.
            let u : Session := { s with now := max s.now time }
            have hvu : v.Veiled u := hv.leads (leads_clock (Nat.le_max_left _ _))
            have hexpire : u.Leads (u.expireAt time) := leads_expireAt (Nat.le_max_right _ _)
            have hve : v.Veiled (u.expireAt time) := hvu.leads hexpire
            have hvt : v.Veiled (u.expireAt time).settle := hve.leads (leads_settle _)
            obtain ⟨-, hrest, hclock, hless⟩ := timers_reach hv.reached.tidy hquiet hdue
            have hfew : (u.expireAt time).settle.timers ≤ fuel :=
              Nat.le_of_lt_succ (Nat.lt_of_lt_of_le hless hfuel)
            have hnow' : (u.expireAt time).settle.now ≤ target := by
              rw [hclock]
              omega
            have hstep : advanceWithin (fuel + 1) target s =
                advanceWithin fuel target (u.expireAt time).settle := by
              simp [advanceWithin, hnext, hle, u]
            rw [hstep] at htorn ⊢
            -- A veil that is not torn in the end was never torn.
            have htornt : ¬ v.Torn (u.expireAt time).settle := fun h =>
              htorn (h.leads hvt.reached (leads_advanceWithin fuel hvt.reached.tidy hnow'))
            have htorne : ¬ v.Torn (u.expireAt time) :=
              fun h => htornt (h.leads hve.reached (leads_settle _))
            have htornu : ¬ v.Torn u := fun h => htorne (h.leads hvu.reached hexpire)
            have hsettled := behind_settle hve htornt
            rcases behind_expireAt hvu.reached hvu.toHides hvu.untimed htornu hdue with
              ⟨hdue', hexpired⟩ | ⟨-, hunseen⟩
            · have hnext' : (s.behind v).nextDeadline? = some time :=
                nextDeadline?_of_first hdue' fun x hx => hfirst x (due_of_behind hx)
              cases fuel' with
              | zero => omega
              | succ fuel' =>
                  have hstep' : advanceWithin (fuel' + 1) target (s.behind v) =
                      advanceWithin fuel' target ((u.behind v).expireAt time).settle := by
                    simp only [advanceWithin, hnext', hle, if_true]
                    rfl
                  rw [ih hvt hrest hnow' hfew (by omega : fuel ≤ fuel') htorn, hsettled, hexpired,
                    hstep']
            · have hquiet' : (u.behind v).move? = none :=
                behind_quiet hvu.reached hvu.toHides htornu (quiet_clock hquiet _)
              rw [ih hvt hrest hnow' hfew (by omega : fuel ≤ fuel') htorn, hsettled, hunseen,
                settle_of_quiet hquiet']
              exact advanceWithin_clock (fun x hx => hfirst x (due_of_behind hx)) _ _
          · refine hlater s (fun x hx => ?_) _ _
            have := hfirst x hx
            omega

/-! ### Runs behind a veil -/

/-- The order of queue and worker is seen behind a veil. -/
theorem Tidy.behind (h : s.Tidy) (hlt : v.call < s.calls.length)
    (hworker : ∀ call deadline, s.worker = .awaiting call deadline → ¬ v.Covers call) :
    (s.behind v).Tidy := by
  have hlength : (s.behind v).calls.length = v.index s.calls.length :=
    Veil.length_calls fun _ => hlt
  have hend : ¬ v.Covers s.calls.length := Veil.not_covers_of_ne (Nat.ne_of_gt hlt)
  refine ⟨Veil.pairwise_queue h.sorted, ?_, ?_, ?_, ?_⟩
  · intro q' hq'
    obtain ⟨q, hq, hseen, rfl⟩ := Veil.mem_queue hq'
    rw [hlength]
    exact Veil.index_lt hseen hend (h.queued q hq)
  · intro hover
    have hqueue : (s.behind v).queue = v.queue s.queue := rfl
    rw [hqueue, h.emptied hover, Veil.queue_nil]
  · intro call' deadline hworker'
    obtain ⟨call, rfl, hflight⟩ :
        ∃ call, v.index call = call' ∧ s.worker = .awaiting call deadline := by
      cases hw : s.worker with
      | awaiting call d =>
          simp only [Session.behind, hw, Veil.worker, Worker.awaiting.injEq] at hworker'
          exact ⟨call, hworker'.1, by rw [hworker'.2]⟩
      | off | greeting | idle => simp [Session.behind, hw, Veil.worker] at hworker'
    have hseen := hworker call deadline hflight
    obtain ⟨hcall, hbefore⟩ := h.awaited call deadline hflight
    rw [hlength]
    refine ⟨Veil.index_lt hseen hend hcall, ?_⟩
    intro q' hq'
    obtain ⟨q, hq, hq'seen, rfl⟩ := Veil.mem_queue hq'
    exact Veil.index_lt hseen hq'seen (hbefore q hq)
  · -- A veil hides nothing of how the session was started and how it ends.
    have hsame : (s.behind v).worker = v.worker s.worker := rfl
    refine ⟨h.staged.announced, ?_, h.staged.launching, ?_⟩
    · intro hearly
      rw [hsame, h.staged.off hearly]
      rfl
    · intro hgreeting
      refine h.staged.greeting ?_
      cases hw : s.worker with
      | greeting => rfl
      | off | idle | awaiting => rw [hsame, hw] at hgreeting; cases hgreeting

/-- **An event and all that follows from it is the same behind a veil**, or not seen there. -/
theorem behind_step (hv : v.Veiled s) (hquiet : s.move? = none) (e : Event)
    (htorn : ¬ v.Torn (s.step e)) :
    (s.step e).behind v = (v.event e).elim (s.behind v) (s.behind v).step := by
  have happly := leads_apply hv.reached.tidy e
  have hva : v.Veiled (s.apply e) := hv.leads happly
  have htorna : ¬ v.Torn (s.apply e) := fun h => htorn (h.leads hva.reached (leads_settle _))
  have htorns : ¬ v.Torn s := fun h => htorna (h.leads hv.reached happly)
  have hquiet' := behind_quiet hv.reached hv.toHides htorns hquiet
  have hsettled : (s.step e).behind v = ((s.apply e).behind v).settle := behind_settle hva htorn
  rw [hsettled]
  by_cases hpass : ∃ time, e = .pass time
  · obtain ⟨time, rfl⟩ := hpass
    have htidy : (s.behind v).Tidy := hv.reached.tidy.behind hv.submitted
      fun _ _ => not_covers_awaited hv.reached htorns
    have hadvance : (s.advance time).behind v = (s.behind v).advance time := by
      rw [advance, behind_advanceWithin hv hquiet (Nat.le_add_right _ _) (timers_le_deadlines s)
        (Nat.le_max_left s.deadlines (s.behind v).deadlines) htorna]
      exact advanceWithin_fuel _ htidy hquiet'
        (Nat.le_trans (timers_le_deadlines _) (Nat.le_max_right _ _)) (timers_le_deadlines _)
    exact congrArg Session.settle hadvance
  · have hpass' : ∀ time, e ≠ .pass time := fun time he => hpass ⟨time, he⟩
    cases he : v.event e with
    | some e' => rw [behind_apply hv.toHides hv.reached.numbered he hpass']; rfl
    | none =>
        obtain rfl : e = .abandon v.call := by
          cases e with
          | abandon i =>
              simp only [Veil.event] at he
              split at he
              · rename_i hi
                rw [hi]
              · cases he
          | _ => cases he
        rw [show s.apply (.abandon v.call) = s.abandon v.call from rfl, behind_abandon_call,
          settle_of_quiet hquiet']
        rfl

/-- **A run behind a veil is the run of what is seen.** -/
theorem behind_run (hv : v.Veiled s) (hquiet : s.move? = none) (events : List Event)
    (htorn : ¬ v.Torn (s.run events)) :
    (s.run events).behind v = (s.behind v).run (events.filterMap v.event) := by
  induction events generalizing s with
  | nil => rfl
  | cons e events ih =>
      have hv' : v.Veiled (s.step e) := hv.leads (leads_run hv.reached.tidy [e])
      have htorn' : ¬ v.Torn (s.step e) :=
        fun h => htorn (h.leads hv'.reached (leads_run hv'.reached.tidy events))
      have hone := behind_step hv hquiet e htorn'
      have hrest : (s.run (e :: events)).behind v =
          ((s.step e).behind v).run (events.filterMap v.event) := ih hv' (quiet_settle _) htorn
      rw [hrest, hone]
      cases he : v.event e with
      | none => simp [he]
      | some e' => simp [he, run]

end Session

end ReplBridge.Repl
