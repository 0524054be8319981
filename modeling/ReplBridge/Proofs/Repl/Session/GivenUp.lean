import ReplBridge.Proofs.Repl.Session.Release
import ReplBridge.Proofs.Repl.Session.UnseenRun

/-!
**Who gives up on a call.**

A caller gives up on a call by saying so, or by letting the time pass until which they wait.
Nothing else makes a call given up; and a call that was taken from the queue before that is a call
whose command was written, for one that could not be written has its outcome already.

Main definitions:

* `Veil.flag` — the veil that hides only that the caller of a call gave up.

Main results:

* `Session.run_induction` — **what moves, timers and events keep, a run keeps**;
* `Session.not_givenUp_run` — a call on which nobody may give up is not given up;
* `Session.reached_clients` — whoever waits for a call waits for one that was submitted;
* `Session.sent_of_givenUp` — **a call that was given up and taken was written**.
-/

set_option autoImplicit false

namespace ReplBridge.Repl

/-! ### Veils over a flag -/

namespace Veil

/-- Only that the caller of a call gave up is hidden. -/
def flag (x : Nat) : Veil := ⟨x, false, none⟩

variable {v : Veil}

theorem worker_of_half (h : v.whole = false) (w : Worker) : v.worker w = w := by
  cases w <;> simp [Veil.worker, index_of_half h]

theorem client_of_half (h : v.whole = false) : v.client = id := by
  funext c
  cases c <;> simp [client, index_of_half h]

theorem effect_of_half (h : v.whole = false) : v.effect = id := by
  funext e
  cases e <;> simp [effect, number_of_half h]

theorem not_covers_of_half (h : v.whole = false) (i : Nat) : ¬ v.Covers i := by
  simp [Covers, h]

/-- While the caller waits there is nothing to notice. -/
theorem not_torn_of_waiting {s : Session} (hhalf : v.whole = false) (h : ¬ s.GivenUp v.call) :
    ¬ v.Torn s := by
  rintro (⟨hwhole, -⟩ | ⟨-, hgone, -⟩)
  · rw [hhalf] at hwhole
    cases hwhole
  · exact h hgone

/-- Once the command was written there is nothing to notice any more. -/
theorem not_torn_of_sent {s : Session} (hhalf : v.whole = false) (hr : s.Reached)
    (h : s.Sent v.call) : ¬ v.Torn s := by
  rintro (⟨hwhole, -⟩ | ⟨-, -, hfree⟩)
  · rw [hhalf] at hwhole
    cases hwhole
  · exact hfree (h.taken hr)

theorem hides_flag (s : Session) (x : Nat) : (flag x).Hides s :=
  ⟨by simp [flag], by simp [flag], by simp [flag]⟩

end Veil

namespace Session

variable {s s' t : Session}

/-- Where nobody gave up, nothing is hidden. -/
theorem behind_flag {x : Nat} : s.behind (.flag x) = s ↔ ¬ s.GivenUp x := by
  have hhalf : (Veil.flag x).whole = false := rfl
  refine ⟨?_, ?_⟩
  · intro heq hgone
    obtain ⟨c, hc, habandoned⟩ := givenUp_iff.1 hgone
    have hseen := behind_getElem? (Veil.not_covers_of_half hhalf x) s
    rw [heq, Veil.index_of_half hhalf, hc] at hseen
    have hflag : c.abandoned = ((Veil.flag x).entry x c).abandoned :=
      congrArg Call.abandoned (Option.some.inj hseen)
    simp [Veil.entry, Veil.flag, habandoned] at hflag
  · intro hwaits
    have hentry : ∀ i c, s.calls[i]? = some c → (Veil.flag x).entry i c = c := by
      intro i c hc
      refine Veil.entry_eq_self (Veil.number_of_half hhalf _) ?_
      rintro rfl
      simpa [GivenUp, Veil.flag, hc] using hwaits
    have hcalls : (Veil.flag x).calls s.calls = s.calls := by
      simp only [Veil.calls, hhalf, Bool.false_eq_true, if_false]
      exact Veil.mapIdx_entry_eq_self hentry
    have hclients : (Veil.flag x).clients s.clients = s.clients := by
      have hplace : (Veil.flag x).place = none := rfl
      simp [Veil.clients, hplace, Veil.client_of_half hhalf]
    have hlog : s.log.map (Veil.flag x).effect = s.log := by
      simp [Veil.effect_of_half hhalf]
    simp [behind, hcalls, hclients, hlog, Veil.queue, hhalf, Veil.index_of_half hhalf,
      Veil.worker_of_half hhalf]

/-! ### What a run keeps -/

theorem settle_induction {P : Session → Prop}
    (hmove : ∀ {s s' : Session}, s.Reached → P s → s.move? = some s' → P s') (hr : s.Reached)
    (h : P s) : P s.settle := by
  have hwithin : ∀ (fuel : Nat) (s : Session), s.Reached → P s → P (settleWithin fuel s) := by
    intro fuel
    induction fuel with
    | zero => exact fun s _ h => h
    | succ fuel ih =>
        intro s hr h
        cases hnext : s.move? with
        | none => simpa [settleWithin, hnext] using h
        | some s' =>
            simpa [settleWithin, hnext] using ih s' (hr.leads (leads_move hnext)) (hmove hr h hnext)
  exact hwithin s.work s hr h

/-- What moves, timers and the clock keep, the passing of time keeps.  Timers go off only when
nothing can move. -/
theorem advance_induction {P : Session → Prop}
    (hmove : ∀ {s s' : Session}, s.Reached → P s → s.move? = some s' → P s')
    (hclock : ∀ {s : Session} {n : Nat}, s.Reached → s.now ≤ n → P s → P { s with now := n })
    (hexpire : ∀ {s : Session} {time : Nat}, s.Reached → s.move? = none → s.Due time →
      time ≤ s.now → P s → P (s.expireAt time)) (fuel : Nat) {target : Nat} (hr : s.Reached)
    (hquiet : s.move? = none) (hnow : s.now ≤ target) (h : P s) :
    P (advanceWithin fuel target s) := by
  induction fuel generalizing s with
  | zero => exact hclock hr hnow h
  | succ fuel ih =>
      unfold advanceWithin
      split
      · rename_i time hnext
        obtain ⟨hdue, -⟩ := nextDeadline?_eq_some hnext
        split
        · rename_i hle
          have hru : Reached { s with now := max s.now time } :=
            hr.leads (leads_clock (Nat.le_max_left s.now time))
          have hre := hru.leads (leads_expireAt (Nat.le_max_right s.now time))
          have hP := hexpire hru (quiet_clock hquiet _) hdue (Nat.le_max_right _ _)
            (hclock hr (Nat.le_max_left _ _) h)
          obtain ⟨-, hrest, hclocked, -⟩ := timers_reach hr.tidy hquiet hdue
          refine ih (hre.leads (leads_settle _)) hrest ?_ (settle_induction hmove hre hP)
          rw [hclocked]
          exact Nat.max_le.2 ⟨hnow, hle⟩
        · exact hclock hr hnow h
      · exact hclock hr hnow h

/-- **What moves, timers and events keep, a run keeps.** -/
theorem run_induction {P : Session → Prop} {events : List Event}
    (hmove : ∀ {s s' : Session}, s.Reached → P s → s.move? = some s' → P s')
    (hclock : ∀ {s : Session} {n : Nat}, s.Reached → s.now ≤ n → P s → P { s with now := n })
    (hexpire : ∀ {s : Session} {time : Nat}, s.Reached → s.move? = none → s.Due time →
      time ≤ s.now → P s → P (s.expireAt time))
    (hevent : ∀ {s : Session} {e : Event}, s.Reached → e ∈ events → (∀ time, e ≠ .pass time) →
      P s → P (s.apply e)) (hr : s.Reached) (hquiet : s.move? = none) (h : P s) :
    P (s.run events) := by
  induction events generalizing s with
  | nil => exact h
  | cons e events ih =>
      have hra : (s.apply e).Reached := hr.leads (leads_apply hr.tidy e)
      have hP : P (s.apply e) := by
        by_cases hpass : ∃ time, e = .pass time
        · obtain ⟨time, rfl⟩ := hpass
          exact advance_induction hmove hclock hexpire s.deadlines hr hquiet
            (Nat.le_add_right _ _) h
        · exact hevent hr (by simp) (fun time he => hpass ⟨time, he⟩) h
      refine ih (fun hr he => hevent hr (by simp [he])) (hr.run [e]) (quiet_settle _) ?_
      exact settle_induction hmove hra hP

/-! ### Who gives up -/

theorem not_givenUp_move (hr : s.Reached) (hmove : s.move? = some s') {x : Nat} (h : ¬ s.GivenUp x) :
    ¬ s'.GivenUp x := by
  have htorn : ¬ (Veil.flag x).Torn s := Veil.not_torn_of_waiting rfl h
  rcases behind_move hr (Veil.hides_flag s x) htorn (fun hwhole => by cases hwhole) hmove with
    hsame | ⟨hwhole | hplace, -⟩
  · rw [behind_flag.2 h, hmove] at hsame
    exact behind_flag.1 (Option.some.inj hsame).symm
  · cases hwhole
  · exact absurd rfl hplace

theorem not_givenUp_apply (hr : s.Reached) {e : Event} {x : Nat} (he : e ≠ .abandon x)
    (hpass : ∀ time, e ≠ .pass time) (h : ¬ s.GivenUp x) : ¬ (s.apply e).GivenUp x := by
  have hevent : (Veil.flag x).event e = some e := by
    cases e with
    | abandon i =>
        have hi : i ≠ x := fun hi => he (by rw [hi])
        simp [Veil.event, Veil.flag, hi, Veil.index]
    | _ => rfl
  have hseen := behind_apply (Veil.hides_flag s x) hr.numbered hevent hpass
  rw [behind_flag.2 h] at hseen
  exact behind_flag.1 hseen

/-- A timer that goes off gives up on a call only if someone waits for the call until then. -/
theorem not_givenUp_expireAt (hr : s.Reached) {x time : Nat} (hdue : s.Due time)
    (huntimed : (Veil.flag x).Untimed s) (h : ¬ s.GivenUp x) : ¬ (s.expireAt time).GivenUp x := by
  have htorn : ¬ (Veil.flag x).Torn s := Veil.not_torn_of_waiting rfl h
  rcases behind_expireAt hr (Veil.hides_flag s x) huntimed htorn hdue with ⟨-, hseen⟩ | ⟨hplace, -⟩
  · rw [behind_flag.2 h] at hseen
    exact behind_flag.1 hseen
  · exact absurd rfl hplace

/-- A call nobody may give up on: nobody waits for it until some time. -/
theorem not_givenUp_run {x : Nat} (hv : (Veil.flag x).Veiled s) (hquiet : s.move? = none)
    (h : ¬ s.GivenUp x) {events : List Event} (hevents : .abandon x ∉ events) :
    ¬ (s.run events).GivenUp x := by
  refine (run_induction (P := fun t => (Veil.flag x).Veiled t ∧ ¬ t.GivenUp x) ?_ ?_ ?_ ?_
    hv.reached hquiet ⟨hv, h⟩).2
  · rintro t t' hr ⟨hv, h⟩ hmove
    exact ⟨hv.leads (leads_move hmove), not_givenUp_move hr hmove h⟩
  · rintro t n hr hnow ⟨hv, h⟩
    exact ⟨hv.leads (leads_clock hnow), h⟩
  · rintro t time hr hquiet hdue hnow ⟨hv, h⟩
    exact ⟨hv.leads (leads_expireAt hnow), not_givenUp_expireAt hr hdue hv.untimed h⟩
  · rintro t e hr he hpass ⟨hv, h⟩
    have hother : e ≠ .abandon x := fun heq => hevents (heq ▸ he)
    exact ⟨hv.leads (leads_apply hr.tidy e), not_givenUp_apply hr hother hpass h⟩

/-! ### Clients wait for calls -/

theorem length_submit (s : Session) (command : Bytes) (last : Bool) :
    (s.submit command last).calls.length = s.calls.length + 1 := by
  unfold submit
  split <;> simp

theorem Comes.submitted {e : Event} {c : Client} (h : s.Comes e c) {x : Nat} (hx : c.call? = some x) :
    x < (s.perform (.event e)).calls.length := by
  cases c with
  | executing call deadline =>
      cases hx
      obtain ⟨rfl, command, limit, rfl, -⟩ := h
      simp [perform, apply, join, length_submit]
  | quitting call deadline =>
      cases hx
      obtain ⟨rfl, hstarted, command, limit, rfl, -⟩ := h
      simp [perform, apply, quit, join, length_submit]
  | _ => cases hx

/-- Whoever waits for a call waits for one that was submitted. -/
theorem reached_clients (h : s.Reached) :
    ∀ c ∈ s.clients, ∀ x, c.call? = some x → x < s.calls.length := by
  have hplay : ∀ (acts : List Act) (s : Session), s.Tidy →
      (∀ c ∈ s.clients, ∀ x, c.call? = some x → x < s.calls.length) →
      ∀ c ∈ (s.play acts).clients, ∀ x, c.call? = some x → x < (s.play acts).calls.length := by
    intro acts
    induction acts with
    | nil => exact fun s _ h => h
    | cons a acts ih =>
        intro s ht h
        refine ih (s.perform a) (tidy_perform ht a) ?_
        intro c hc x hx
        have hlength : s.calls.length ≤ (s.perform a).calls.length := length_le_play ht [a]
        have hold (hmem : c ∈ s.clients) : x < (s.perform a).calls.length :=
          Nat.lt_of_lt_of_le (h c hmem x hx) hlength
        have hmoved {i : Nat} {c' : Client} (hc' : c'.past = true)
            (hmem : c ∈ s.clients.set i c') : x < (s.perform a).calls.length := by
          rcases List.mem_or_eq_of_mem_set hmem with hmem | rfl
          · exact hold hmem
          · rw [Client.call?_of_past hc'] at hx
            cases hx
        rcases perform_clients s a with ⟨more, hmore, hcomes⟩ | ⟨i, b, s', b', -, -, hstep, heq⟩ |
          ⟨i, b, deadline, -, -, hdue, -, heq⟩
        · rw [hmore] at hc
          rcases List.mem_append.1 hc with hmem | hnew
          · exact hold hmem
          · obtain ⟨e, rfl, hbegins⟩ := hcomes c hnew
            exact hbegins.submitted hx
        · exact hmoved (clientStep_past hstep) (by rw [heq] at hc; exact hc)
        · exact hmoved (expireClient_past hdue) (by rw [heq] at hc; exact hc)
  obtain ⟨options, acts, rfl⟩ := h
  exact hplay acts (new options) (tidy_new options) (by simp [new])

/-! ### Only calls that wait are given up -/

theorem taken_terminate {r : Failure} {x : Nat} (h : (s.terminate r).Taken x) : s.Taken x := by
  by_cases hopen : s.reason? = none
  · obtain ⟨text, hmem⟩ := h
    rw [terminate_open hopen] at hmem
    exact ⟨text, by simpa using hmem⟩
  · rwa [terminate_over hopen] at h

theorem taken_kill {x : Nat} (h : s.kill.Taken x) : s.Taken x := by
  obtain ⟨child, heq, -⟩ := kill_eq s
  rwa [heq] at h

theorem taken_expireClient {c : Client} {x : Nat} (h : (s.expireClient c).1.Taken x) :
    s.Taken x := by
  cases c with
  | quitting call deadline =>
      simp only [expireClient, release] at h
      split at h
      · exact taken_terminate (s := s.giveUp call) h
      · obtain ⟨child, heq, -⟩ := closeStdin_eq (s.giveUp call)
        rwa [heq] at h
  | releasing => exact taken_kill h
  | executing | leaving | reaping | shutting | closing | executed | hasQuit | hasClosed => exact h

/-- The worker takes no call when a timer goes off. -/
theorem taken_expireAt {time x : Nat} (hnow : time ≤ s.now) (h : (s.expireAt time).Taken x) :
    s.Taken x := by
  rcases expireAt_cases hnow with ⟨call, hworker, heq⟩ | ⟨i, c, hc, hdue, heq⟩ | ⟨-, -, heq⟩
  · rw [heq] at h
    simp only [perform, timerAct, hworker, hnow, if_true, expire] at h
    split at h
    · exact h
    · exact taken_terminate (s := s.finish call _) (taken_kill h)
  · rw [heq] at h
    simp only [perform, clientTimerAct, hc, hdue, hnow, if_true] at h
    exact taken_expireClient h
  · rwa [heq] at h

/-- In a session at rest a client waits only for calls without an outcome. -/
theorem pending_of_quiet (hquiet : s.move? = none) {c : Client} (hc : c ∈ s.clients) {x : Nat}
    (hx : c.call? = some x) : s.outcome? x = none := by
  have hnone := clientStep_of_quiet hquiet hc
  cases c with
  | executing call deadline | quitting call deadline =>
      cases hx
      exact Option.map_eq_none_iff.1 hnone
  | _ => cases hx

/-- A call that was given up before anyone took it is not taken afterwards. -/
theorem sent_leads_of_givenUp (hr : s.Reached) {x : Nat} (hgone : s.GivenUp x)
    (h : s.Taken x → s.Sent x) (hl : s.Leads t) (htaken : t.Taken x) : t.Sent x := by
  by_cases hfree : s.Taken x
  · exact (h hfree).leads hr.tidy hl
  · exact absurd htaken (not_taken_leads hr hgone hfree hl)

/-- **Whoever was given up and taken was written**: nobody gives up on a call whose command could
not be written. -/
theorem sent_of_givenUp (options : Options) (events : List Event) {x : Nat}
    (hgone : ((new options).run events).GivenUp x)
    (htaken : ((new options).run events).Taken x) : ((new options).run events).Sent x := by
  refine run_induction (P := fun t => ∀ x, t.GivenUp x → t.Taken x → t.Sent x) ?_ ?_ ?_ ?_
    (reached_new options) rfl (by simp [GivenUp, new]) x hgone htaken
  · intro t t' hr h hmove x hgone htaken
    have hold : t.GivenUp x := by
      by_contra hold
      exact not_givenUp_move hr hmove hold hgone
    exact sent_leads_of_givenUp hr hold (h x hold) (leads_move hmove) htaken
  · exact fun _ _ h => h
  · intro t time hr hquiet hdue hnow h x hgone htaken
    by_cases hold : t.GivenUp x
    · exact sent_leads_of_givenUp hr hold (h x hold) (leads_expireAt hnow) htaken
    · -- Someone waited for the call, so it had no outcome yet.
      obtain ⟨c, hc, hcall⟩ : ∃ c ∈ t.clients, c.call? = some x := by
        by_contra hnobody
        refine not_givenUp_expireAt hr hdue ?_ hold hgone
        intro j c hc hcall _
        exact absurd ⟨c, List.mem_of_getElem? hc, hcall⟩ hnobody
      have hlt := reached_clients hr c hc x hcall
      have hsent := sent_of_pending hr hlt (pending_of_quiet hquiet hc hcall)
        (taken_expireAt hnow htaken)
      exact hsent.leads hr.tidy (leads_expireAt hnow)
  · intro t e hr he hpass h x hgone htaken
    by_cases hold : t.GivenUp x
    · exact sent_leads_of_givenUp hr hold (h x hold) (leads_apply hr.tidy e) htaken
    · obtain rfl : e = .abandon x := by
        by_contra hother
        exact not_givenUp_apply hr hother hpass hold hgone
      simp only [apply, abandon] at hgone htaken ⊢
      split at hgone
      · exact absurd hgone hold
      · rename_i hpending
        have hlt : x < t.calls.length := by
          obtain ⟨c, hc, -⟩ := givenUp_iff.1 hgone
          simpa [giveUp] using (List.getElem?_eq_some_iff.1 hc).1
        simp only [hpending] at htaken ⊢
        exact sent_of_pending hr hlt hpending htaken

end Session

end ReplBridge.Repl
