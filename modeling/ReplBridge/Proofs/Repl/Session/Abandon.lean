import ReplBridge.Proofs.Repl.Session.GivenUp

/-!
**Giving up on a call disturbs nobody.**

If the command of a call was written by the time its caller gives up, its frame still comes and is
still taken from the stream; if it was not, it is passed over and never written.  Either way the
others notice nothing.  A run in which someone gives up on a call that was written looks like the
run in which they do not, and a run in which someone gives up on a call before it was written looks
like the run in which it was never asked for, with the numbers of later calls one lower.

Main definitions:

* `Repl.Event.ask` — someone asks for a command, and may wait for it;
* `Session.Alike` — two sessions show the same, but for one client;
* `Session.Lacks` — a session shows what another does, but for one call and its client.

Main results:

* `Session.behind_ask` — behind the veil over a call, it was never asked for;
* `Session.behind_run_ask` — a run that begins with asking for a call, behind the veil over it;
* `Session.giving_up_disturbs_nobody` — **giving up on a call disturbs nobody**.
-/

set_option autoImplicit false

namespace ReplBridge.Repl

variable {command : Bytes} {limit : Option Nat} {v : Veil}

/-- Someone asks for a command, and waits for it if there is a limit; for ever if that is 0. -/
def Event.ask (command : Bytes) : Option Nat → Event
  | none => .submit command
  | some limit => .execute command limit

/-- The veil over the call that is asked for next, and over the client who waits for it. -/
def Veil.next (s : Session) (whole : Bool) (limit : Option Nat) : Veil :=
  ⟨s.calls.length, whole, limit.map fun _ => s.clients.length⟩

namespace Session

variable {s : Session}

/-! ### Asking for a command -/

/-- A session that is not over accepts what is asked for. -/
theorem apply_ask (h : s.reason? = none) (command : Bytes) (limit : Option Nat) :
    s.apply (.ask command limit) = { s with
      accepted := s.accepted + 1
      calls := s.calls ++ [{ command, last := false, seq := s.accepted + 1 }]
      queue := s.queue ++ [s.calls.length]
      clients := s.clients ++
        limit.toList.map fun n => .executing s.calls.length (s.deadline n) } := by
  cases limit with
  | none => simp [Event.ask, apply, submit_open h]
  | some n => simp [Event.ask, apply, submit_open h, join]

/-- Whoever waits for the call that was asked for sits in the last place. -/
theorem client_of_ask (hr : s.Reached) (h : s.reason? = none) {j : Nat} {c : Client}
    (hc : (s.apply (.ask command limit)).clients[j]? = some c)
    (hcall : c.call? = some s.calls.length) :
    ∃ n, limit = some n ∧ j = s.clients.length ∧ c = .executing s.calls.length (s.deadline n) := by
  rw [apply_ask h] at hc
  rcases Nat.lt_or_ge j s.clients.length with hlt | hge
  · -- Those who were there wait for older calls.
    have hold : s.clients[j]? = some c := by rwa [List.getElem?_append_left hlt] at hc
    have hless := reached_clients hr c (List.mem_of_getElem? hold) _ hcall
    exact absurd hless (Nat.lt_irrefl _)
  · rw [List.getElem?_append_right hge] at hc
    cases limit with
    | none => simp at hc
    | some n =>
        simp only [Option.toList_some, List.map_cons, List.map_nil, List.getElem?_singleton] at hc
        split at hc
        · rename_i hzero
          cases hc
          exact ⟨n, rfl, by omega, rfl⟩
        · cases hc

/-- The veil hides the call and all that has to do with it. -/
theorem veiled_ask (hr : s.Reached) (h : s.reason? = none) (whole : Bool) (command : Bytes)
    (limit : Option Nat) : (Veil.next s whole limit).Veiled (s.apply (.ask command limit)) := by
  have hplace {j : Nat} {c : Client} (hc : (s.apply (.ask command limit)).clients[j]? = some c)
      (hcall : c.call? = some s.calls.length) : (Veil.next s whole limit).place = some j := by
    obtain ⟨n, rfl, rfl, -⟩ := client_of_ask hr h hc hcall
    rfl
  refine ⟨⟨?_, ?_, ?_⟩, hr.leads (leads_apply hr.tidy _), ?_, ?_⟩
  · intro _
    rw [apply_ask h]
    exact Nat.lt_succ_of_le (Nat.le_of_eq (hr.numbered.opened h))
  · intro k hk
    obtain ⟨n, rfl, rfl⟩ := Option.map_eq_some_iff.1 hk
    refine ⟨_, ?_, .inl ⟨s.deadline n, rfl⟩⟩
    simp [apply_ask h, Veil.next]
  · exact fun j c hc hcall _ => hplace hc hcall
  · simp [apply_ask h, Veil.next]
  · exact fun j c hc hcall _ => hplace hc hcall

/-- Of a call for which its client waits for ever, even the client may be seen. -/
theorem veiled_ask_forever (hr : s.Reached) (h : s.reason? = none) (command : Bytes)
    (limit : Option Nat) :
    (Veil.flag s.calls.length).Veiled (s.apply (.ask command (limit.map fun _ => 0))) := by
  refine ⟨Veil.hides_flag _ _, hr.leads (leads_apply hr.tidy _), ?_, ?_⟩
  · simp [apply_ask h, Veil.flag]
  · intro j c hc hcall hdue
    obtain ⟨n, hn, -, rfl⟩ := client_of_ask hr h hc hcall
    obtain ⟨-, -, rfl⟩ := Option.map_eq_some_iff.1 hn
    exact absurd rfl hdue

/-- A veil over a call that is yet to come hides nothing. -/
theorem behind_of_later (hr : s.Reached) (hopen : s.reason? = none)
    (hcall : v.call = s.calls.length) (hplace : ∀ k, v.place = some k → s.clients.length ≤ k) :
    s.behind v = s := by
  have hcount := hr.numbered.opened hopen
  have hindex {i : Nat} (hi : i ≤ s.calls.length) : v.index i = i := by
    simp [Veil.index, hcall, Nat.not_lt.2 hi]
  have hnumber {n : Nat} (hn : n ≤ s.accepted) : v.number n = n := by
    have hn' : ¬ v.call + 1 < n := by omega
    simp [Veil.number, hn']
  have hentry : s.calls.mapIdx v.entry = s.calls := by
    refine Veil.mapIdx_entry_eq_self fun i c hc => ?_
    have hi := (List.getElem?_eq_some_iff.1 hc).1
    have hseq : c.seq = i + 1 := hr.numbered.accepted i c hc (hcount ▸ hi)
    exact Veil.entry_eq_self (hnumber (by omega)) fun hhidden => by omega
  have hcalls : v.calls s.calls = s.calls := by
    rw [Veil.calls, hentry, List.eraseIdx_of_length_le (Nat.le_of_eq hcall.symm), ite_self]
  have hqueue : v.queue s.queue = s.queue := by
    have hfilter : s.queue.filter (· ≠ v.call) = s.queue := by
      refine List.filter_eq_self.2 fun q hq => ?_
      simpa [hcall] using Nat.ne_of_lt (hr.tidy.queued q hq)
    have hmap : s.queue.map v.index = s.queue := by
      refine (List.map_congr_left fun q hq => ?_).trans (List.map_id _)
      exact hindex (Nat.le_of_lt (hr.tidy.queued q hq))
    rw [Veil.queue, hfilter, hmap, ite_self]
  have hworker : v.worker s.worker = s.worker := by
    cases hw : s.worker with
    | awaiting call deadline =>
        rw [Veil.worker, hindex (Nat.le_of_lt (hr.tidy.awaited call deadline hw).1)]
    | _ => rfl
  have hclients : v.clients s.clients = s.clients := by
    have hmap : s.clients.map v.client = s.clients := by
      refine (List.map_congr_left fun c hc => ?_).trans (List.map_id _)
      cases c with
      | executing call deadline | quitting call deadline =>
          rw [Veil.client, hindex (Nat.le_of_lt (reached_clients hr _ hc call rfl)), id]
      | _ => rfl
    cases hk : v.place with
    | none => simpa [Veil.clients, hk] using hmap
    | some k => simpa [Veil.clients, hk, List.eraseIdx_of_length_le (hplace k hk)] using hmap
  have hlog : s.log.map v.effect = s.log := by
    refine (List.map_congr_left fun e he => ?_).trans (List.map_id _)
    have hbound := hr.recorded.bound e he
    cases e with
    | wrote n line | recorded d n text =>
        have hsame : v.number n = n := hnumber hbound
        rw [Veil.effect, hsame, id]
    | _ => rfl
  simp [behind, hcalls, hqueue, hworker, hclients, hlog, hindex (Nat.le_of_eq hcount.symm)]

/-- Who waits for the call, and how long, is not seen. -/
theorem clients_ask (h : s.reason? = none) (whole : Bool) (command : Bytes) (limit : Option Nat) :
    (Veil.next s whole limit).clients (s.apply (.ask command limit)).clients =
      (Veil.next s whole limit).clients s.clients := by
  rw [apply_ask h]
  cases limit with
  | none => simp
  | some n => exact Veil.clients_append_place rfl _

/-- **Behind the veil over a call, it was never asked for.** -/
theorem behind_ask (hr : s.Reached) (h : s.reason? = none) (command : Bytes) (limit : Option Nat) :
    (s.apply (.ask command limit)).behind (Veil.next s true limit) = s := by
  have hcovers : (Veil.next s true limit).Covers s.calls.length := ⟨rfl, rfl⟩
  have hcount : (Veil.next s true limit).index (s.accepted + 1) =
      (Veil.next s true limit).index s.accepted := by
    simp [Veil.next, Veil.index, hr.numbered.opened h]
  have hunseen : (s.apply (.ask command limit)).behind (Veil.next s true limit) =
      s.behind (Veil.next s true limit) := by
    simp only [behind, clients_ask h]
    simp only [apply_ask h, Veil.calls_append_covered hcovers, Veil.queue_concat_covered hcovers,
      hcount]
  rw [hunseen]
  refine behind_of_later hr h rfl ?_
  intro k hk
  obtain ⟨-, -, rfl⟩ := Option.map_eq_some_iff.1 hk
  exact Nat.le_refl _

/-- The veil does not depend on how long the client waits. -/
theorem next_limit (s : Session) (whole : Bool) (limit : Option Nat) :
    Veil.next s whole (limit.map fun _ => 0) = Veil.next s whole limit := by
  simp [Veil.next, Function.comp_def]

/-- Behind the veil over its giving up, a call looks the same however long its client waits. -/
theorem behind_ask_limit (h : s.reason? = none) (command : Bytes) (limit : Option Nat) :
    (s.apply (.ask command (limit.map fun _ => 0))).behind (Veil.next s false limit) =
      (s.apply (.ask command limit)).behind (Veil.next s false limit) := by
  have hclients := clients_ask h false command (limit.map fun _ => 0)
  rw [next_limit] at hclients
  simp only [behind, clients_ask h, hclients]
  simp only [apply_ask h]

/-! ### Runs that begin with asking for a call -/

/-- **A run that begins with asking for a call, behind a veil over it.** -/
theorem behind_run_ask {e : Event} (hv : v.Veiled (s.apply e)) (events : List Event)
    (htorn : ¬ v.Torn (s.run (e :: events))) : (s.run (e :: events)).behind v =
      ((s.apply e).behind v).settle.run (events.filterMap v.event) := by
  have hv' : v.Veiled (s.step e) := hv.leads (leads_settle _)
  have htorn' : ¬ v.Torn (s.step e) :=
    fun h => htorn (h.leads hv'.reached (leads_run hv'.reached.tidy events))
  have hfirst : (s.step e).behind v = ((s.apply e).behind v).settle := behind_settle hv htorn'
  rw [← hfirst]
  exact behind_run hv' (quiet_settle _) events htorn

/-- Events that are not seen may be left out. -/
theorem filterMap_event_filter (events : List Event) :
    (events.filter (· ≠ .abandon v.call)).filterMap v.event = events.filterMap v.event := by
  induction events with
  | nil => rfl
  | cons e events ih =>
      by_cases he : e = .abandon v.call
      · rw [List.filter_cons_of_neg (by simpa using he), ih, he]
        simp [Veil.event]
      · rw [List.filter_cons_of_pos (by simpa using he), List.filterMap_cons, List.filterMap_cons,
          ih]

/-! ### What the others see -/

/-- **Two sessions show the same**, but for the client in one place. -/
structure Alike (place : Option Nat) (s t : Session) : Prop where
  /-- All that was written, recorded and said, in order. -/
  log : t.log = s.log
  /-- Where the session stands. -/
  state : t.state = s.state
  child : t.child = s.child
  /-- How calls ended. -/
  outcomes : ∀ i, t.outcome? i = s.outcome? i
  /-- What clients wait for, or were told. -/
  clients : ∀ j, place ≠ some j → t.clients[j]? = s.clients[j]?

/-- **A session shows what another does**, but for what a veil hides; numbers and places are those
that are left. -/
structure Lacks (v : Veil) (s t : Session) : Prop where
  /-- The lines that were written. -/
  written : written t.log = written s.log
  records : records t.log = (records s.log).map fun (direction, n, text) =>
    (direction, v.number n, text)
  /-- The states that were entered. -/
  states : states t.log = states s.log
  complaints : complaintLines t.log = complaintLines s.log
  /-- Where the session stands. -/
  state : t.state = s.state
  child : t.child = s.child
  /-- How calls ended. -/
  outcomes : ∀ i, ¬ v.Covers i → t.outcome? (v.index i) = s.outcome? i
  /-- What clients were told. -/
  results : ∀ j, v.place ≠ some j →
    t.clients[v.seat j]?.bind Client.result? = s.clients[j]?.bind Client.result?

/-- Sessions that look the same behind a veil over a flag show the same. -/
theorem alike_of_behind {t : Session} (hhalf : v.whole = false) (h : s.behind v = t.behind v) :
    Alike v.place s t := by
  have hstate : (t.behind v).state = (s.behind v).state := by rw [h]
  have hchild : (t.behind v).child = (s.behind v).child := by rw [h]
  refine ⟨?_, hstate, hchild, ?_, ?_⟩
  · have hlog : s.log.map v.effect = t.log.map v.effect := congrArg log h
    rw [Veil.effect_of_half hhalf, List.map_id, List.map_id] at hlog
    exact hlog.symm
  · intro i
    have hseen (u : Session) := behind_outcome? (Veil.not_covers_of_half hhalf i) u
    rw [← hseen t, ← hseen s, h]
  · intro j hj
    have hseen (u : Session) : (u.behind v).clients[v.seat j]? = u.clients[j]? := by
      have hget := Veil.getElem?_clients hj u.clients
      rwa [Veil.client_of_half hhalf, Option.map_id, id] at hget
    rw [← hseen t, ← hseen s, h]

/-- Whoever does not look at numbers sees the same behind a veil. -/
theorem filterMap_effect {α : Type} {f : Effect → Option α} (h : ∀ e, f (v.effect e) = f e)
    (log : List Effect) : (log.map v.effect).filterMap f = log.filterMap f := by
  rw [List.filterMap_map]
  exact congrArg (fun g => log.filterMap g) (funext h)

/-- A session behind a veil shows what the session does, but for what is hidden. -/
theorem lacks_behind (s : Session) (v : Veil) : Lacks v s (s.behind v) := by
  have hlog : (s.behind v).log = s.log.map v.effect := rfl
  refine ⟨?_, ?_, ?_, ?_, rfl, rfl, fun i hi => behind_outcome? hi s, ?_⟩
  · exact filterMap_effect (fun e => by cases e <;> rfl) s.log
  · rw [hlog, Repl.records, List.filterMap_map, Repl.records, List.map_filterMap]
    congr
    funext e
    cases e <;> rfl
  · exact filterMap_effect (fun e => by cases e <;> rfl) s.log
  · exact filterMap_effect (fun e => by cases e <;> rfl) s.log
  · intro j hj
    have hseen : (s.behind v).clients[v.seat j]? = s.clients[j]?.map v.client :=
      Veil.getElem?_clients hj s.clients
    rw [hseen, Option.bind_map]
    congr
    funext c
    cases c <;> rfl

/-! ### Giving up on a call -/

/-- A call that its client waits for for ever is given up by nobody else. -/
theorem not_givenUp_of_forever (hr : s.Reached) (h : s.reason? = none) {events : List Event}
    (hevents : .abandon s.calls.length ∉ events) :
    ¬ (s.run (.ask command (limit.map fun _ => 0) :: events)).GivenUp s.calls.length := by
  have hv := veiled_ask_forever hr h command limit
  have hfresh : ¬ (s.apply (.ask command (limit.map fun _ => 0))).GivenUp s.calls.length := by
    simp [apply_ask h, GivenUp]
  refine not_givenUp_run (hv.leads (leads_settle _)) (quiet_settle _) ?_ hevents
  exact settle_induction (P := fun t => ¬ t.GivenUp s.calls.length)
    (fun hr h hmove => not_givenUp_move hr hmove h) hv.reached hfresh

/-- **Whether and when someone gives up on a call that is written is not noticed.** -/
theorem alike_of_sent (hr : s.Reached) (h : s.reason? = none) {events : List Event}
    (hsent : (s.run (.ask command limit :: events)).Sent s.calls.length) :
    Alike (limit.map fun _ => s.clients.length) (s.run (.ask command limit :: events))
      (s.run (.ask command (limit.map fun _ => 0) ::
        events.filter (· ≠ .abandon s.calls.length))) := by
  refine alike_of_behind (v := Veil.next s false limit) rfl ?_
  have hv := veiled_ask hr h false command limit
  have hv' := veiled_ask hr h false command (limit.map fun _ => 0)
  rw [next_limit] at hv'
  have htorn : ¬ (Veil.next s false limit).Torn (s.run (.ask command limit :: events)) :=
    Veil.not_torn_of_sent rfl (hr.run _) hsent
  have htorn' : ¬ (Veil.next s false limit).Torn (s.run (.ask command (limit.map fun _ => 0) ::
      events.filter (· ≠ .abandon s.calls.length))) :=
    Veil.not_torn_of_waiting rfl (not_givenUp_of_forever hr h (by simp))
  have hevents : (events.filter (· ≠ .abandon s.calls.length)).filterMap
      (Veil.next s false limit).event = events.filterMap (Veil.next s false limit).event :=
    filterMap_event_filter events
  calc (s.run (.ask command limit :: events)).behind (Veil.next s false limit)
      = ((s.apply (.ask command limit)).behind (Veil.next s false limit)).settle.run
          (events.filterMap (Veil.next s false limit).event) := behind_run_ask hv events htorn
    _ = ((s.apply (.ask command (limit.map fun _ => 0))).behind
          (Veil.next s false limit)).settle.run
          ((events.filter (· ≠ .abandon s.calls.length)).filterMap
            (Veil.next s false limit).event) := by
        rw [behind_ask_limit h, hevents]
    _ = _ := (behind_run_ask hv' _ htorn').symm

/-- **A call that is not taken might as well not have been asked for.** -/
theorem lacks_of_not_taken (hr : s.Reached) (hquiet : s.move? = none) (h : s.reason? = none)
    {events : List Event} (hfree : ¬ (s.run (.ask command limit :: events)).Taken s.calls.length) :
    Lacks (Veil.next s true limit) (s.run (.ask command limit :: events))
      (s.run (events.filterMap (Veil.next s true limit).event)) := by
  have htorn : ¬ (Veil.next s true limit).Torn (s.run (.ask command limit :: events)) := by
    rintro (⟨-, htaken⟩ | ⟨hhalf, -⟩)
    · exact hfree htaken
    · cases hhalf
  have hseen := behind_run_ask (veiled_ask hr h true command limit) events htorn
  rw [behind_ask hr h, settle_of_quiet hquiet] at hseen
  rw [← hseen]
  exact lacks_behind _ _

/-- A single step of giving up on a call that was written may be left out. -/
theorem alike_of_abandon (hr : s.Reached) (hquiet : s.move? = none) (h : s.reason? = none)
    {between : List Event} (hsent : (s.run (.ask command limit :: between)).Sent s.calls.length)
    (after : List Event) :
    Alike (limit.map fun _ => s.clients.length)
      ((s.run (.ask command limit :: between)).run (.abandon s.calls.length :: after))
      ((s.run (.ask command limit :: between)).run after) := by
  have hrt := hr.run (.ask command limit :: between)
  have hv : (Veil.next s false limit).Veiled (s.run (.ask command limit :: between)) := by
    have hv' := (veiled_ask hr h false command limit).leads (leads_settle _)
    exact hv'.leads (leads_run hv'.reached.tidy between)
  have hseen (events : List Event) := behind_run hv (quiet_run_of_quiet hquiet _) events
    (Veil.not_torn_of_sent rfl (hrt.run events)
      (hsent.leads hrt.tidy (leads_run hrt.tidy events)))
  refine alike_of_behind (v := Veil.next s false limit) rfl ?_
  rw [hseen, hseen]
  simp [Veil.event, Veil.next]

/-- **Giving up on a call disturbs nobody.**  Someone asks for a command and may wait for it until
some time.  If it is written, a step of giving up on it may be left out, and all of them and the
limit of the client may; only the client itself is told something else.  If it is given up before it
is written, it is never written, and asking for it may be left out as well.  A call that has its
outcome is not given up any more. -/
theorem giving_up_disturbs_nobody (options : Options) (before between after : List Event)
    (command : Bytes) (limit : Option Nat) {s t : Session} (hs : s = (new options).run before)
    (hopen : s.reason? = none) (ht : t = s.run (.ask command limit :: between)) :
    (t.Sent s.calls.length →
      Alike (limit.map fun _ => s.clients.length) (t.run (.abandon s.calls.length :: after))
        (t.run after) ∧
      Alike (limit.map fun _ => s.clients.length) t
        (s.run (.ask command (limit.map fun _ => 0) ::
          between.filter (· ≠ .abandon s.calls.length)))) ∧
    (t.GivenUp s.calls.length → ¬ t.Sent s.calls.length →
      ¬ (t.run after).Sent s.calls.length ∧
      Lacks (Veil.next s true limit) (t.run after)
        (s.run ((between ++ after).filterMap (Veil.next s true limit).event))) := by
  have hr : s.Reached := hs ▸ (reached_new options).run before
  have hquiet : s.move? = none := hs ▸ quiet_run options before
  subst ht
  refine ⟨?_, ?_⟩
  · intro hsent
    exact ⟨alike_of_abandon hr hquiet hopen hsent after, alike_of_sent hr hopen hsent⟩
  · intro hgone hunsent
    have hrt := hr.run (.ask command limit :: between)
    have hfree : ¬ (s.run (.ask command limit :: between)).Taken s.calls.length := by
      intro htaken
      have hrun : (new options).run (before ++ .ask command limit :: between) =
          s.run (.ask command limit :: between) := by rw [run_append, ← hs]
      rw [← hrun] at hgone htaken hunsent
      exact hunsent (sent_of_givenUp options _ hgone htaken)
    have hnever := not_taken_leads hrt hgone hfree (leads_run hrt.tidy after)
    refine ⟨fun hsent => hnever (hsent.taken (hrt.run after)), ?_⟩
    rw [← run_append, List.cons_append] at hnever ⊢
    exact lacks_of_not_taken hr hquiet hopen hnever

/-- While a command is in flight, someone asks for another and gives up on it; and someone waits
for a command for too short a time. -/
theorem giving_up_disturbs_nobody_twice :
    (∃ s t : Session,
      s = (new { sentinel := [62], launcher := .spawns {} }).run
        [.start, .launch, .output [62], .submit [97]] ∧
      s.reason? = none ∧ t = s.run [.ask [98] none, .abandon 1] ∧ t.GivenUp 1 ∧ ¬ t.Sent 1 ∧
      Lacks ⟨1, true, none⟩ (t.run [.submit [99], .output [49, 62], .output [50, 62]])
        (s.run [.submit [99], .output [49, 62], .output [50, 62]])) ∧
    ∃ s t : Session,
      s = (new { sentinel := [62], launcher := .spawns {} }).run [.start, .launch, .output [62]] ∧
      s.reason? = none ∧ t = s.run [.ask [97] (some 5), .pass 5, .output [49, 62]] ∧
      t.GivenUp 0 ∧ t.Sent 0 ∧
      Alike (some 0) t (s.run [.ask [97] (some 0), .pass 5, .output [49, 62]]) := by
  refine ⟨⟨_, _, rfl, by decide +kernel, rfl, by decide +kernel, by decide +kernel, ?_⟩,
    ⟨_, _, rfl, by decide +kernel, rfl, by decide +kernel, by decide +kernel, ?_⟩⟩
  · exact ((giving_up_disturbs_nobody { sentinel := [62], launcher := .spawns {} }
      [.start, .launch, .output [62], .submit [97]] [.abandon 1]
      [.submit [99], .output [49, 62], .output [50, 62]] [98] none rfl (by decide +kernel) rfl).2
      (by decide +kernel) (by decide +kernel)).2
  · exact ((giving_up_disturbs_nobody { sentinel := [62], launcher := .spawns {} }
      [.start, .launch, .output [62]] [.pass 5, .output [49, 62]] [] [97] (some 5) rfl (by decide +kernel)
      rfl).1 (by decide +kernel)).2

end Session

end ReplBridge.Repl
