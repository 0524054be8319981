import ReplBridge.Proofs.Repl.Session.Veil

/-!
**Moves behind a veil.**

Every party moves behind a veil as it does before it, so the whole session does, and it settles in
the same way on both sides.  Only two things can happen before the veil that do not happen behind
it.  The worker passes over the hidden call, and the hidden client is told something; and after
either the session looks as it did.

All this holds as long as the veil is not *torn*.  A veil that hides all of a call is torn when the
worker takes the call; a veil that hides only that the caller gave up is torn when that happens
before the worker takes the call, for then the worker will not.

Main definitions:

* `Veil.Torn` — the hidden call is noticed;
* `Veil.Hides`, `Veil.Veiled` — nobody who is seen has to do with what is hidden.

Main results:

* `Veil.Veiled.leads` — what is hidden stays hidden;
* `Session.behind_move` — **a move is the same behind the veil, or not seen there**;
* `Session.behind_settle` — **a session settles behind a veil as it does before it**.
-/

set_option autoImplicit false

namespace ReplBridge.Repl

namespace Veil

variable {v : Veil}

/-! ### Torn veils -/

/-- **The hidden call is noticed.** -/
def Torn (v : Veil) (s : Session) : Prop :=
  (v.whole = true ∧ s.Taken v.call) ∨
    (v.whole = false ∧ s.GivenUp v.call ∧ ¬ s.Taken v.call)

theorem Torn.leads {s t : Session} (h : v.Torn s) (hr : s.Reached) (hl : s.Leads t) : v.Torn t := by
  rcases h with ⟨hwhole, htaken⟩ | ⟨hhalf, hgone, hfree⟩
  · exact .inl ⟨hwhole, htaken.leads hr.tidy hl⟩
  · exact .inr ⟨hhalf, hgone.leads hr.tidy hl, Session.not_taken_leads hr hgone hfree hl⟩

/-! ### Who has to do with the hidden call -/

/-- **Nobody who is seen waits for a call that is not**, and the client who is hidden waits for the
hidden call, or no longer. -/
structure Hides (v : Veil) (s : Session) : Prop where
  accepted : v.whole = true → v.call < s.accepted
  seated : ∀ k, v.place = some k → ∃ c, s.clients[k]? = some c ∧
    ((∃ deadline, c = .executing v.call deadline) ∨ ∃ o, c = .executed o)
  waiting : ∀ j c, s.clients[j]? = some c → c.call? = some v.call → v.whole = true →
    v.place = some j

/-- Nobody who is seen gives up on the hidden call when time passes. -/
def Untimed (v : Veil) (s : Session) : Prop :=
  ∀ j c, s.clients[j]? = some c → c.call? = some v.call → c.deadline? ≠ none → v.place = some j

end Veil

/-- Whether a client is past what it came for. -/
def Client.past : Client → Bool
  | .executing _ _ | .leaving | .quitting _ _ | .shutting => false
  | _ => true

theorem Client.call?_of_past {c : Client} (h : c.past = true) : c.call? = none := by
  cases c with
  | executing | quitting => cases h
  | _ => rfl

namespace Session

variable {s s' : Session} {l : Label}

variable {v : Veil}

theorem Change.accepted_le (h : s.Change l s') : s.accepted ≤ s'.accepted := by
  cases h with
  | accepted => exact Nat.le_succ _
  | _ => exact Nat.le_refl _

theorem accepted_le_play (ht : s.Tidy) (acts : List Act) : s.accepted ≤ (s.play acts).accepted :=
  (play_induction (P := fun _ t => s.accepted ≤ t.accepted)
    (fun _ h hc => Nat.le_trans h hc.accepted_le) [] ht (Nat.le_refl _) acts).2

theorem length_le_play (ht : s.Tidy) (acts : List Act) :
    s.calls.length ≤ (s.play acts).calls.length := by
  refine Nat.le_of_not_lt fun hlt => ?_
  obtain ⟨c', hc', -⟩ := play_calls ht acts _ _ (List.getElem?_eq_getElem hlt)
  exact absurd (List.getElem?_eq_some_iff.1 hc').1 (Nat.lt_irrefl _)

theorem clientStep_past {c c' : Client} (h : s.clientStep? c = some (s', c')) : c'.past = true := by
  cases clientStep?_eq_some h with
  | releases =>
      unfold release
      split <;> rfl
  | shuts =>
      unfold shut
      split <;> rfl
  | returns | leaves | released | reaped | closed => rfl

theorem expireClient_past {c : Client} {deadline : Nat} (h : c.deadline? = some deadline) :
    (s.expireClient c).2.past = true := by
  cases c with
  | executing | releasing => rfl
  | quitting call deadline =>
      simp only [expireClient, release]
      split <;> rfl
  | leaving | reaping | shutting | closing | executed | hasQuit | hasClosed => cases h

/-- Whoever waits for a call that was there has waited for it before. -/
theorem perform_waiting {a : Act} {j x : Nat} {c : Client} (hc : (s.perform a).clients[j]? = some c)
    (hx : c.call? = some x) (hlt : x < s.calls.length) : s.clients[j]? = some c := by
  have hset {i : Nat} {b b' : Client} (hb : s.clients[i]? = some b) (hb' : b'.past = true)
      (hc : (s.clients.set i b')[j]? = some c) : s.clients[j]? = some c := by
    by_cases hij : i = j
    · subst hij
      rw [List.getElem?_set_self (List.getElem?_eq_some_iff.1 hb).1] at hc
      cases hc
      rw [Client.call?_of_past hb'] at hx
      cases hx
    · rwa [List.getElem?_set_ne hij] at hc
  rcases perform_clients s a with ⟨more, hmore, hcomes⟩ | ⟨i, b, s', b', -, hb, hstep, heq⟩ |
    ⟨i, b, deadline, -, hb, hdue, -, heq⟩
  · rw [hmore] at hc
    rw [List.getElem?_append] at hc
    split at hc
    · exact hc
    · obtain ⟨e, -, hbegins⟩ := hcomes c (List.mem_of_getElem? hc)
      cases c with
      | executing call deadline | quitting call deadline =>
          cases hx
          exact absurd hbegins.1 (Nat.ne_of_lt hlt)
      | _ => cases hx
  · rw [heq] at hc
    exact hset hb (clientStep_past hstep) hc
  · rw [heq] at hc
    exact hset hb (expireClient_past hdue) hc

end Session

namespace Veil

variable {v : Veil}

theorem Hides.call_lt {s : Session} (h : v.Hides s) (hn : s.Numbered) (hwhole : v.whole = true) :
    v.call < s.calls.length :=
  Nat.lt_of_lt_of_le (h.accepted hwhole) hn.bound

theorem Hides.hidden {s : Session} (h : v.Hides s) {k : Nat} {c : Client} (hk : v.place = some k)
    (hc : s.clients[k]? = some c) :
    (∃ deadline, c = .executing v.call deadline) ∨ ∃ o, c = .executed o := by
  obtain ⟨b, hb, hform⟩ := h.seated k hk
  rw [hc] at hb
  cases hb
  exact hform

theorem Hides.perform {s : Session} (h : v.Hides s) (hr : s.Reached) (a : Act) :
    v.Hides (s.perform a) := by
  refine ⟨?_, ?_, ?_⟩
  · intro hwhole
    exact Nat.lt_of_lt_of_le (h.accepted hwhole) (Session.accepted_le_play hr.tidy [a])
  · intro k hk
    obtain ⟨c, hc, hform⟩ := h.seated k hk
    have hlt := (List.getElem?_eq_some_iff.1 hc).1
    rcases Session.perform_client hc a with hsame | ⟨s', c', -, hstep, heq⟩ |
      ⟨deadline, -, hdue, -, heq⟩
    · exact ⟨c, hsame, hform⟩
    · -- A client who waits for the call moves by being told its outcome.
      rcases hform with ⟨deadline, rfl⟩ | ⟨o, rfl⟩
      · obtain ⟨o, -, ho⟩ := Option.map_eq_some_iff.1 hstep
        cases ho
        exact ⟨.executed o, by rw [heq]; exact List.getElem?_set_self hlt, .inr ⟨o, rfl⟩⟩
      · cases hstep
    · rcases hform with ⟨deadline, rfl⟩ | ⟨o, rfl⟩
      · exact ⟨_, by rw [heq]; exact List.getElem?_set_self hlt, .inr ⟨_, rfl⟩⟩
      · cases hdue
  · intro j c hc hcall hwhole
    have hlt := h.call_lt hr.numbered hwhole
    exact h.waiting j c (Session.perform_waiting hc hcall hlt) hcall hwhole

theorem Untimed.perform {s : Session} (h : v.Untimed s) (hlt : v.call < s.calls.length) (a : Act) :
    v.Untimed (s.perform a) := by
  intro j c hc hcall hdue
  exact h j c (Session.perform_waiting hc hcall hlt) hcall hdue

/-- **All that has to do with the hidden call is hidden.** -/
structure Veiled (v : Veil) (s : Session) : Prop extends v.Hides s where
  /-- The session can be reached. -/
  reached : s.Reached
  submitted : v.call < s.calls.length
  /-- No timer of anyone who is seen reaches it. -/
  untimed : v.Untimed s

/-- What is hidden stays hidden. -/
theorem Veiled.leads {s t : Session} (h : v.Veiled s) (hl : s.Leads t) : v.Veiled t := by
  obtain ⟨acts, rfl⟩ := hl
  induction acts generalizing s with
  | nil => exact h
  | cons a acts ih =>
      refine ih ⟨h.toHides.perform h.reached a, h.reached.leads ⟨[a], rfl⟩, ?_, ?_⟩
      · exact Nat.lt_of_lt_of_le h.submitted (Session.length_le_play h.reached.tidy [a])
      · exact h.untimed.perform h.submitted a

end Veil

namespace Session

variable {s s' : Session}

variable {v : Veil}

/-! ### The first client that can act -/

/-- What the first client does that can do anything; `before` are those passed over, last first. -/
def firstMove (f : Client → Option (Session × Client)) (before : List Client) :
    List Client → Option Session
  | [] => none
  | c :: rest =>
    match f c with
    | some (s', c') => some { s' with clients := before.reverse ++ c' :: rest }
    | none => firstMove f (c :: before) rest

theorem clientMoveFrom?_eq_firstMove (s : Session) (before rest : List Client) :
    s.clientMoveFrom? before rest = firstMove s.clientStep? before rest := by
  induction rest generalizing before with
  | nil => rfl
  | cons c rest ih =>
      cases hstep : s.clientStep? c with
      | none => simp [clientMoveFrom?, firstMove, hstep, ih]
      | some moved => simp [clientMoveFrom?, firstMove, hstep]

theorem firstMove_eq_none {f : Client → Option (Session × Client)} {before rest : List Client} :
    firstMove f before rest = none ↔ ∀ c ∈ rest, f c = none := by
  induction rest generalizing before with
  | nil => simp [firstMove]
  | cons c rest ih =>
      cases hf : f c with
      | none => simp [firstMove, hf, ih]
      | some p => simp [firstMove, hf]

theorem firstMove_eq_some {f : Client → Option (Session × Client)} {before rest : List Client} :
    firstMove f before rest = some s' ↔ ∃ i c p, rest[i]? = some c ∧ f c = some p ∧
      (∀ j b, j < i → rest[j]? = some b → f b = none) ∧
      s' = { p.1 with clients := before.reverse ++ rest.set i p.2 } := by
  induction rest generalizing before with
  | nil => simp [firstMove]
  | cons c rest ih =>
      cases hf : f c with
      | none =>
          simp only [firstMove, hf, ih, List.reverse_cons, List.append_assoc, List.singleton_append]
          refine ⟨?_, ?_⟩
          · rintro ⟨i, b, p, hb, hp, hfirst, rfl⟩
            refine ⟨i + 1, b, p, by simpa using hb, hp, ?_, by simp⟩
            intro j d hj hd
            cases j with
            | zero =>
                obtain rfl : c = d := by simpa using hd
                exact hf
            | succ j => exact hfirst j d (by omega) (by simpa using hd)
          · rintro ⟨i, b, p, hb, hp, hfirst, rfl⟩
            cases i with
            | zero =>
                simp only [List.getElem?_cons_zero, Option.some.injEq] at hb
                rw [← hb, hf] at hp
                cases hp
            | succ i =>
                refine ⟨i, b, p, by simpa using hb, hp, ?_, by simp⟩
                intro j d hj hd
                exact hfirst (j + 1) d (by omega) (by simpa using hd)
      | some p =>
          simp only [firstMove, hf, Option.some.injEq]
          refine ⟨?_, ?_⟩
          · rintro rfl
            exact ⟨0, c, p, rfl, hf, by omega, by simp⟩
          · rintro ⟨i, b, q, hb, hq, hfirst, rfl⟩
            cases i with
            | zero =>
                simp only [List.getElem?_cons_zero, Option.some.injEq] at hb
                rw [← hb, hf] at hq
                cases hq
                simp
            | succ i =>
                have := hfirst 0 c (by omega) rfl
                rw [hf] at this
                cases this

/-- What the first client does is the same behind a veil, or it is the hidden client who acts. -/
theorem behind_firstMove {f g : Client → Option (Session × Client)}
    (hseen : ∀ j c, s.clients[j]? = some c → v.place ≠ some j →
      g (v.client c) = (f c).map fun p => (p.1.behind v, v.client p.2))
    (hhidden : ∀ j c p, s.clients[j]? = some c → v.place = some j → f c = some p →
      p.1.behind v = s.behind v) :
    (firstMove f [] s.clients = none → firstMove g [] (v.clients s.clients) = none) ∧
      ∀ s', firstMove f [] s.clients = some s' →
        firstMove g [] (v.clients s.clients) = some (s'.behind v) ∨
          v.place ≠ none ∧ s'.behind v = s.behind v := by
  -- Whoever is seen behind the veil is someone before it.
  have hback {j' : Nat} {c' : Client} (hc' : (v.clients s.clients)[j']? = some c') :
      ∃ j c, v.place ≠ some j ∧ v.seat j = j' ∧ s.clients[j]? = some c ∧ c' = v.client c := by
    obtain ⟨j, hj, rfl⟩ := v.exists_seat j'
    rw [Veil.getElem?_clients hj] at hc'
    obtain ⟨c, hc, rfl⟩ := Option.map_eq_some_iff.1 hc'
    exact ⟨j, c, hj, rfl, hc, rfl⟩
  refine ⟨?_, ?_⟩
  · intro hnone
    refine firstMove_eq_none.2 fun c' hc' => ?_
    obtain ⟨j', hj'⟩ := List.mem_iff_getElem?.1 hc'
    obtain ⟨j, c, hj, -, hc, rfl⟩ := hback hj'
    rw [hseen j c hc hj, firstMove_eq_none.1 hnone c (List.mem_of_getElem? hc)]
    rfl
  · intro s' hsome
    obtain ⟨i, c, p, hc, hp, hfirst, rfl⟩ := firstMove_eq_some.1 hsome
    by_cases hi : v.place = some i
    · refine .inr ⟨by simp [hi], ?_⟩
      have hp' := hhidden i c p hc hi hp
      have hclients := Veil.clients_set_place hi s.clients p.2
      calc ({ p.1 with clients := s.clients.set i p.2 } : Session).behind v
          = { p.1.behind v with clients := v.clients (s.clients.set i p.2) } := rfl
        _ = s.behind v := by rw [hp', hclients]; rfl
    · refine .inl (firstMove_eq_some.2
        ⟨v.seat i, v.client c, (p.1.behind v, v.client p.2), ?_, ?_, ?_, ?_⟩)
      · rw [Veil.getElem?_clients hi, hc]
        rfl
      · rw [hseen i c hc hi, hp]
        rfl
      · intro j' b' hj' hb'
        obtain ⟨j, b, hj, rfl, hb, rfl⟩ := hback hb'
        rw [hseen j b hb hj, hfirst j b (Veil.lt_of_seat_lt hj hi hj') hb]
        rfl
      · have hclients := Veil.clients_set hi s.clients p.2
        calc ({ p.1 with clients := s.clients.set i p.2 } : Session).behind v
            = { p.1.behind v with clients := v.clients (s.clients.set i p.2) } := rfl
          _ = _ := by rw [hclients]; rfl

/-- The clients move behind a veil as they do before it, or the hidden client is told something. -/
theorem behind_clientMove? (h : v.Hides s) :
    (s.clientMove? = none → (s.behind v).clientMove? = none) ∧
      ∀ s', s.clientMove? = some s' →
        (s.behind v).clientMove? = some (s'.behind v) ∨
          v.place ≠ none ∧ s'.behind v = s.behind v := by
  have hclients : (s.behind v).clients = v.clients s.clients := rfl
  simp only [clientMove?, clientMoveFrom?_eq_firstMove, hclients]
  refine behind_firstMove ?_ ?_
  · intro j c hc hj
    refine behind_clientStep? ?_ s
    rintro call hcall ⟨hwhole, rfl⟩
    exact hj (h.waiting j c hc hcall hwhole)
  · intro k c p hc hk hp
    rcases h.hidden hk hc with ⟨deadline, rfl⟩ | ⟨o, rfl⟩
    · obtain ⟨o, -, rfl⟩ := Option.map_eq_some_iff.1 hp
      rfl
    · cases hp

/-! ### Moves behind a veil -/

theorem log_terminate (s : Session) (r : Failure) : s.log <+: (s.terminate r).log := by
  by_cases h : s.reason? = none
  · exact ⟨[.became (.terminated r)], by rw [terminate_open h]⟩
  · exact ⟨[], by rw [terminate_over h, List.append_nil]⟩

/-- Whoever is not given up is taken when the worker comes to them. -/
theorem taken_dispatch {call : Nat} {c : Call} (hcall : s.calls[call]? = some c)
    (hwaits : c.abandoned = false) (hseq : c.seq = call + 1) (rest : List Nat) :
    (s.dispatch call rest).Taken call := by
  refine ⟨c.command, ?_⟩
  simp only [dispatch, hcall, hwaits, Bool.false_eq_true, if_false]
  split
  · simp [emit, hseq]
  · rename_i cause hfail
    obtain ⟨child, hkill, -⟩ := kill_eq ((((({ s with queue := rest } : Session).emit
      (.recorded .input c.seq c.command)).finish call
        (.failed (.ofTermination (.write cause)))).terminate (.write cause)))
    rw [hkill]
    exact (log_terminate _ _).subset (by simp [emit, hseq])

/-- As long as the veil is not torn, the call in flight is seen. -/
theorem not_covers_awaited (h : s.Reached) (htorn : ¬ v.Torn s) {call : Nat} {deadline : Option Nat}
    (hworker : s.worker = .awaiting call deadline) : ¬ v.Covers call := by
  rintro ⟨hwhole, rfl⟩
  exact htorn (.inl ⟨hwhole, (sent_of_awaiting h hworker).taken h⟩)

/-- As long as the veil is not torn, the worker moves behind it as it does before it, unless it
comes to the hidden call. -/
theorem behind_workerMove_of_not_torn (h : s.Reached) (htorn : ¬ v.Torn s) (hskip : ¬ v.Skips s) :
    (s.behind v).workerMove? = s.workerMove?.map (behind · v) := by
  refine behind_workerMove? hskip ?_ fun _ _ => not_covers_awaited h htorn
  intro hhalf hq hgone
  exact htorn (.inr ⟨hhalf, hgone, not_taken_of_queued h hq⟩)

/-- The worker that comes to the hidden call passes over it, or the veil is torn. -/
theorem behind_skip (h : s.Reached) (hskip : v.Skips s) :
    ∃ s', s.workerMove? = some s' ∧ (s'.Taken v.call ∨ s'.behind v = s.behind v) := by
  obtain ⟨hwhole, hworker, hhead⟩ := hskip
  obtain ⟨rest, hqueue⟩ : ∃ rest, s.queue = v.call :: rest := by
    cases hq : s.queue with
    | nil => simp [hq] at hhead
    | cons call rest => exact ⟨rest, by simpa [hq] using hhead⟩
  refine ⟨s.dispatch v.call rest, by simp [workerMove?, hworker, hqueue], ?_⟩
  have hwaits : s.Waits v.call := .inl (by simp [hqueue])
  obtain ⟨c, hc⟩ := h.tidy.call_of_waits hwaits
  cases hgone : c.abandoned with
  | false => exact .inl (taken_dispatch hc hgone (h.numbered.waiting h.placed hc hwaits).2 rest)
  | true => exact .inr (behind_dispatch_covered ⟨hwhole, rfl⟩ hqueue hc hgone)

/-- **A move is the same behind the veil, or not seen there.** -/
theorem behind_move (h : s.Reached) (hv : v.Hides s) (htorn : ¬ v.Torn s)
    (htorn' : v.whole = true → ¬ s'.Taken v.call) (hmove : s.move? = some s') :
    (s.behind v).move? = some (s'.behind v) ∨
      (v.whole = true ∨ v.place ≠ none) ∧ s'.behind v = s.behind v := by
  have hannounce := behind_announce? (v := v) s
  cases ha : s.announce? with
  | some t =>
      have hs' : t = s' := by simpa [move?, ha] using hmove
      exact .inl (by simp [move?, hannounce, ha, hs'])
  | none =>
      rw [ha, Option.map_none] at hannounce
      by_cases hskip : v.Skips s
      · obtain ⟨t, ht, hcases⟩ := behind_skip h hskip
        have hs' : t = s' := by simpa [move?, ha, ht] using hmove
        subst hs'
        exact .inr ⟨.inl hskip.1, hcases.resolve_left (htorn' hskip.1)⟩
      · have hworker := behind_workerMove_of_not_torn h htorn hskip
        have hpump := behind_pumpMove? (v := v) s
        have hcomplaints := behind_complaintsMove? (v := v) s
        cases hw : s.workerMove? with
        | some t =>
            have hs' : t = s' := by simpa [move?, ha, hw] using hmove
            exact .inl (by simp [move?, hannounce, hworker, hw, hs'])
        | none =>
            cases hp : s.pumpMove? with
            | some t =>
                have hs' : t = s' := by simpa [move?, ha, hw, hp] using hmove
                exact .inl (by simp [move?, hannounce, hworker, hw, hpump, hp, hs'])
            | none =>
                cases hc : s.complaintsMove? with
                | some t =>
                    have hs' : t = s' := by simpa [move?, ha, hw, hp, hc] using hmove
                    exact .inl (by
                      simp [move?, hannounce, hworker, hw, hpump, hp, hcomplaints, hc, hs'])
                | none =>
                    have hclient : s.clientMove? = some s' := by
                      simpa [move?, ha, hw, hp, hc] using hmove
                    rcases (behind_clientMove? hv).2 s' hclient with hsame | ⟨hplace, hunseen⟩
                    · exact .inl (by
                        simp [move?, hannounce, hworker, hw, hpump, hp, hcomplaints, hc, hsame])
                    · exact .inr ⟨.inr hplace, hunseen⟩

/-- A session at rest is at rest behind a veil. -/
theorem behind_quiet (h : s.Reached) (hv : v.Hides s) (htorn : ¬ v.Torn s) (hquiet : s.move? = none) :
    (s.behind v).move? = none := by
  obtain ⟨ha, hw, hp, hc⟩ := quiet_parts hquiet
  have hclient : s.clientMove? = none := by simpa [move?, ha, hw, hp, hc] using hquiet
  have hskip : ¬ v.Skips s := by
    intro hskip
    obtain ⟨t, ht, -⟩ := behind_skip h hskip
    rw [hw] at ht
    cases ht
  simp [move?, behind_announce?, ha, behind_workerMove_of_not_torn h htorn hskip, hw,
    behind_pumpMove?, hp, behind_complaintsMove?, hc, (behind_clientMove? hv).1 hclient]

/-! ### Settling behind a veil -/

theorem settleWithin_of_quiet (h : s.move? = none) (fuel : Nat) : settleWithin fuel s = s := by
  cases fuel <;> simp [settleWithin, h]

theorem settle_of_quiet (h : s.move? = none) : s.settle = s :=
  settleWithin_of_quiet h _

/-- **What is seen of a session settles as the session does**, if a move is seen as a move or not at
all, and nothing is seen to move in a session at rest. -/
theorem settleWithin_view (view : Session → Session) {P : Session → Prop}
    (hkeep : ∀ s s', P s → s.move? = some s' → P s')
    (hquiet : ∀ s, P s → s.move? = none → (view s).move? = none)
    (hmove : ∀ s s', P s → s.move? = some s' →
      (view s).move? = some (view s') ∨ view s' = view s) {fuel fuel' : Nat} (hs : P s)
    (hfuel : s.work ≤ fuel) (hfuel' : (view s).work ≤ fuel') :
    view (settleWithin fuel s) = settleWithin fuel' (view s) := by
  induction fuel generalizing s fuel' with
  | zero =>
      cases hnext : s.move? with
      | none => exact (settleWithin_of_quiet (hquiet s hs hnext) fuel').symm
      | some s' =>
          have := work_move hnext
          omega
  | succ fuel ih =>
      cases hnext : s.move? with
      | none => rw [settleWithin_of_quiet hnext, settleWithin_of_quiet (hquiet s hs hnext)]
      | some s' =>
          have hless := work_move hnext
          have hstep : settleWithin (fuel + 1) s = settleWithin fuel s' := by
            simp [settleWithin, hnext]
          rw [hstep]
          rcases hmove s s' hs hnext with hsame | hunseen
          · have hless' := work_move hsame
            cases fuel' with
            | zero => omega
            | succ fuel' =>
                have hstep' : settleWithin (fuel' + 1) (view s) = settleWithin fuel' (view s') := by
                  simp [settleWithin, hsame]
                rw [hstep']
                exact ih (hkeep s s' hs hnext) (by omega) (by omega)
          · rw [← hunseen] at hfuel' ⊢
            exact ih (hkeep s s' hs hnext) (by omega) hfuel'

theorem behind_settleWithin {fuel fuel' : Nat} (hv : v.Veiled s) (hfuel : s.work ≤ fuel)
    (hfuel' : (s.behind v).work ≤ fuel') (htorn : ¬ v.Torn (settleWithin fuel s)) :
    (settleWithin fuel s).behind v = settleWithin fuel' (s.behind v) := by
  -- A veil that is not torn in the end was not torn on the way.
  let P (t : Session) : Prop :=
    v.Veiled t ∧ ∃ fuel, t.work ≤ fuel ∧ ¬ v.Torn (settleWithin fuel t)
  have hwhole {t : Session} (h : P t) : ¬ v.Torn t := by
    obtain ⟨hv, fuel, -, htorn⟩ := h
    exact fun ht => htorn (ht.leads hv.reached (leads_settleWithin fuel t))
  have hkeep (t t' : Session) (h : P t) (hmove : t.move? = some t') : P t' := by
    obtain ⟨hv, fuel, hfuel, htorn⟩ := h
    have hless := work_move hmove
    cases fuel with
    | zero => omega
    | succ fuel =>
        refine ⟨hv.leads (leads_move hmove), fuel, by omega, ?_⟩
        simpa [settleWithin, hmove] using htorn
  refine settleWithin_view (behind · v) hkeep ?_ ?_ ⟨hv, fuel, hfuel, htorn⟩ hfuel hfuel'
  · intro t h
    exact behind_quiet h.1.reached h.1.toHides (hwhole h)
  · intro t t' h hmove
    have hfree : v.whole = true → ¬ t'.Taken v.call :=
      fun hw ht => hwhole (hkeep t t' h hmove) (.inl ⟨hw, ht⟩)
    exact (behind_move h.1.reached h.1.toHides (hwhole h) hfree hmove).imp_right And.right

/-- **A session settles behind a veil as it does before it.** -/
theorem behind_settle (hv : v.Veiled s) (htorn : ¬ v.Torn s.settle) :
    s.settle.behind v = (s.behind v).settle :=
  behind_settleWithin hv (Nat.le_refl _) (Nat.le_refl _) htorn

end Session

end ReplBridge.Repl
