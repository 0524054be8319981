import ReplBridge.Proofs.Repl.Session.Completion
import ReplBridge.Proofs.Repl.Session.Settle

/-!
**Who moves, and what nobody else moves.**

Every party of a session has a place of its own in it: the worker, and each client its place in the
list of clients.  The acts of the others do not reach these places.  A worker at work is moved by
itself and by its timer; a client is moved by itself and by its timer; and whoever else acts leaves
both as they are, apart from clients that come to stand behind all others.  And only the launcher
brings a subprocess.

Main definitions:

* `Session.Untouched` — the clients are where they were, and nothing was launched;
* `Session.Unmoved` — so is the worker;
* `Session.Comes` — how a client that comes with an event begins.

Main results:

* `Session.perform_launched` — **only the launcher launches**;
* `Session.perform_worker` — **only the worker and its timer move a worker at work**;
* `Session.perform_clients`, `Session.perform_client` — **only a client and its timer move that
  client**.
-/

set_option autoImplicit false

namespace ReplBridge.Repl.Session

variable {s s' t u : Session}

/-- The clients are where they were, and nothing was launched. -/
structure Untouched (s s' : Session) : Prop where
  clients : s'.clients = s.clients
  launching : s'.launching = s.launching
  launched : s'.launched = s.launched

/-- The worker is where it was, too. -/
structure Unmoved (s s' : Session) : Prop extends Untouched s s' where
  worker : s'.worker = s.worker

theorem Untouched.trans (h : s.Untouched t) (h' : t.Untouched u) : s.Untouched u :=
  ⟨h'.clients.trans h.clients, h'.launching.trans h.launching, h'.launched.trans h.launched⟩

theorem Unmoved.refl (s : Session) : s.Unmoved s := ⟨⟨rfl, rfl, rfl⟩, rfl⟩

theorem Unmoved.trans (h : s.Unmoved t) (h' : t.Unmoved u) : s.Unmoved u :=
  ⟨h.toUntouched.trans h'.toUntouched, h'.worker.trans h.worker⟩

theorem unmoved_terminate (s : Session) (r : Failure) : s.Unmoved (s.terminate r) :=
  ⟨⟨terminate_clients s r, terminate_launching s r, terminate_launched s r⟩, terminate_worker s r⟩

theorem unmoved_childExits (s : Session) (status : Option Failure) :
    s.Unmoved (s.childExits status) := by
  obtain ⟨child, heq, -⟩ := childExits_eq s status
  rw [heq]
  exact ⟨⟨rfl, rfl, rfl⟩, rfl⟩

theorem unmoved_kill (s : Session) : s.Unmoved s.kill := by
  obtain ⟨child, heq, -⟩ := kill_eq s
  rw [heq]
  exact ⟨⟨rfl, rfl, rfl⟩, rfl⟩

theorem unmoved_closeStdin (s : Session) : s.Unmoved s.closeStdin := by
  obtain ⟨child, heq, -⟩ := closeStdin_eq s
  rw [heq]
  exact ⟨⟨rfl, rfl, rfl⟩, rfl⟩

theorem unmoved_submit (s : Session) (command : Bytes) (last : Bool) :
    s.Unmoved (s.submit command last) := by
  unfold submit
  split <;> exact ⟨⟨rfl, rfl, rfl⟩, rfl⟩

theorem unmoved_release (s : Session) (result : Option Failure) :
    s.Unmoved (s.release result).1 := by
  unfold release
  split
  · exact unmoved_terminate s _
  · exact unmoved_closeStdin s

theorem unmoved_shut (s : Session) : s.Unmoved s.shut.1 := by
  by_cases hlaunched : s.launched = none
  · rw [shut_of_none hlaunched]
    exact .refl s
  · rw [shut_of_launched hlaunched]
    exact (unmoved_closeStdin s).trans (unmoved_kill _)

theorem unmoved_clientStep {c c' : Client} (h : s.clientStep? c = some (s', c')) :
    s.Unmoved s' := by
  cases clientStep?_eq_some h with
  | returns | closed => exact .refl s
  | leaves | released | reaped => exact unmoved_terminate s _
  | releases => exact unmoved_release s _
  | shuts => exact unmoved_shut s

theorem unmoved_expireClient (s : Session) (c : Client) : s.Unmoved (s.expireClient c).1 := by
  cases c with
  | executing call deadline => exact ⟨⟨rfl, rfl, rfl⟩, rfl⟩
  | quitting call deadline =>
      exact Unmoved.trans (t := s.giveUp call) ⟨⟨rfl, rfl, rfl⟩, rfl⟩ (unmoved_release _ _)
  | releasing result deadline => exact unmoved_kill s
  | leaving | reaping | shutting | closing | executed | hasQuit | hasClosed => exact .refl s

theorem unmoved_announce (h : s.announce? = some s') : s.Unmoved s' := by
  obtain ⟨-, -, rfl⟩ := announce?_eq_some h
  exact ⟨⟨rfl, rfl, rfl⟩, rfl⟩

theorem unmoved_pumpMove (h : s.pumpMove? = some s') : s.Unmoved s' := by
  cases pumpMove?_eq_some h <;> exact ⟨⟨rfl, rfl, rfl⟩, rfl⟩

theorem unmoved_complaintsMove (h : s.complaintsMove? = some s') : s.Unmoved s' := by
  cases complaintsMove?_eq_some h <;> exact ⟨⟨rfl, rfl, rfl⟩, rfl⟩

/-! ### Events -/

/-- How a client that comes with an event begins. -/
def Comes (s : Session) (e : Event) : Client → Prop
  | .executing call deadline => call = s.calls.length ∧
    ∃ command limit, e = .execute command limit ∧ deadline = s.deadline limit
  | .quitting call deadline => call = s.calls.length ∧ s.state ≠ .idle ∧
    ∃ command limit, e = .quit command limit ∧ deadline = s.deadline limit
  | .leaving => s.state = .idle ∧ ∃ command limit, e = .quit command limit
  | .shutting => e = .close
  | _ => False

/-- **What an event does to the parties**: nothing, or it brings a client; or the session is started;
or the launcher returns. -/
theorem event_parties (s : Session) (e : Event) :
    s.Unmoved (s.perform (.event e)) ∨
    (∃ t c, s.Unmoved t ∧ s.Comes e c ∧ s.perform (.event e) = t.join c) ∨
    (e = .start ∧ s.state = .idle) ∨ (e = .launch ∧ s.launching = true) := by
  have hjoin {t : Session} (h : s.Unmoved t) {c : Client} (hc : s.Comes e c) :
      s.Unmoved (t.join c) ∨ (∃ t' c', s.Unmoved t' ∧ s.Comes e c' ∧ t.join c = t'.join c') ∨
        (e = .start ∧ s.state = .idle) ∨ (e = .launch ∧ s.launching = true) :=
    .inr (.inl ⟨t, c, h, hc, rfl⟩)
  cases e with
  | start =>
      by_cases hidle : s.state = .idle
      · exact .inr (.inr (.inl ⟨rfl, hidle⟩))
      · have heq : s.perform (.event .start) = s := start_of_begun hidle
        refine .inl ?_
        rw [heq]
        exact .refl s
  | launch =>
      rcases launch_cases s with ⟨-, heq⟩ | ⟨hlaunching, -⟩ | ⟨hlaunching, -⟩
      · have heq : s.perform (.event .launch) = s := heq
        refine .inl ?_
        rw [heq]
        exact .refl s
      · exact .inr (.inr (.inr ⟨rfl, hlaunching⟩))
      · exact .inr (.inr (.inr ⟨rfl, hlaunching⟩))
  | submit command => exact .inl (unmoved_submit s command false)
  | abandon call =>
      refine .inl ?_
      simp only [perform, apply, abandon]
      split
      · exact .refl s
      · exact ⟨⟨rfl, rfl, rfl⟩, rfl⟩
  | execute command limit =>
      exact hjoin (unmoved_submit s command false) ⟨rfl, command, limit, rfl, rfl⟩
  | quit command limit =>
      simp only [perform, apply, quit]
      split
      · rename_i hidle
        exact hjoin (.refl s) ⟨hidle, command, limit, rfl⟩
      · rename_i hstarted
        exact hjoin (unmoved_submit s command true) ⟨rfl, hstarted, command, limit, rfl, rfl⟩
  | close => exact hjoin (unmoved_terminate s (.plain .closed)) rfl
  | output text =>
      refine .inl ?_
      simp only [perform, apply, write]
      split
      · exact .refl s
      · exact ⟨⟨rfl, rfl, rfl⟩, rfl⟩
  | complaint text =>
      refine .inl ?_
      simp only [perform, apply, complain]
      split
      · exact .refl s
      · exact ⟨⟨rfl, rfl, rfl⟩, rfl⟩
  | exit status => exact .inl (unmoved_childExits s status)
  | breakStdin | breakStdout | pass => exact .inl ⟨⟨rfl, rfl, rfl⟩, rfl⟩

theorem launch_clients (s : Session) : s.launch.clients = s.clients := by
  rcases launch_cases s with ⟨-, heq⟩ | ⟨-, reason, heq⟩ | ⟨-, manner, -, heq⟩
  · rw [heq]
  · rw [heq, terminate_clients]
  · rw [heq]

/-- An event may bring clients, to stand behind the others. -/
theorem event_clients (s : Session) (e : Event) :
    ∃ more, (s.perform (.event e)).clients = s.clients ++ more ∧ ∀ c ∈ more, s.Comes e c := by
  have hnobody {s' : Session} (h : s'.clients = s.clients) :
      ∃ more, s'.clients = s.clients ++ more ∧ ∀ c ∈ more, s.Comes e c :=
    ⟨[], by simpa using h, by simp⟩
  rcases event_parties s e with hstays | ⟨t, c, ht, hc, heq⟩ | ⟨rfl, hidle⟩ | ⟨rfl, -⟩
  · exact hnobody hstays.clients
  · refine ⟨[c], ?_, by simpa using hc⟩
    rw [heq]
    simp [join, ht.clients]
  · have heq : s.perform (.event .start) = s.start := rfl
    exact hnobody (by rw [heq, start_eq hidle])
  · exact hnobody (launch_clients s)

/-! ### The worker -/

/-- A worker that ends the session and stops touches nobody. -/
theorem untouched_end_stop (s : Session) (r : Failure) : s.Untouched (s.terminate r).stop :=
  ⟨terminate_clients s r, terminate_launching s r, terminate_launched s r⟩

theorem untouched_end_kill (s : Session) (r : Failure) : s.Untouched (s.terminate r).stop.kill :=
  (untouched_end_stop s r).trans (unmoved_kill _).toUntouched

theorem untouched_dispatch (s : Session) (call : Nat) (rest : List Nat) :
    s.Untouched (s.dispatch call rest) := by
  unfold dispatch
  split
  · exact ⟨rfl, rfl, rfl⟩
  · dsimp only
    split
    · exact ⟨rfl, rfl, rfl⟩
    · split
      · exact ⟨rfl, rfl, rfl⟩
      · rw [kill_stop]
        refine Untouched.trans ?_ (untouched_end_kill _ _)
        exact ⟨rfl, rfl, rfl⟩

theorem untouched_dropOffer (s : Session) : s.Untouched s.dropOffer := by
  unfold dropOffer
  split <;> exact ⟨rfl, rfl, rfl⟩

theorem untouched_greet (s : Session) (banner : Bytes) : s.Untouched (s.greet banner) := by
  have hdrop := untouched_dropOffer s
  dsimp only [greet]
  split <;> exact ⟨hdrop.clients, hdrop.launching, hdrop.launched⟩

theorem untouched_answer (s : Session) (call : Nat) (frame : Bytes) :
    s.Untouched (s.answer call frame) := by
  have hdrop := untouched_dropOffer s
  unfold answer
  split
  · exact ⟨hdrop.clients, hdrop.launching, hdrop.launched⟩
  · dsimp only
    split
    · exact ⟨(terminate_clients _ _).trans hdrop.clients,
        (terminate_launching _ _).trans hdrop.launching,
        (terminate_launched _ _).trans hdrop.launched⟩
    · exact ⟨hdrop.clients, hdrop.launching, hdrop.launched⟩

theorem untouched_lose (s : Session) (call : Nat) (tail : Bytes) (status : Option Failure) :
    s.Untouched (s.lose call tail status) := by
  unfold lose
  split
  · exact ⟨rfl, rfl, rfl⟩
  · split
    · exact ⟨terminate_clients _ _, terminate_launching _ _, terminate_launched _ _⟩
    · exact ⟨terminate_clients _ _, terminate_launching _ _, terminate_launched _ _⟩

theorem untouched_expire (s : Session) (call : Nat) : s.Untouched (s.expire call) := by
  unfold expire
  split
  · exact ⟨rfl, rfl, rfl⟩
  · dsimp only
    rw [kill_stop]
    refine Untouched.trans ?_ (untouched_end_kill _ _)
    exact ⟨rfl, rfl, rfl⟩

/-- A command that has had its time ends the session, and the worker stops. -/
theorem expire_over {q : Nat} {c : Call} (hcall : s.calls[q]? = some c) :
    (s.expire q).worker = .off ∧ (s.expire q).reason? ≠ none := by
  simp only [expire, hcall]
  refine ⟨rfl, ?_⟩
  obtain ⟨child, heq, -⟩ := kill_eq ((s.finish q (.failed
    (.timedOut s.options.commandTimeout c.command))).terminate
      (.timedOut s.options.commandTimeout c.command))
  rw [heq]
  exact terminate_reason? _ _

theorem untouched_workerMove (h : s.workerMove? = some s') : s.Untouched s' := by
  cases workerMove?_eq_some h with
  | stops | fails => exact ⟨rfl, rfl, rfl⟩
  | departs => exact untouched_end_stop s _
  | greets => exact untouched_greet s _
  | dispatches => exact untouched_dispatch s _ _
  | answers => exact untouched_answer s _ _
  | loses => exact untouched_lose s _ _ _

/-- What the worker does, alone or at the end of its time, touches nobody. -/
theorem untouched_perform {a : Act} (h : a = .worker ∨ a = .timer) : s.Untouched (s.perform a) := by
  have hperformed := s.performed a
  generalize s.perform a = s' at hperformed ⊢
  cases hperformed with
  | nothing => exact ⟨rfl, rfl, rfl⟩
  | worker hmove => exact untouched_workerMove hmove
  | timer => exact untouched_expire s _
  | event | announce | pump | complaints | client | clientTimer => simp at h

/-! ### Whoever else acts -/

/-- **What the others do leaves the worker where it is**, and nothing is launched; the clients may
have moved. -/
theorem perform_others {a : Act} (hevent : ∀ e, a ≠ .event e) (hworker : a ≠ .worker)
    (htimer : a ≠ .timer) : ∃ t clients, s.Unmoved t ∧ s.perform a = { t with clients } := by
  have hstays {t : Session} (h : s.Unmoved t) :
      ∃ t' clients, s.Unmoved t' ∧ t = { t' with clients } := ⟨t, t.clients, h, rfl⟩
  have hperformed := s.performed a
  generalize s.perform a = s' at hperformed ⊢
  cases hperformed with
  | nothing => exact hstays (.refl s)
  | event e => exact absurd rfl (hevent e)
  | worker => exact absurd rfl hworker
  | timer => exact absurd rfl htimer
  | announce hmove => exact hstays (unmoved_announce hmove)
  | pump hmove => exact hstays (unmoved_pumpMove hmove)
  | complaints hmove => exact hstays (unmoved_complaintsMove hmove)
  | client _ hstep => exact ⟨_, _, unmoved_clientStep hstep, rfl⟩
  | clientTimer => exact ⟨_, _, unmoved_expireClient s _, rfl⟩

/-- **A worker at work is moved by itself and by its timer only.** -/
theorem perform_worker (hp : s.Placed) (hbusy : s.worker ≠ .off) {a : Act} (hworker : a ≠ .worker)
    (htimer : a ≠ .timer) : (s.perform a).worker = s.worker := by
  by_cases hevent : ∃ e, a = .event e
  · obtain ⟨e, rfl⟩ := hevent
    rcases event_parties s e with hstays | ⟨t, c, ht, -, heq⟩ | ⟨rfl, hidle⟩ | ⟨-, hlaunching⟩
    · exact hstays.worker
    · rw [heq]
      exact ht.worker
    · have heq : s.perform (.event .start) = s.start := rfl
      rw [heq, start_eq hidle]
    · exact absurd (hp.off (hp.early (.inr hlaunching))) hbusy
  · obtain ⟨t, clients, ht, heq⟩ :=
      perform_others (s := s) (fun e he => hevent ⟨e, he⟩) hworker htimer
    rw [heq]
    exact ht.worker

/-- **Only the launcher launches.** -/
theorem perform_launched (s : Session) {a : Act} (ha : a ≠ .event .launch) :
    (s.perform a).launched = s.launched := by
  by_cases hworker : a = .worker ∨ a = .timer
  · exact (untouched_perform hworker).launched
  · by_cases hevent : ∃ e, a = .event e
    · obtain ⟨e, rfl⟩ := hevent
      rcases event_parties s e with hstays | ⟨t, c, ht, -, heq⟩ | ⟨rfl, hidle⟩ | ⟨rfl, -⟩
      · exact hstays.launched
      · rw [heq]
        exact ht.launched
      · have heq : s.perform (.event .start) = s.start := rfl
        rw [heq, start_eq hidle]
      · exact absurd rfl ha
    · obtain ⟨hnot, hnot'⟩ := not_or.1 hworker
      obtain ⟨t, clients, ht, heq⟩ :=
        perform_others (s := s) (fun e he => hevent ⟨e, he⟩) hnot hnot'
      rw [heq]
      exact ht.launched

/-! ### The clients -/

/-- **What an act does to the clients**: some may come to stand behind the others, or one of them
moves, or the time of one is up. -/
theorem perform_clients (s : Session) (a : Act) :
    (∃ more, (s.perform a).clients = s.clients ++ more ∧
      ∀ c ∈ more, ∃ e, a = .event e ∧ s.Comes e c) ∨
    (∃ i c s' c', a = .client i ∧ s.clients[i]? = some c ∧ s.clientStep? c = some (s', c') ∧
      s.perform a = { s' with clients := s.clients.set i c' }) ∨
    ∃ i c deadline, a = .clientTimer i ∧ s.clients[i]? = some c ∧ c.deadline? = some deadline ∧
      deadline ≤ s.now ∧ s.perform a =
        { (s.expireClient c).1 with clients := s.clients.set i (s.expireClient c).2 } := by
  have hsame {s' : Session} (h : s'.clients = s.clients) :
      ∃ more, s'.clients = s.clients ++ more ∧ ∀ c ∈ more, ∃ e, a = .event e ∧ s.Comes e c :=
    ⟨[], by simpa using h, by simp⟩
  have hperformed := s.performed a
  generalize s.perform a = s' at hperformed ⊢
  cases hperformed with
  | nothing => exact .inl (hsame rfl)
  | event e =>
      obtain ⟨more, hmore, hcomes⟩ := event_clients s e
      exact .inl ⟨more, hmore, fun c hc => ⟨e, rfl, hcomes c hc⟩⟩
  | announce hmove => exact .inl (hsame (unmoved_announce hmove).clients)
  | worker hmove => exact .inl (hsame (untouched_workerMove hmove).clients)
  | timer => exact .inl (hsame (untouched_expire s _).clients)
  | pump hmove => exact .inl (hsame (unmoved_pumpMove hmove).clients)
  | complaints hmove => exact .inl (hsame (unmoved_complaintsMove hmove).clients)
  | client hc hstep => exact .inr (.inl ⟨_, _, _, _, rfl, hc, hstep, rfl⟩)
  | clientTimer hc hdeadline hdue => exact .inr (.inr ⟨_, _, _, rfl, hc, hdeadline, hdue, rfl⟩)

/-- **A client is moved by itself and by its timer only.** -/
theorem perform_client {i : Nat} {c : Client} (hc : s.clients[i]? = some c) (a : Act) :
    (s.perform a).clients[i]? = some c ∨
      (∃ s' c', a = .client i ∧ s.clientStep? c = some (s', c') ∧
        s.perform a = { s' with clients := s.clients.set i c' }) ∨
      ∃ deadline, a = .clientTimer i ∧ c.deadline? = some deadline ∧ deadline ≤ s.now ∧
        s.perform a =
          { (s.expireClient c).1 with clients := s.clients.set i (s.expireClient c).2 } := by
  have hlt := (List.getElem?_eq_some_iff.1 hc).1
  rcases perform_clients s a with ⟨more, hmore, -⟩ | ⟨j, c₁, s', c', rfl, hj, hstep, heq⟩ |
    ⟨j, c₁, deadline, rfl, hj, hdue, hle, heq⟩
  · exact .inl (by rw [hmore, List.getElem?_append_left hlt, hc])
  · by_cases hij : j = i
    · subst hij
      rw [hc] at hj
      cases hj
      exact .inr (.inl ⟨s', c', rfl, hstep, heq⟩)
    · exact .inl (by simp [heq, List.getElem?_set_ne hij, hc])
  · by_cases hij : j = i
    · subst hij
      rw [hc] at hj
      cases hj
      exact .inr (.inr ⟨deadline, rfl, hdue, hle, heq⟩)
    · exact .inl (by simp [heq, List.getElem?_set_ne hij, hc])

end ReplBridge.Repl.Session
