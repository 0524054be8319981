import ReplBridge.Proofs.Repl.Session.Close

/-!
**Who sees the subprocess off.**

A session may end in many places, and nearly all of them leave the subprocess in good hands.  The
worker that cannot write, and the one whose command had its time, kill it; whoever hears of its end
knows that it is gone; a close kills it; and where the answer to the last command ends the session,
the quit that asked for it is still there, to close the input of the subprocess and, if need be, to
kill it.

Two acts do not.  A close, or a quit whose wait ends, sees no subprocess as long as the launcher is
at work, and returns; the subprocess that the launcher then brings is *forsaken*.  And a quit that
found the session idle ends it without a look at what was launched meanwhile.

Main definitions:

* `Repl.Client.parting` — clients that see the subprocess off;
* `Session.Tended` — what an act may do to the end of a session;
* `Session.SeenOff`, `Session.Attended` — the subprocess is seen off when it has to be;
* `Session.Forsakes` — acts after which nobody sees the subprocess off.

Main results:

* `Session.tended_perform` — **nobody but a quit or a close ends a session that has a subprocess and
  leaves it alone**;
* `Session.Attended.perform` — an act that does not forsake the subprocess leaves it attended;
* `Session.attended_or_forsaken` — **the subprocess is attended after every play, unless it was
  forsaken**.
-/

set_option autoImplicit false

namespace ReplBridge.Repl

/-- Whether a client has still to see the subprocess off: a quit that asked for a command, or a
close, that is not through yet. -/
def Client.parting : Client → Bool
  | .quitting _ _ | .releasing _ _ | .reaping _ | .shutting | .closing _ => true
  | _ => false

namespace Session

variable {s s' : Session} {l : Label}

/-! ### What nobody but its owner touches -/

@[simp] theorem childExits_kills (s : Session) (status : Option Failure) :
    (s.childExits status).child.kills = s.child.kills := by
  unfold childExits
  split <;> rfl

@[simp] theorem closeStdin_kills (s : Session) : s.closeStdin.child.kills = s.child.kills := by
  dsimp only [closeStdin]
  split
  · split <;> simp
  · rfl

theorem kill_calls (s : Session) : s.kill.calls = s.calls := by
  obtain ⟨child, heq, -⟩ := kill_eq s
  rw [heq]

theorem dropOffer_keeps (s : Session) :
    s.dropOffer.child = s.child ∧ s.dropOffer.state = s.state ∧ s.dropOffer.calls = s.calls := by
  unfold dropOffer
  split <;> exact ⟨rfl, rfl, rfl⟩

/-! ### Who may end a session -/

/-- Somebody has asked for a last command. -/
def Quits (s : Session) : Prop := ∃ c ∈ s.calls, c.last = true

/-- **What an act other than a quit or a close may do to the end of a session.**  If it ends the
session, it kills the subprocess, or the subprocess was known to be gone, or there is none; or
somebody has asked for a last command before. -/
structure Tended (s s' : Session) : Prop where
  /-- A kill is not taken back. -/
  kills : s.child.kills ≤ s'.child.kills
  ended : s'.reason? = s.reason? ∨ s.child.kills < s'.child.kills ∨ s.childGone = true ∨
    s'.launched = none ∨ s.Quits
  /-- Nobody has asked for a last command who had not. -/
  quits : s'.Quits → s.Quits

theorem map_last_modify (calls : List Call) (i : Nat) {f : Call → Call}
    (hf : ∀ c, (f c).last = c.last) : (calls.modify i f).map Call.last = calls.map Call.last := by
  apply List.ext_getElem?
  intro j
  rw [List.getElem?_map, List.getElem?_map, List.getElem?_modify]
  cases calls[j]? with
  | none => rfl
  | some c => by_cases hij : i = j <;> simp [hij, hf]

theorem map_last_terminate (s : Session) (r : Failure) :
    (s.terminate r).calls.map Call.last = s.calls.map Call.last := by
  by_cases h : s.reason? = none
  · rw [terminate_open h]
    apply List.ext_getElem?
    intro j
    rw [List.getElem?_map, List.getElem?_map, getElem?_finishAll]
    cases s.calls[j]? with
    | none => rfl
    | some c => by_cases hj : j ∈ s.queue <;> simp [hj]
  · rw [terminate_over h]

theorem quits_of_map (h : s'.calls.map Call.last = s.calls.map Call.last) (hquits : s'.Quits) :
    s.Quits := by
  obtain ⟨c, hc, hlast⟩ := hquits
  have hmem : true ∈ s.calls.map Call.last := by
    rw [← h, ← hlast]
    exact List.mem_map_of_mem hc
  exact List.mem_map.1 hmem

namespace Tended

variable {s s' : Session}

/-- The session does not end. -/
theorem same (hkills : s'.child.kills = s.child.kills) (hstate : s'.state = s.state)
    (hlast : s'.calls.map Call.last = s.calls.map Call.last) : s.Tended s' := by
  refine ⟨Nat.le_of_eq hkills.symm, .inl ?_, quits_of_map hlast⟩
  simp [reason?, hstate]

theorem killed (hkills : s'.child.kills = s.child.kills + 1)
    (hlast : s'.calls.map Call.last = s.calls.map Call.last) : s.Tended s' :=
  ⟨by omega, .inr (.inl (by omega)), quits_of_map hlast⟩

theorem gone (hkills : s'.child.kills = s.child.kills)
    (hgone : s.childGone = true ∨ s'.launched = none ∨ s.Quits)
    (hlast : s'.calls.map Call.last = s.calls.map Call.last) : s.Tended s' :=
  ⟨Nat.le_of_eq hkills.symm, .inr (.inr hgone), quits_of_map hlast⟩

end Tended

theorem tended_dispatch (s : Session) (call : Nat) (rest : List Nat) :
    s.Tended (s.dispatch call rest) := by
  unfold dispatch
  split
  · exact .same rfl rfl rfl
  · dsimp only
    split
    · exact .same rfl rfl (map_last_modify _ _ (Call.finish_last _))
    · split
      · exact .same rfl rfl rfl
      · refine .killed ?_ ?_
        · rw [kill_stop, kill_kills]
          simp [stop, emit]
        · rw [kill_stop, kill_calls]
          exact (map_last_terminate _ _).trans (map_last_modify _ _ (Call.finish_last _))

theorem tended_answer (s : Session) (call : Nat) (frame : Bytes) :
    s.Tended (s.answer call frame) := by
  obtain ⟨hchild, hstate, hcalls⟩ := dropOffer_keeps s
  unfold answer
  split
  · exact .same (congrArg Child.kills hchild) hstate (congrArg _ hcalls)
  · rename_i c hcall
    dsimp only
    split
    · rename_i hlast
      refine .gone ?_ (.inr (.inr ⟨c, List.mem_of_getElem? hcall, hlast⟩)) ?_
      · simp [stop, recordFrame, emit, hchild]
      · refine (map_last_modify _ _ (Call.finish_last _)).trans ((map_last_terminate _ _).trans ?_)
        exact congrArg _ hcalls
    · refine .same (congrArg Child.kills hchild) hstate ?_
      exact (map_last_modify _ _ (Call.finish_last _)).trans (congrArg _ hcalls)

theorem tended_lose (hgone : s.childGone = true) (call : Nat) (tail : Bytes)
    (status : Option Failure) : s.Tended (s.lose call tail status) := by
  unfold lose
  split
  · exact .same rfl rfl rfl
  · split
    · refine .gone (by simp [stop, recordFrame, emit]) (.inl hgone) ?_
      exact (map_last_modify _ _ (Call.finish_last _)).trans (map_last_terminate _ _)
    · refine .gone (by simp [stop]) (.inl hgone) ?_
      exact (map_last_terminate _ _).trans (map_last_modify _ _ (Call.finish_last _))

/-- The worker stops when it hears of the end of the subprocess. -/
theorem tended_end_stop (hgone : s.childGone = true) (r : Failure) :
    s.Tended (s.terminate r).stop :=
  .gone (by simp [stop]) (.inl hgone) (map_last_terminate s r)

theorem tended_greet (s : Session) (banner : Bytes) : s.Tended (s.greet banner) := by
  obtain ⟨hchild, hstate, hcalls⟩ := dropOffer_keeps s
  dsimp only [greet]
  split
  · rename_i hstarting
    have hstarting : s.state = .starting := hstate ▸ hstarting
    refine ⟨Nat.le_of_eq (congrArg Child.kills hchild.symm), .inl ?_, quits_of_map ?_⟩
    · simp [reason?, emit, hstarting]
    · exact congrArg _ hcalls
  · exact .same (congrArg Child.kills hchild) hstate (congrArg _ hcalls)

theorem tended_workerMove (h : s.workerMove? = some s') : s.Tended s' := by
  cases workerMove?_eq_some h with
  | stops => exact .same rfl rfl rfl
  | departs _ hpump => exact tended_end_stop (by simp [childGone, hpump]) _
  | greets => exact tended_greet s _
  | dispatches => exact tended_dispatch s _ _
  | fails => exact .same rfl rfl (map_last_modify _ _ (Call.finish_last _))
  | answers => exact tended_answer s _ _
  | loses _ _ hpump => exact tended_lose (by simp [childGone, hpump]) _ _ _

theorem tended_pumpMove (h : s.pumpMove? = some s') : s.Tended s' := by
  cases pumpMove?_eq_some h <;> exact .same rfl rfl rfl

theorem tended_complaintsMove (h : s.complaintsMove? = some s') : s.Tended s' := by
  cases complaintsMove?_eq_some h <;> exact .same rfl rfl rfl

theorem tended_release (s : Session) (result : Option Failure) : s.Tended (s.release result).1 := by
  unfold release
  split
  · rename_i hnone
    exact .gone (by simp) (.inr (.inl (by simp [hnone]))) (map_last_terminate s _)
  · obtain ⟨child, heq, -⟩ := closeStdin_eq s
    refine .same (closeStdin_kills s) ?_ ?_
    · rw [heq]
    · rw [heq]

theorem tended_shut (s : Session) : s.Tended s.shut.1 := by
  by_cases hlaunched : s.launched = none
  · rw [shut_of_none hlaunched]
    exact .same rfl rfl rfl
  · obtain ⟨child, heq, -⟩ := closeStdin_eq s
    rw [shut_of_launched hlaunched]
    refine .killed (by simp [kill_kills]) ?_
    rw [kill_calls, heq]

theorem tended_clientStep {c c' : Client} (hc : c ≠ .leaving) (h : s.clientStep? c = some (s', c')) :
    s.Tended s' := by
  cases clientStep?_eq_some h with
  | leaves => exact absurd rfl hc
  | returns | closed => exact .same rfl rfl rfl
  | releases => exact tended_release s _
  | released hgone | reaped hgone => exact .gone (by simp) (.inl hgone) (map_last_terminate s _)
  | shuts => exact tended_shut s

theorem tended_expireClient (s : Session) (c : Client) : s.Tended (s.expireClient c).1 := by
  have hgiveUp (call : Nat) : s.Tended (s.giveUp call) :=
    .same rfl rfl (map_last_modify _ _ fun _ => rfl)
  cases c with
  | executing call deadline => exact hgiveUp call
  | quitting call deadline =>
      have hrelease := tended_release (s.giveUp call) (some (.plain .deadlineExceeded))
      refine ⟨hrelease.kills, ?_, fun hquits => (hgiveUp call).quits (hrelease.quits hquits)⟩
      rcases hrelease.ended with hsame | hkilled | hgone | hnone | hquits
      · exact .inl hsame
      · exact .inr (.inl hkilled)
      · exact .inr (.inr (.inl hgone))
      · exact .inr (.inr (.inr (.inl hnone)))
      · exact .inr (.inr (.inr (.inr ((hgiveUp call).quits hquits))))
  | releasing result deadline => exact .killed (kill_kills s) (congrArg _ (kill_calls s))
  | leaving | reaping | shutting | closing | executed | hasQuit | hasClosed =>
      exact .same rfl rfl rfl

theorem tended_expire (s : Session) (call : Nat) : s.Tended (s.expire call) := by
  unfold expire
  split
  · exact .same rfl rfl rfl
  · dsimp only
    refine .killed ?_ ?_
    · rw [kill_stop, kill_kills]
      simp [stop]
    · rw [kill_stop, kill_calls]
      exact (map_last_terminate _ _).trans (map_last_modify _ _ (Call.finish_last _))

theorem tended_submit (s : Session) (command : Bytes) : s.Tended (s.submit command false) := by
  have hquits {s' : Session} {c : Call} (hcalls : s'.calls = s.calls ++ [c])
      (hlast : c.last = false) : s'.Quits → s.Quits := by
    rintro ⟨b, hb, hb'⟩
    rw [hcalls] at hb
    rcases List.mem_append.1 hb with hold | hnew
    · exact ⟨b, hold, hb'⟩
    · rw [List.mem_singleton.1 hnew, hlast] at hb'
      cases hb'
  cases hreason : s.reason? with
  | none =>
      rw [submit_open hreason]
      exact ⟨Nat.le_refl _, .inl rfl, hquits rfl rfl⟩
  | some r =>
      have hstate := state_of_reason? hreason
      simp only [submit, hstate]
      exact ⟨Nat.le_refl _, .inl (by simp [reason?, hstate]), hquits rfl rfl⟩

theorem tended_start (s : Session) : s.Tended s.start := by
  by_cases hidle : s.state = .idle
  · rw [start_eq hidle]
    exact ⟨Nat.le_refl _, .inl (by simp [reason?, hidle]), quits_of_map rfl⟩
  · rw [start_of_begun hidle]
    exact .same rfl rfl rfl

theorem tended_launch (hp : s.Placed) : s.Tended s.launch := by
  rcases launch_cases s with ⟨-, heq⟩ | ⟨hlaunching, reason, heq⟩ | ⟨-, manner, -, heq⟩
  · rw [heq]
    exact .same rfl rfl rfl
  · have hnone := hp.early (.inr hlaunching)
    rw [heq]
    exact .gone (by simp) (.inr (.inl (by simp [hnone]))) (map_last_terminate _ _)
  · rw [heq]
    exact .same rfl rfl rfl

theorem tended_event (hp : s.Placed) {e : Event} (hquit : ∀ command limit, e ≠ .quit command limit)
    (hclose : e ≠ .close) : s.Tended (s.perform (.event e)) := by
  cases e with
  | quit command limit => exact absurd rfl (hquit command limit)
  | close => exact absurd rfl hclose
  | start => exact tended_start s
  | launch => exact tended_launch hp
  | submit command => exact tended_submit s command
  | execute command limit =>
      have h := tended_submit s command
      exact ⟨h.kills, h.ended, h.quits⟩
  | abandon call =>
      simp only [perform, apply, abandon]
      split
      · exact .same rfl rfl rfl
      · exact .same rfl rfl (map_last_modify _ _ fun _ => rfl)
  | output text =>
      simp only [perform, apply, write]
      split <;> exact .same rfl rfl rfl
  | complaint text =>
      simp only [perform, apply, complain]
      split <;> exact .same rfl rfl rfl
  | exit status =>
      obtain ⟨child, heq, -⟩ := childExits_eq s status
      refine .same (childExits_kills s status) ?_ ?_ <;> simp [perform, apply, heq]
  | breakStdin | breakStdout | pass => exact .same rfl rfl rfl

/-- **Nobody but a quit or a close ends a session that has a subprocess and leaves it alone.** -/
theorem tended_perform (hp : s.Placed) {a : Act}
    (hquit : ∀ command limit, a ≠ .event (.quit command limit)) (hclose : a ≠ .event .close)
    (hleaving : ∀ i, a = .client i → s.clients[i]? ≠ some .leaving) : s.Tended (s.perform a) := by
  have hperformed := s.performed a
  generalize s.perform a = s' at hperformed ⊢
  cases hperformed with
  | nothing => exact .same rfl rfl rfl
  | event e => exact tended_event hp (by simpa using hquit) (by simpa using hclose)
  | announce hmove =>
      obtain ⟨-, -, rfl⟩ := announce?_eq_some hmove
      exact .same rfl rfl rfl
  | worker hmove => exact tended_workerMove hmove
  | pump hmove => exact tended_pumpMove hmove
  | complaints hmove => exact tended_complaintsMove hmove
  | client hc hstep =>
      have h := tended_clientStep (fun hl => hleaving _ rfl (hl ▸ hc)) hstep
      exact ⟨h.kills, h.ended, h.quits⟩
  | timer => exact tended_expire s _
  | clientTimer =>
      have h := tended_expireClient s ‹Client›
      exact ⟨h.kills, h.ended, h.quits⟩

/-! ### Nobody leaves a subprocess behind -/

/-- The subprocess is gone or was killed, or a client sees it off. -/
def SeenOff (s : Session) : Prop :=
  s.child.exit ≠ none ∨ 0 < s.child.kills ∨ ∃ c ∈ s.clients, c.parting = true

/-- A client that sees a subprocess off goes on until it is gone or was killed. -/
theorem SeenOff.perform (h : s.SeenOff) (ht : s.Tidy) (hlaunched : s.launched ≠ none)
    (hgone : s.childGone = true → s.child.exit ≠ none) {a : Act}
    (hkills : s.child.kills ≤ (s.perform a).child.kills) : (s.perform a).SeenOff := by
  have hexit : s.child.exit ≠ none → (s.perform a).SeenOff := fun h => .inl (exit_play ht h [a])
  rcases h with hleft | hkilled | ⟨c, hc, hparting⟩
  · exact hexit hleft
  · exact .inr (.inl (Nat.lt_of_lt_of_le hkilled hkills))
  · obtain ⟨j, hj⟩ := List.mem_iff_getElem?.1 hc
    have hlt := (List.getElem?_eq_some_iff.1 hj).1
    have hreleasing (s : Session) (hlaunched : s.launched ≠ none) (result : Option Failure) :
        (s.release result).2.parting = true := by
      obtain ⟨manner, hmanner⟩ := Option.ne_none_iff_exists'.1 hlaunched
      simp [release, hmanner, Client.parting]
    rcases perform_client hj a with hsame | ⟨s', c', rfl, hstep, heq⟩ | ⟨d, rfl, hdue, -, heq⟩
    · exact .inr (.inr ⟨c, List.mem_of_getElem? hsame, hparting⟩)
    · rw [heq]
      cases clientStep?_eq_some hstep with
      | releases => exact .inr (.inr ⟨_, List.mem_set hlt _, hreleasing s hlaunched _⟩)
      | shuts =>
          refine .inr (.inl ?_)
          rw [shut_of_launched hlaunched]
          simp [kill_kills]
      | released hleft | reaped hleft | closed hleft =>
          rw [← heq]
          exact hexit (hgone hleft)
      | returns | leaves => cases hparting
    · cases c with
      | quitting call deadline =>
          refine .inr (.inr ⟨_, ?_, hreleasing (s.giveUp call) hlaunched
            (some (.plain .deadlineExceeded))⟩)
          rw [heq]
          exact List.mem_set hlt _
      | releasing result deadline =>
          refine .inr (.inl ?_)
          rw [heq]
          simp [expireClient, kill_kills]
      | reaping | shutting | closing => cases hdue
      | executing | leaving | executed | hasQuit | hasClosed => cases hparting

/-- **Acts after which nobody sees the subprocess off.**  The launcher returns when the session is
over; or a quit that found the session idle ends it, and there is a subprocess by now. -/
def Forsakes (s : Session) (a : Act) : Prop :=
  ¬ s.SeenOff ∧
    (a = .event .launch ∧ s.launching = true ∧ s.reason? ≠ none ∨
      s.launched ≠ none ∧ s.reason? = none ∧ ∃ i, a = .client i ∧ s.clients[i]? = some .leaving)

theorem Change.begun (h : s.Change l s') (hs : s.state ≠ .idle) : s'.state ≠ .idle := by
  cases h with
  | starting | ended | greeted | refused | parted => simp
  | _ => exact hs

/-- A session that was started is never idle again. -/
theorem begun_play (ht : s.Tidy) (hs : s.state ≠ .idle) (acts : List Act) :
    (s.play acts).state ≠ .idle :=
  (play_induction (P := fun _ t => t.state ≠ .idle) (fun _ h hc => hc.begun h) [] ht hs acts).2

/-- **The subprocess of a session that is over, or in which somebody quits, is seen off.** -/
structure Attended (s : Session) : Prop where
  /-- A quit before the start asks for no command. -/
  early : s.state = .idle → ¬ s.Quits
  /-- Until there is a subprocess, a quit that asked for a command waits for it. -/
  pending : s.launched = none → s.reason? = none → s.Quits → ∃ n d, .quitting n d ∈ s.clients
  later : s.launched ≠ none → s.reason? ≠ none ∨ s.Quits → s.SeenOff

theorem attended_new (options : Options) : (new options).Attended :=
  ⟨by simp [Quits, new], by simp [Quits, new], by simp [new]⟩

/-- A session that ends without a subprocess has none to be seen off. -/
theorem attended_of_over (hover : s.reason? ≠ none) (hlater : s.launched ≠ none → s.SeenOff) :
    s.Attended :=
  ⟨fun hidle => absurd hidle (begun_of_over hover), fun _ hopen => absurd hopen hover,
    fun hlaunched _ => hlater hlaunched⟩

theorem Attended.quit (h : s.Attended) (hp : s.Placed) (command : Bytes) (limit : Nat) :
    (s.quit command limit).Attended := by
  by_cases hidle : s.state = .idle
  · have hjoin : s.quit command limit = s.join .leaving := by simp [Session.quit, hidle]
    rw [hjoin]
    refine ⟨h.early, ?_, fun hlaunched => absurd (hp.early (.inl hidle)) hlaunched⟩
    intro hnone hopen hquits
    obtain ⟨n, d, hmem⟩ := h.pending hnone hopen hquits
    exact ⟨n, d, List.mem_append_left _ hmem⟩
  · have hjoin : s.quit command limit = (s.submit command true).join
        (.quitting s.calls.length (s.deadline limit)) := by
      cases hstate : s.state with
      | idle => exact absurd hstate hidle
      | starting | ready | terminated => simp [Session.quit, hstate]
    rw [hjoin]
    refine ⟨fun hidle' => ?_, fun _ _ _ => ⟨_, _, List.mem_concat_self⟩,
      fun _ _ => .inr (.inr ⟨_, List.mem_concat_self, rfl⟩)⟩
    have hstate : (s.submit command true).state = s.state := by
      unfold submit
      split <;> simp_all
    exact absurd (hstate.symm.trans hidle') hidle

theorem attended_close (s : Session) : s.close.Attended :=
  attended_of_over (terminate_reason? s _) fun _ =>
    .inr (.inr ⟨.shutting, List.mem_concat_self, rfl⟩)

/-- A subprocess that is launched into a session that is not over has those who asked for a last
command to see it off. -/
theorem Attended.launch (h : s.Attended) (hp : s.Placed) (hnot : ¬ s.Forsakes (.event .launch)) :
    s.launch.Attended := by
  rcases launch_cases s with ⟨-, heq⟩ | ⟨hlaunching, reason, heq⟩ | ⟨hlaunching, manner, -, heq⟩
  · rw [heq]
    exact h
  · have hnone := hp.early (.inr hlaunching)
    rw [heq]
    exact attended_of_over (terminate_reason? _ _) fun hlaunched => by simp [hnone] at hlaunched
  · have hnone := hp.early (.inr hlaunching)
    rw [heq]
    refine ⟨h.early, (fun hnone' => by cases hnone'), fun _ hcause => ?_⟩
    have hseen : s.SeenOff := by
      by_cases hopen : s.reason? = none
      · have hquits : s.Quits := hcause.resolve_left fun hover => hover hopen
        obtain ⟨n, d, hmem⟩ := h.pending hnone hopen hquits
        exact .inr (.inr ⟨_, hmem, rfl⟩)
      · by_contra hnobody
        exact hnot ⟨hnobody, .inl ⟨rfl, hlaunching, hopen⟩⟩
    exact hseen

/-- A quit that found the session idle ends it. -/
theorem Attended.leave (h : s.Attended) (ht : s.Tidy)
    (hgone : s.childGone = true → s.child.exit ≠ none) {i : Nat}
    (hc : s.clients[i]? = some .leaving) (hnot : ¬ s.Forsakes (.client i)) :
    (s.perform (.client i)).Attended := by
  have heq : s.perform (.client i) =
      { s.terminate (.plain .quit) with clients := s.clients.set i (.hasQuit none) } := by
    simp [Session.perform, clientAct, hc, clientStep?]
  have hkept := perform_launched s (a := .client i) (by simp)
  have hover : (s.perform (.client i)).reason? ≠ none := by
    rw [heq]
    exact terminate_reason? s _
  refine attended_of_over hover fun hlaunched' => ?_
  have hlaunched : s.launched ≠ none := hkept ▸ hlaunched'
  have hseen : s.SeenOff := by
    by_cases hopen : s.reason? = none
    · by_contra hnobody
      exact hnot ⟨hnobody, .inr ⟨hlaunched, hopen, i, rfl, hc⟩⟩
    · exact h.later hlaunched (.inl hopen)
  refine hseen.perform ht hlaunched hgone (Nat.le_of_eq ?_)
  rw [heq]
  simp

/-- Without a subprocess, a quit whose wait ends ends the session. -/
theorem release_over (h : s.launched = none) (result : Option Failure) :
    (s.release result).1.reason? ≠ none := by
  simp only [release, h]
  exact terminate_reason? s _

theorem quitting_perform (hnone : s.launched = none) {n : Nat} {d : Option Nat}
    (hmem : .quitting n d ∈ s.clients) {a : Act} (hopen : (s.perform a).reason? = none) :
    .quitting n d ∈ (s.perform a).clients := by
  obtain ⟨j, hj⟩ := List.mem_iff_getElem?.1 hmem
  rcases perform_client hj a with hsame | ⟨s', c', rfl, hstep, heq⟩ | ⟨t, rfl, -, -, heq⟩
  · exact List.mem_of_getElem? hsame
  · cases clientStep?_eq_some hstep
    rw [heq] at hopen
    exact absurd hopen (release_over hnone _)
  · rw [heq] at hopen
    exact absurd hopen (release_over (s := s.giveUp n) hnone _)

/-- **An act that does not forsake the subprocess leaves it attended.** -/
theorem Attended.perform (h : s.Attended) (ht : s.Tidy) (hp : s.Placed)
    (hgone : s.childGone = true → s.child.exit ≠ none) {a : Act} (hnot : ¬ s.Forsakes a) :
    (s.perform a).Attended := by
  by_cases hquit : ∃ command limit, a = .event (.quit command limit)
  · obtain ⟨command, limit, rfl⟩ := hquit
    exact h.quit hp command limit
  by_cases hclose : a = .event .close
  · subst hclose
    exact attended_close s
  by_cases hlaunch : a = .event .launch
  · subst hlaunch
    exact h.launch hp hnot
  by_cases hleaving : ∃ i, a = .client i ∧ s.clients[i]? = some .leaving
  · obtain ⟨i, rfl, hc⟩ := hleaving
    exact h.leave ht hgone hc hnot
  have htended := tended_perform hp (fun command limit ha => hquit ⟨command, limit, ha⟩) hclose
    fun i ha hc => hleaving ⟨i, ha, hc⟩
  have hkept := perform_launched s hlaunch
  have hlasts {r : Failure} (hr : s.reason? = some r) : (s.perform a).reason? = some r :=
    reason?_play ht hr [a]
  refine ⟨?_, ?_, ?_⟩
  · intro hidle' hquits
    refine h.early ?_ (htended.quits hquits)
    exact Decidable.not_not.1 fun hs => begun_play ht hs [a] hidle'
  · intro hnone' hopen' hquits
    have hnone := hkept ▸ hnone'
    have hopen : s.reason? = none := by
      cases hr : s.reason? with
      | none => rfl
      | some r =>
          rw [hlasts hr] at hopen'
          cases hopen'
    obtain ⟨n, d, hmem⟩ := h.pending hnone hopen (htended.quits hquits)
    exact ⟨n, d, quitting_perform hnone hmem hopen'⟩
  · intro hlaunched' hcause
    have hlaunched := hkept ▸ hlaunched'
    by_cases hbefore : s.reason? ≠ none ∨ s.Quits
    · exact (h.later hlaunched hbefore).perform ht hlaunched hgone htended.kills
    · obtain ⟨hopen, hnobody⟩ := not_or.1 hbefore
      rcases htended.ended with hsame | hkilled | hleft | hnone | hquits
      · refine absurd (htended.quits (hcause.resolve_left ?_)) hnobody
        rwa [hsame]
      · exact .inr (.inl (by omega))
      · exact .inl (exit_play ht (hgone hleft) [a])
      · exact absurd hnone hlaunched'
      · exact absurd hquits hnobody

/-- **The subprocess is attended after every play, unless it was forsaken.** -/
theorem attended_or_forsaken (options : Options) (acts : List Act) :
    ((new options).play acts).Attended ∨
      ∃ before a rest, acts = before ++ a :: rest ∧ ((new options).play before).Forsakes a := by
  by_cases h : ((new options).play acts).Attended
  · exact .inl h
  · obtain ⟨before, a, rest, hacts, hbefore, hthen⟩ :=
      exists_act (P := fun t => ¬ t.Attended) (not_not_intro (attended_new options)) h
    have hr : ((new options).play before).Reached := ⟨options, before, rfl⟩
    refine .inr ⟨before, a, rest, hacts, Classical.not_not.1 fun hnot => hthen ?_⟩
    exact (Classical.not_not.1 hbefore).perform hr.tidy hr.placed hr.gone hnot

end Session

end ReplBridge.Repl
