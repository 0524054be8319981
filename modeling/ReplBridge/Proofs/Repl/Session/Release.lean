import ReplBridge.Proofs.Repl.Session.LastCommand
import ReplBridge.Proofs.Repl.Session.Timers

/-!
**A quit sees the subprocess off, and may wait for ever.**

A quit that has waited for its command closes the input of the subprocess, gives it some time to
leave, kills it when that time is up, and returns when the reader of standard output has seen its
end.  Only then does it end the session.  So there is a circle to be broken: the quit waits for the
reader; a reader with a frame to offer waits for the worker to take it, or for the session to be
over; and a worker with nothing to write waits for a command, and takes no frame.

Only a quit whose wait ends before the launcher has returned sees no subprocess, and returns without
one.  Where the quit command is written, the worker waits for its frame and the circle does not close.  It
closes when the caller of the quit gives up before that, and the subprocess prints a prompt that no
command asked for.  The session is then *parked*: its subprocess is gone, it is not over, and its
quit does not return.

Main definitions:

* `Session.Released` — how far a quit has come since its wait for the command ended;
* `Session.Parked` — the reader offers a frame that nobody takes.

Main results:

* `Session.unwritten_of_idle` — while the worker waits for commands, no quit command was written;
* `Session.released_play` — **a quit only moves on**, and its grace period is kept;
* `Session.quit_returns_unless_parked` — **a quit returns in time, unless the session is parked**.
-/

set_option autoImplicit false

namespace ReplBridge.Repl.Session

variable {s s' : Session} {l : Label}

/-! ### The subprocess, once and for all -/

/-- Once the launcher has returned, no subprocess is launched. -/
theorem Change.launched_eq (h : s.Change l s') (hr : s.Returned) : s'.launched = s.launched := by
  cases h with
  | launched _ _ hlaunching =>
      rw [hr.2] at hlaunching
      cases hlaunching
  | _ => rfl

/-- A subprocess is launched at most once. -/
theorem launched_play (ht : s.Tidy) (hreturned : s.Returned) (acts : List Act) :
    (s.play acts).launched = s.launched :=
  (play_induction (P := fun _ t => t.Returned ∧ t.launched = s.launched)
    (fun _ h hc => ⟨hc.returned h.1, (hc.launched_eq h.1).trans h.2⟩) [] ht ⟨hreturned, rfl⟩
    acts).2.2

theorem returned_of_launched (hp : s.Placed) (h : s.launched ≠ none) : s.Returned :=
  ⟨fun hidle => h (hp.early (.inl hidle)),
    Bool.eq_false_iff.2 fun hlaunching => h (hp.early (.inr hlaunching))⟩

theorem begun_of_over (h : s.reason? ≠ none) : s.state ≠ .idle := by
  intro hidle
  simp [reason?, hidle] at h

/-- A subprocess that is gone stays gone. -/
theorem exit_play (ht : s.Tidy) (h : s.child.exit ≠ none) (acts : List Act) :
    (s.play acts).child.exit ≠ none := by
  refine (play_induction (P := fun _ t => t.child.exit ≠ none) ?_ [] ht h acts).2
  intro chunks t t' l _ h hc
  cases hc with
  | aside complaints clients lines hchild =>
      rcases hchild.exit with hsame | ⟨hnone, -⟩
      · exact fun hexit => h (hsame ▸ hexit)
      · exact absurd hnone h
  | _ => exact h

/-- Only a subprocess that is gone is known to be gone. -/
theorem gone_play (options : Options) (acts : List Act) :
    ((new options).play acts).childGone = true →
      ((new options).play acts).child.exit ≠ none := by
  refine ledger_induction (P := fun _ t => t.childGone = true → t.child.exit ≠ none) ?_ options
    (by simp [new, childGone]) acts
  intro chunks t t' l _ _ _ h hc
  cases hc with
  | aside complaints clients lines hchild =>
      intro hgone
      rcases hchild.exit with hsame | ⟨hnone, -⟩
      · exact fun hexit => h hgone (hsame ▸ hexit)
      · exact absurd hnone (h hgone)
  | departed _ hexit => simp [hexit]
  | greeted | overtaken | answered | read | dropped | drained => simp [childGone]
  | _ => exact h

theorem kill_exit {manner : Manner} (hlaunched : s.launched = some manner)
    (hheeds : manner.heedsKill = true) : s.kill.child.exit ≠ none := by
  cases hexit : s.child.exit <;> simp [kill, hlaunched, hheeds, childExits, hexit]

theorem kill_kills (s : Session) : s.kill.child.kills = s.child.kills + 1 := by
  dsimp only [kill]
  split
  · split
    · unfold childExits
      split <;> rfl
    · rfl
  · rfl

/-! ### The command of a quit -/

/-- Whoever waits for a quit command waits for a call that ends the session. -/
def Asked (s : Session) : Prop :=
  ∀ n d, .quitting n d ∈ s.clients → ∃ c, s.calls[n]? = some c ∧ c.last = true

theorem submit_last (s : Session) (command : Bytes) :
    ∃ c, (s.submit command true).calls[s.calls.length]? = some c ∧ c.last = true := by
  unfold submit
  split <;> simp

theorem release_not_quitting (s : Session) (result : Option Failure) (n : Nat) (d : Option Nat) :
    (s.release result).2 ≠ .quitting n d := by
  unfold release
  split <;> simp

theorem shut_not_quitting (s : Session) (n : Nat) (d : Option Nat) : s.shut.2 ≠ .quitting n d := by
  unfold shut
  split <;> simp

theorem Asked.perform (h : s.Asked) (ht : s.Tidy) (a : Act) : (s.perform a).Asked := by
  have hkept : Kept s.calls (s.perform a).calls := play_calls ht [a]
  have hold {n : Nat} {d : Option Nat} (hmem : .quitting n d ∈ s.clients) :
      ∃ c, (s.perform a).calls[n]? = some c ∧ c.last = true := by
    obtain ⟨c, hc, hlast⟩ := h n d hmem
    obtain ⟨c', hc', hgrows⟩ := hkept n c hc
    exact ⟨c', hc', hgrows.last.trans hlast⟩
  intro n d hmem
  rcases perform_clients s a with ⟨more, hmore, hcomes⟩ | ⟨i, c, s', c', -, -, hstep, heq⟩ |
    ⟨i, c, deadline, -, -, hdue, -, heq⟩
  · rw [hmore] at hmem
    rcases List.mem_append.1 hmem with hmem | hnew
    · exact hold hmem
    · obtain ⟨e, rfl, rfl, hstarted, command, limit, rfl, -⟩ := hcomes _ hnew
      have hquit : (s.perform (.event (.quit command limit))).calls =
          (s.submit command true).calls := by
        cases hstate : s.state with
        | idle => exact absurd hstate hstarted
        | starting | ready | terminated => simp [Session.perform, apply, quit, hstate, join]
      rw [hquit]
      exact submit_last s command
  · -- A client that has moved does not wait for a quit command.
    have hmoved : c' ≠ .quitting n d := by
      cases clientStep?_eq_some hstep with
      | releases => exact release_not_quitting s _ n d
      | shuts => exact shut_not_quitting s n d
      | returns | leaves | released | reaped | closed => simp
    rw [heq] at hmem
    rcases List.mem_or_eq_of_mem_set hmem with hmem | hnew
    · exact hold hmem
    · exact absurd hnew.symm hmoved
  · have hmoved : (s.expireClient c).2 ≠ .quitting n d := by
      cases c with
      | quitting call deadline => exact release_not_quitting _ _ n d
      | executing | releasing => simp [expireClient]
      | leaving | reaping | shutting | closing | executed | hasQuit | hasClosed => cases hdue
    rw [heq] at hmem
    rcases List.mem_or_eq_of_mem_set hmem with hmem | hnew
    · exact hold hmem
    · exact absurd hnew.symm hmoved

theorem Asked.play (h : s.Asked) (ht : s.Tidy) (acts : List Act) : (s.play acts).Asked := by
  induction acts generalizing s with
  | nil => exact h
  | cons a acts ih => exact ih (h.perform ht a) (tidy_perform ht a)

/-- **While the worker waits for commands, no quit command was written.** -/
theorem unwritten_of_idle (options : Options) {acts : List Act} {q : Nat} {c : Call}
    (hidle : ((new options).play acts).worker = .idle)
    (hcall : ((new options).play acts).calls[q]? = some c) (hlast : c.last = true) :
    q + 1 ∉ (writes ((new options).play acts).log).map Prod.fst := by
  intro hwritten
  obtain ⟨before, a, rest, rfl, hnot, hthen⟩ := exists_act (s := new options)
    (P := fun t => q + 1 ∈ (writes t.log).map Prod.fst) (by simp [new]) hwritten
  have ht := tidy_play (tidy_new options) before
  have hchanged : writes (((new options).play before).perform a).log ≠
      writes ((new options).play before).log := fun hsame => hnot (hsame ▸ hthen)
  obtain ⟨-, call, queue, b, deadline, hqueue, hb, hwrote, hawaits, hcalls⟩ :=
    perform_wrote ht hchanged
  have hseq := ((numbered_play options before).waiting (placed_play options before) hb
    (.inl (by simp [hqueue]))).2
  -- What the act wrote is the command itself.
  have hq : call = q := by
    rw [hwrote] at hthen
    rcases List.mem_append.1 (List.map_append ▸ hthen) with hold | hnew
    · exact absurd hold hnot
    · simp at hnew
      omega
  subst hq
  have hplay : (new options).play (before ++ [a]) = ((new options).play before).perform a := by simp
  have hb' : ((new options).play (before ++ [a])).calls[call]? = some b := by
    rw [hplay, hcalls, hb]
  obtain ⟨c', hc', hgrows⟩ := play_calls (tidy_play (tidy_new options) (before ++ [a])) rest _ _ hb'
  have hsame : c' = c := by
    have hplays : ((new options).play (before ++ [a])).play rest =
        (new options).play (before ++ a :: rest) := by simp
    rw [hplays, hcall] at hc'
    exact (Option.some.inj hc').symm
  subst hsame
  have hconcluding := (concluding_play options (.inl ⟨deadline, by rw [hplay, hawaits]⟩) hb'
    (hgrows.last ▸ hlast) rest).1
  rw [List.append_assoc, List.singleton_append] at hconcluding
  rcases hconcluding with ⟨d, hworker⟩ | ⟨⟨hoff, -⟩, -⟩
  · rw [hidle] at hworker
    cases hworker
  · rw [hidle] at hoff
    cases hoff

/-! ### How far a quit has come -/

/-- **How far the client at place `i` has come** since its wait for the quit command ended, if it
gives the subprocess time until `deadline`; `late` is whether the launcher was still at work when
the wait ended. -/
inductive Released (late : Prop) (deadline i : Nat) (s : Session) : Prop where
  | releasing {result : Option Failure} (hlaunched : s.launched ≠ none)
      (hclient : s.clients[i]? = some (.releasing result deadline))
  | reaping {result : Option Failure} (hlaunched : s.launched ≠ none)
      (hclient : s.clients[i]? = some (.reaping result))
      (hkilled : ∀ manner, s.launched = some manner → manner.heedsKill = true →
        s.child.exit ≠ none)
  | returned {result : Option Failure} (hclient : s.clients[i]? = some (.hasQuit result))
      (hover : s.reason? ≠ none)
      (hgone : late ∨ s.Returned ∧ (s.launched ≠ none → s.child.exit ≠ none))

/-- A quit that has its result lets the subprocess go. -/
theorem released_release {i : Nat} {c : Client} (hc : s.clients[i]? = some c)
    (result : Option Failure) :
    Released (s.launching = true) (s.now + s.options.grace) i
      { (s.release result).1 with clients := s.clients.set i (s.release result).2 } := by
  have hlt := (List.getElem?_eq_some_iff.1 hc).1
  unfold release
  split
  · rename_i hlaunched
    have hover := terminate_reason? s (.plain .quit)
    refine .returned (List.getElem?_set_self hlt) hover ?_
    cases hlaunching : s.launching with
    | true => exact .inl rfl
    | false =>
        refine .inr ⟨⟨begun_of_over hover, ?_⟩, fun hnot => absurd ?_ hnot⟩
        · rw [← hlaunching]
          exact terminate_launching s _
        · rw [← hlaunched]
          exact terminate_launched s _
  · rename_i manner hlaunched
    obtain ⟨child, heq, -⟩ := closeStdin_eq s
    rw [heq]
    exact .releasing (by simp [hlaunched]) (List.getElem?_set_self hlt)

/-- A quit begins to let the subprocess go when its wait for the command ends. -/
theorem released_begins (ht : s.Tidy) {i n : Nat} {d : Option Nat}
    (hc : s.clients[i]? = some (.quitting n d)) {a : Act}
    (hended : (s.perform a).clients[i]? ≠ some (.quitting n d)) :
    (s.perform a).Released (s.launching = true) ((s.perform a).now + s.options.grace) i := by
  rcases perform_client hc a with hsame | ⟨s', c', rfl, hstep, heq⟩ | ⟨deadline, rfl, -, -, heq⟩
  · exact absurd hsame hended
  · rw [perform_now ht (by simp), heq]
    cases clientStep?_eq_some hstep
    exact released_release hc _
  · rw [perform_now ht (by simp), heq]
    exact released_release (s := s.giveUp n) hc _

/-- A quit that sees the end of the subprocess returns. -/
theorem released_returns {i : Nat} {c : Client} (hc : s.clients[i]? = some c)
    (hreturned : s.Returned) (hexit : s.child.exit ≠ none) (late : Prop) (deadline : Nat)
    (result : Option Failure) :
    Released late deadline i
      { s.terminate (.plain .quit) with clients := s.clients.set i (.hasQuit result) } := by
  have hlt := (List.getElem?_eq_some_iff.1 hc).1
  have hover := terminate_reason? s (.plain .quit)
  refine .returned (List.getElem?_set_self hlt) hover
    (.inr ⟨⟨begun_of_over hover, ?_⟩, fun _ => ?_⟩)
  · exact (terminate_launching s _).trans hreturned.2
  · rw [← terminate_child s (.plain .quit)] at hexit
    exact hexit

/-- **A quit only moves on**, one act at a time. -/
theorem Released.perform {late : Prop} {deadline i : Nat} (h : s.Released late deadline i)
    (ht : s.Tidy) (hp : s.Placed) (hgone : s.childGone = true → s.child.exit ≠ none) (a : Act) :
    (s.perform a).Released late deadline i := by
  have hexit : s.child.exit ≠ none → (s.perform a).child.exit ≠ none := fun h => exit_play ht h [a]
  cases h with
  | releasing hlaunched hclient =>
      have hreturned := returned_of_launched hp hlaunched
      rcases perform_client hclient a with hsame | ⟨s', c', rfl, hstep, heq⟩ |
        ⟨d, rfl, -, -, heq⟩
      · have hkept := launched_play ht hreturned [a]
        exact .releasing (hkept ▸ hlaunched) hsame
      · rw [heq]
        cases clientStep?_eq_some hstep with
        | released hchild => exact released_returns hclient hreturned (hgone hchild) _ _ _
      · have hlt := (List.getElem?_eq_some_iff.1 hclient).1
        obtain ⟨child, hkill, -⟩ := kill_eq s
        have hsame : s.kill.launched = s.launched := by rw [hkill]
        rw [heq]
        refine .reaping (hsame ▸ hlaunched) (List.getElem?_set_self hlt) ?_
        intro manner hmanner hheeds
        exact kill_exit (hsame ▸ hmanner) hheeds
  | reaping hlaunched hclient hkilled =>
      have hreturned := returned_of_launched hp hlaunched
      rcases perform_client hclient a with hsame | ⟨s', c', rfl, hstep, heq⟩ | ⟨d, -, hdue, -⟩
      · have hkept := launched_play ht hreturned [a]
        refine .reaping (hkept ▸ hlaunched) hsame ?_
        intro manner hmanner hheeds
        exact hexit (hkilled manner (hkept ▸ hmanner) hheeds)
      · rw [heq]
        cases clientStep?_eq_some hstep with
        | reaped hchild => exact released_returns hclient hreturned (hgone hchild) _ _ _
      · cases hdue
  | returned hclient hover hleft =>
      rcases perform_client hclient a with hsame | ⟨s', c', -, hstep, -⟩ | ⟨d, -, hdue, -⟩
      · obtain ⟨r, hr⟩ := Option.ne_none_iff_exists'.1 hover
        have hr' := reason?_play ht hr [a]
        rw [play_cons, play_nil] at hr'
        refine .returned hsame (by simp [hr']) (hleft.imp_right fun ⟨hreturned, hleft⟩ => ?_)
        have hkept := launched_play ht hreturned [a]
        exact ⟨returned_play ht hreturned [a], fun hnot => hexit (hleft (hkept ▸ hnot))⟩
      · cases hstep
      · cases hdue

/-- **A quit only moves on**, and its grace period is kept. -/
theorem released_play (options : Options) {acts : List Act} {late : Prop} {deadline i : Nat}
    (h : ((new options).play acts).Released late deadline i) (more : List Act) :
    ((new options).play (acts ++ more)).Released late deadline i := by
  induction more generalizing acts with
  | nil => simpa using h
  | cons a more ih =>
      have hplay : (new options).play (acts ++ [a]) = ((new options).play acts).perform a := by simp
      have hnext := h.perform (tidy_play (tidy_new options) acts) (placed_play options acts)
        (gone_play options acts) a
      have hrest := ih (hplay ▸ hnext)
      rwa [List.append_assoc, List.singleton_append] at hrest

/-! ### Parked sessions -/

/-- **Nobody takes the frame that the reader offers**: the session is not over, and the worker
waits for a command. -/
def Parked (s : Session) : Prop :=
  s.reason? = none ∧ s.worker = .idle ∧ s.queue = [] ∧ s.offered? ≠ none

instance (s : Session) : Decidable s.Parked :=
  inferInstanceAs (Decidable (_ ∧ _))

/-- A client that can move does, in a session that is not at rest. -/
theorem clientStep_of_quiet (h : s.move? = none) {c : Client} (hc : c ∈ s.clients) :
    s.clientStep? c = none := by
  have hfrom : ∀ (before rest : List Client), s.clientMoveFrom? before rest = none →
      ∀ c ∈ rest, s.clientStep? c = none := by
    intro before rest
    induction rest generalizing before with
    | nil => simp
    | cons b rest ih =>
        intro hnone c hc
        cases hstep : s.clientStep? b with
        | some p => simp [clientMoveFrom?, hstep] at hnone
        | none =>
            simp only [clientMoveFrom?, hstep] at hnone
            rcases List.mem_cons.1 hc with rfl | hc
            · exact hstep
            · exact ih (b :: before) hnone c hc
  obtain ⟨hannounced, hworker, hpump, hcomplaints⟩ := quiet_parts h
  simp only [move?, hannounced, hworker, hpump, hcomplaints] at h
  exact hfrom [] s.clients h c hc

/-- At rest, a session that is over knows that its subprocess is gone. -/
theorem gone_of_quiet (hended : s.child.exit ≠ none → s.child.stdoutEnded = true)
    (hquiet : s.move? = none) (hlaunched : s.launched ≠ none) (hexit : s.child.exit ≠ none)
    (hover : s.reason? ≠ none) : s.childGone = true := by
  obtain ⟨hannounced, -, hpump, hcomplaints⟩ := quiet_parts hquiet
  rcases offered_or_gone_of_quiet hlaunched hexit (hended hexit) hpump hcomplaints with
    ⟨frame, hframe⟩ | ⟨tail, status, hfinished⟩
  · -- A reader lets go of the frame when the end of the session was announced.
    obtain ⟨r, hr⟩ := Option.ne_none_iff_exists'.1 hover
    have hknown : s.announced? = some r := by
      simp [announced?, done_of_quiet hover hannounced, hr]
    obtain ⟨sanitizer, framer, offered, hreading⟩ := offered?_eq_some hframe
    obtain ⟨manner, hmanner⟩ := Option.ne_none_iff_exists'.1 hlaunched
    simp [pumpMove?, hmanner, hreading, hknown] at hpump
  · simp [childGone, hfinished]

/-- At rest, a session that is not over and whose subprocess is gone is parked. -/
theorem parked_of_quiet (hp : s.Placed) (hended : s.child.exit ≠ none → s.child.stdoutEnded = true)
    (hquiet : s.move? = none) (hlaunched : s.launched ≠ none) (hexit : s.child.exit ≠ none)
    (hopen : s.reason? = none) : s.Parked := by
  obtain ⟨-, hworker, hpump, hcomplaints⟩ := quiet_parts hquiet
  have hreader := offered_or_gone_of_quiet hlaunched hexit (hended hexit) hpump hcomplaints
  obtain ⟨hidle, hqueue⟩ := idle_of_quiet (hp.working hlaunched hopen) hworker hreader
  refine ⟨hopen, hidle, hqueue, ?_⟩
  rcases hreader with ⟨frame, hframe⟩ | ⟨tail, status, hfinished⟩
  · simp [hframe]
  · -- A worker with nothing to write ends the session when the subprocess is known to be gone.
    cases hknown : s.announced? <;>
      simp [workerMove?, hidle, hqueue, hknown, hfinished] at hworker

/-- At rest, a quit that waits for the end of a subprocess that is gone is in a parked session. -/
theorem parked_of_reaping (hp : s.Placed)
    (hended : s.child.exit ≠ none → s.child.stdoutEnded = true) (hquiet : s.move? = none)
    (hlaunched : s.launched ≠ none) (hexit : s.child.exit ≠ none) {result : Option Failure}
    (hmem : .reaping result ∈ s.clients) : s.Parked := by
  have hstuck := clientStep_of_quiet hquiet hmem
  by_cases hopen : s.reason? = none
  · exact parked_of_quiet hp hended hquiet hlaunched hexit hopen
  · simp [clientStep?, gone_of_quiet hended hquiet hlaunched hexit hopen] at hstuck

/-- In a parked session every quit command was given up before it was written. -/
theorem canceled_of_parked (options : Options) {acts : List Act}
    (h : ((new options).play acts).Parked) {q : Nat} {c : Call}
    (hcall : ((new options).play acts).calls[q]? = some c) (hlast : c.last = true) :
    c.outcome = some (.failed (.plain .canceled)) ∧
      q + 1 ∉ (writes ((new options).play acts).log).map Prod.fst := by
  obtain ⟨hopen, hidle, hqueue, -⟩ := h
  have hunwritten := unwritten_of_idle options hidle hcall hlast
  refine ⟨?_, hunwritten⟩
  have hdone : c.outcome ≠ none := by
    intro hnone
    have hwaits := ((placed_play options acts).undone q c hcall).1 hnone
    rw [waits_iff_queued (by simp [hidle]), hqueue] at hwaits
    cases hwaits
  obtain ⟨o, ho⟩ := Option.ne_none_iff_exists'.1 hdone
  have hoc := (outcome?_of_call hcall).trans ho
  cases o with
  | answered frame => exact absurd (written_of_answered options hoc) hunwritten
  | failed cause => rw [ho, failed_open options acts hopen hoc]

/-- **A quit returns in time, unless the session is parked.**  Take any play in which a client that
waits for a quit command stops waiting for it in the act `a`, whatever the reason, and let the
subprocess heed being killed.  Once nothing can move and the grace period since `a` has passed, the
subprocess is gone, unless the launcher was still at work at the act `a`.  The quit has returned and
the session is over, both exactly if the session is not parked; and if it is, then the quit command
was given up before it was written. -/
theorem quit_returns_unless_parked (options : Options) (before : List Act) (a : Act)
    (after : List Act) (i n : Nat) (d : Option Nat)
    (hwaits : ((new options).play before).clients[i]? = some (.quitting n d))
    (hended : ((new options).play (before ++ [a])).clients[i]? ≠ some (.quitting n d))
    (hheeds : ∀ manner, ((new options).play (before ++ [a] ++ after)).launched = some manner →
      manner.heedsKill = true)
    (hstill : ((new options).play (before ++ [a] ++ after)).Still)
    (hgrace : ((new options).play (before ++ [a])).now + options.grace ≤
      ((new options).play (before ++ [a] ++ after)).now) :
    let s := (new options).play (before ++ [a] ++ after)
    (s.launched ≠ none → s.child.exit ≠ none ∨ ((new options).play before).launching = true) ∧
    ((∃ result, s.clients[i]? = some (.hasQuit result)) ↔ ¬ s.Parked) ∧
    (s.reason? ≠ none ↔ ¬ s.Parked) ∧
    (s.Parked → s.outcome? n = some (.failed (.plain .canceled)) ∧
      n + 1 ∉ (writes s.log).map Prod.fst) := by
  intro s
  have ht := tidy_play (tidy_new options) before
  have hplay : (new options).play (before ++ [a]) = ((new options).play before).perform a := by simp
  have hbegins := released_begins ht hwaits (hplay ▸ hended)
  rw [← hplay, options_play (tidy_new options)] at hbegins
  have hreleased : s.Released (((new options).play before).launching = true)
      (((new options).play (before ++ [a])).now + options.grace) i :=
    released_play options hbegins after
  have hcanceled : s.Parked → s.outcome? n = some (.failed (.plain .canceled)) ∧
      n + 1 ∉ (writes s.log).map Prod.fst := by
    intro hparked
    obtain ⟨c, hc, hlast⟩ : ∃ c, s.calls[n]? = some c ∧ c.last = true := by
      have hbefore : ((new options).play before).Asked :=
        Asked.play (by simp [Asked, new]) (tidy_new options) _
      obtain ⟨c, hc, hlast⟩ := hbefore n d (List.mem_of_getElem? hwaits)
      obtain ⟨c', hc', hgrows⟩ := play_calls ht (a :: after) n c hc
      exact ⟨c', by simpa [s] using hc', hgrows.last.trans hlast⟩
    obtain ⟨ho, hunwritten⟩ := canceled_of_parked options hparked hc hlast
    exact ⟨(outcome?_of_call hc).trans ho, hunwritten⟩
  cases hreleased with
  | releasing hlaunched hclient =>
      -- The grace period is over, so this deadline cannot be ahead.
      have hlate := hstill.ahead _ (.inr ⟨_, List.mem_of_getElem? hclient, rfl⟩)
      omega
  | reaping hlaunched hclient hkilled =>
      obtain ⟨manner, hmanner⟩ := Option.ne_none_iff_exists'.1 hlaunched
      have hexit := hkilled manner hmanner (hheeds manner hmanner)
      have hparked : s.Parked := parked_of_reaping (placed_play options _) (ended_play options _)
        hstill.quiet hlaunched hexit (List.mem_of_getElem? hclient)
      refine ⟨fun _ => .inl hexit, ?_, ?_, hcanceled⟩
      · simp [hclient, hparked]
      · simp [hparked.1, hparked]
  | returned hclient hover hgone =>
      have hnot : ¬ s.Parked := fun hparked => hover hparked.1
      refine ⟨fun hlaunched => ?_, ?_, ?_, hcanceled⟩
      · rcases hgone with hlate | ⟨-, hgone⟩
        · exact .inr hlate
        · exact .inl (hgone hlaunched)
      · simp [hclient, hnot]
      · simp [hover, hnot]

/-- It happens: a quit gives up while another command is in flight, the prompt of that command comes
late, and the subprocess has to be killed. -/
theorem quit_returns_after_kill :
    let options : Options := { sentinel := [62], launcher := .spawns {}, exitGrace := 10 }
    let before : List Act := [.event .start, .event .launch, .event (.output [62]), .pump, .worker,
      .event (.submit [97]), .worker, .event (.quit [113] 5), .event (.pass 5)]
    let after : List Act := [.event (.output [62]), .pump, .worker, .worker, .event (.pass 10),
      .clientTimer 0, .pump, .complaints, .pump, .worker, .announce, .client 0]
    let s := (new options).play (before ++ [.clientTimer 0] ++ after)
    s.Still ∧ s.child.kills = 1 ∧ s.child.exit ≠ none ∧
      s.clients = [.hasQuit (some (.plain .deadlineExceeded))] ∧ s.reason? ≠ none ∧ ¬ s.Parked :=
  have h := quit_returns_unless_parked { sentinel := [62], launcher := .spawns {}, exitGrace := 10 }
    [.event .start, .event .launch, .event (.output [62]), .pump, .worker, .event (.submit [97]),
      .worker, .event (.quit [113] 5), .event (.pass 5)] (.clientTimer 0)
    [.event (.output [62]), .pump, .worker, .worker, .event (.pass 10), .clientTimer 0, .pump,
      .complaints, .pump, .worker, .announce, .client 0] 0 1 (some 5)
    (by decide) (by decide) (by decide) (by decide) (by decide)
  ⟨by decide, by decide, (h.1 (by decide)).resolve_right (by decide), by decide,
    h.2.2.1.2 (by decide), by decide⟩

/-- **A quit may wait for ever.**  It gives up while another command is in flight, and two prompts
come where one is due.  The run is at rest, the grace period is over and the subprocess is gone;
but the quit has not returned, the session is not over, and no time that passes changes that. -/
theorem quit_waits_for_ever :
    let options : Options := { sentinel := [62], launcher := .spawns {}, exitGrace := 10 }
    let s := (new options).run [.start, .launch, .output [62], .submit [97], .quit [113] 5, .pass 5,
      .output [62, 62], .pass 10]
    s.Still ∧ s.now = 5 + options.grace ∧ s.child.exit ≠ none ∧ s.Parked ∧
      s.clients = [.reaping (some (.plain .deadlineExceeded))] ∧ s.reason? = none ∧
      ∀ time, (s.step (.pass time)).clients = s.clients ∧ (s.step (.pass time)).reason? = none :=
  ⟨still_run _ _, by decide, by decide, by decide, by decide, by decide, fun _ => ⟨rfl, rfl⟩⟩

end ReplBridge.Repl.Session
