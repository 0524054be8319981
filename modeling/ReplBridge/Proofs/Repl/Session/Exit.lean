import ReplBridge.Proofs.Repl.Session.Alignment
import ReplBridge.Proofs.Repl.Session.GivenUp

/-!
**The end of the subprocess is noticed, with one exception.**

A session learns of the end of its subprocess from the reader of standard output, and the reader
tells it only after it has handed over all frames.  The worker takes a frame for the text before the
first prompt and one for each command it wrote.  So the reader gets stuck exactly when the
subprocess has printed one frame more than that and no command comes up: the session stays ready and
knows nothing.  The next command finds out, since it cannot be written any more.

Main definitions:

* `Session.Unasked` — the reader offers a frame that no written command asked for;
* `Session.Vain`, `Session.Refused` — a call waits to be written to a subprocess that is gone, and
  was refused for that.

Main results:

* `Session.prompted_play` — a worker past the first prompt is in a session that is ready or over;
* `Session.unasked_of_parked` — what keeps a parked session is a frame nobody asked for;
* `Session.Vain.refused_of_quiet` — **a command for a subprocess that is gone is refused**, whoever
  acts first;
* `Session.exit_is_noticed` — **the end of the subprocess is noticed**, but for a parked session.
-/

set_option autoImplicit false

namespace ReplBridge.Repl

/-- The command that an event asks for. -/
def Event.command? : Event → Option Bytes
  | .submit command => some command
  | .execute command _ => some command
  | .quit command _ => some command
  | _ => none

namespace Session

variable {s s' : Session} {l : Label}

/-! ### Past the first prompt -/

/-- A worker past the first prompt is in a session that is ready or over. -/
def Prompted (s : Session) : Prop :=
  s.worker ≠ .off → s.worker ≠ .greeting → s.state = .ready ∨ s.reason? ≠ none

theorem Prompted.change (h : s.Prompted) (hs : s.Staged) (hc : s.Change l s') : s'.Prompted := by
  intro hoff hgreeting
  cases hc with
  | starting hidle => exact absurd (hs.off (.inl hidle)) hoff
  | launched => exact absurd rfl hgreeting
  | ended | refused | parted => exact .inr (by simp [reason?])
  | greeted => exact .inl rfl
  | wrote hworker | answered hworker => exact h (by simp [hworker]) (by simp [hworker])
  | failed | expired | stopped | overtaken | outlived => exact absurd rfl hoff
  | _ => exact h hoff hgreeting

theorem prompted_play (options : Options) (acts : List Act) : ((new options).play acts).Prompted :=
  ledger_induction (P := fun _ t => t.Prompted) (fun ht _ _ h hc => h.change ht.staged hc) options
    (fun hoff => absurd rfl hoff) acts

/-! ### A frame that nobody asked for -/

/-- The reader offers a frame that no written command asked for.  Of the frames `f` the first is for
nobody, and the one after it for the command that was written first. -/
def Unasked (f : List Bytes) (s : Session) : Prop :=
  ∃ frame, s.offered? = some frame ∧ f[(writes s.log).length + 1]? = some frame

theorem unasked_of_parked (options : Options) (acts : List Act)
    (h : ((new options).play acts).Parked) :
    ((new options).play acts).Unasked
      (frames options.sentinel ((new options).printed acts)) := by
  obtain ⟨hopen, hidle, -, hoffered⟩ := h
  obtain ⟨frame, hframe⟩ := Option.ne_none_iff_exists'.1 hoffered
  refine ⟨frame, hframe, ?_⟩
  obtain ⟨read, hprinted, hcut⟩ := aligned_play options acts
  -- The worker has taken one frame more than it wrote commands, so this one is next.
  have hlen : (answers ((new options).play acts).log).length =
      (writes ((new options).play acts).log).length + 1 := by
    have hpaired := (paired_play options acts).worker
    rw [hidle] at hpaired
    simpa using congrArg List.length hpaired
  have hoptions : ((new options).play acts).options = options :=
    options_play (tidy_new options) acts
  have hunheard : ((new options).play acts).done = false := by
    cases hdone : ((new options).play acts).done with
    | false => rfl
    | true => exact absurd hopen ((tidy_play (tidy_new options) acts).staged.announced hdone)
  have hcutFrames := hcut.lossless ⟨hunheard, .inl (by simp [hidle])⟩
  obtain ⟨sanitizer, framer, offered, hpump⟩ := offered?_eq_some hframe
  rw [hpump, hoptions] at hcutFrames
  have hread : (frames options.sentinel read)[(writes ((new options).play acts).log).length + 1]? =
      some frame := by
    rw [hcutFrames, List.getElem?_append_right (by simp [hlen])]
    simp [hlen, Pump.offered]
  rw [hprinted]
  exact getElem?_of_isPrefix (frames_prefix_append _ _ _) hread

/-! ### The next command is refused -/

theorem writeFailure?_of_exit (h : s.child.exit ≠ none) :
    s.writeFailure? = some (.plain .closedPipe) := by
  simp [writeFailure?, Option.isSome_iff_ne_none.2 h]

/-- Letting go of a subprocess that was launched concerns nobody else. -/
theorem release_eq (h : s.launched ≠ none) (result : Option Failure) :
    ∃ child, (s.release result).1 = { s with child } ∧ s.child.Follows child := by
  unfold release
  split
  · exact absurd ‹_› h
  · exact closeStdin_eq s

/-- **A call waits in vain**: it is next to be written, its caller has time, and the subprocess is
gone. -/
structure Vain (n : Nat) (s : Session) : Prop where
  opened : s.reason? = none
  /-- The worker will write the call next. -/
  idle : s.worker = .idle
  queue : s.queue = [n]
  /-- The caller has not given up. -/
  call : ∃ c, s.calls[n]? = some c ∧ c.abandoned = false
  /-- The reader cannot go on. -/
  offered : s.offered? ≠ none
  exit : s.child.exit ≠ none
  /-- The caller will not give up before time passes. -/
  ahead : ∀ client ∈ s.clients, client.call? = some n →
    ∀ deadline, client.deadline? = some deadline → s.now < deadline
  /-- Nobody is about to end the session. -/
  lasting : ∀ client ∈ s.clients, client ≠ .leaving ∧ client ≠ .shutting

/-- The call was refused, and the session is over for that. -/
def Refused (n : Nat) (s : Session) : Prop :=
  s.reason? = some (.write (.plain .closedPipe)) ∧
    s.outcome? n = some (.failed (.ofTermination (.write (.plain .closedPipe))))

namespace Vain

variable {n : Nat} {s : Session}

theorem not_gone (h : s.Vain n) : s.childGone = false := by
  obtain ⟨frame, hframe⟩ := Option.ne_none_iff_exists'.1 h.offered
  obtain ⟨sanitizer, framer, offered, hpump⟩ := offered?_eq_some hframe
  simp [childGone, hpump]

/-- Whatever happens to the others, the call goes on waiting. -/
theorem aside (h : s.Vain n) {child : Child} (hchild : s.child.Follows child) {calls : List Call}
    (hcall : calls[n]? = s.calls[n]?) {clients : List Client}
    (hclients : ∀ c ∈ clients, c ∈ s.clients ∨ c.past = true) (complaints : Complaints)
    (log : List Effect) : Vain n { s with child, calls, clients, complaints, log } := by
  refine ⟨h.opened, h.idle, h.queue, ?_, h.offered, ?_, ?_, ?_⟩
  · obtain ⟨c, hc, hwaits⟩ := h.call
    exact ⟨c, hcall.trans hc, hwaits⟩
  · rcases hchild.exit with hsame | ⟨hnone, -⟩
    · exact fun hexit => h.exit (hsame ▸ hexit)
    · exact absurd hnone h.exit
  · intro c hc hwaits
    rcases hclients c hc with hold | hpast
    · exact h.ahead c hold hwaits
    · rw [Client.call?_of_past hpast] at hwaits
      cases hwaits
  · intro c hc
    rcases hclients c hc with hold | hpast
    · exact h.lasting c hold
    · exact ⟨fun heq => by simp [heq, Client.past] at hpast,
        fun heq => by simp [heq, Client.past] at hpast⟩

/-- A client that has moved does not wait for the call. -/
theorem moved (h : s.Vain n) {child : Child} (hchild : s.child.Follows child) {calls : List Call}
    (hcall : calls[n]? = s.calls[n]?) (i : Nat) {c : Client} (hc : c.past = true) :
    Vain n { s with child, calls, clients := s.clients.set i c } := by
  refine h.aside hchild hcall ?_ s.complaints s.log
  intro b hb
  rcases List.mem_or_eq_of_mem_set hb with hmem | rfl
  · exact .inl hmem
  · exact .inr hc

theorem unannounced (h : s.Vain n) : s.announced? = none := by
  simp [announced?, h.opened]

theorem worker (h : s.Vain n) (hp : s.Placed) : (s.perform .worker).Refused n := by
  obtain ⟨c, hc, hwaits⟩ := h.call
  have hnone := (hp.undone n c hc).2 (.inl (by simp [h.queue]))
  have hmove : s.perform .worker = s.dispatch n [] := by
    simp [Session.perform, workerMove?, h.idle, h.queue]
  rw [hmove, dispatch_refused h.opened h.queue hc hwaits (writeFailure?_of_exit h.exit)]
  obtain ⟨child, hkill, -⟩ := kill_eq { s with
    state := .terminated (.write (.plain .closedPipe))
    queue := []
    calls := finishAll (.failed (.ofTermination (.write (.plain .closedPipe)))) s.queue s.calls
    log := s.log ++ [.recorded .input c.seq c.command,
      .became (.terminated (.write (.plain .closedPipe)))]
    worker := .off }
  rw [hkill]
  refine ⟨rfl, ?_⟩
  simp [outcome?_eq, getElem?_finishAll, hc, h.queue, Call.finish_of_none hnone]

theorem complaintsMove (h : s.Vain n) (hmove : s.complaintsMove? = some s') : s'.Vain n := by
  cases complaintsMove?_eq_some hmove with
  | @reads chunk rest =>
      have hchild : s.child.Follows { s.child with stderr := rest } := ⟨rfl, id, .inl rfl⟩
      exact h.aside hchild rfl (fun _ hc => .inl hc) _ _
  | ends => exact h.aside (.refl _) rfl (fun _ hc => .inl hc) _ _

theorem clientStep (h : s.Vain n) (hp : s.Placed) {i : Nat} {c c' : Client}
    (hc : s.clients[i]? = some c) (hstep : s.clientStep? c = some (s', c')) :
    Vain n { s' with clients := s.clients.set i c' } := by
  have hfree := clientStep_past hstep
  have hlasting := h.lasting c (List.mem_of_getElem? hc)
  cases clientStep?_eq_some hstep with
  | returns => exact h.moved (.refl _) rfl i hfree
  | @releases _ _ o =>
      obtain ⟨child, hrelease, hchild⟩ :=
        release_eq (hp.launched_of_worker (by simp [h.idle])) o.failure?
      rw [hrelease]
      exact h.moved hchild rfl i hfree
  | leaves => exact absurd rfl hlasting.1
  | shuts => exact absurd rfl hlasting.2
  | released hgone | reaped hgone | closed hgone => simp [h.not_gone] at hgone

/-- A caller whose time is up gives up on another call. -/
theorem expired (h : s.Vain n) (hp : s.Placed) {i deadline : Nat} {c : Client}
    (hc : s.clients[i]? = some c) (hdue : c.deadline? = some deadline) (hlate : deadline ≤ s.now) :
    Vain n { (s.expireClient c).1 with clients := s.clients.set i (s.expireClient c).2 } := by
  have hfree := expireClient_past (s := s) hdue
  have hother {call : Nat} (hwaits : c.call? = some call) :
      (s.calls.modify call fun c => { c with abandoned := true })[n]? = s.calls[n]? := by
    refine List.getElem?_modify_ne _ _ ?_
    rintro rfl
    have := h.ahead c (List.mem_of_getElem? hc) hwaits deadline hdue
    omega
  cases c with
  | executing call d => exact h.moved (.refl _) (hother rfl) i hfree
  | quitting call d =>
      obtain ⟨child, hrelease, hchild⟩ := release_eq (s := s.giveUp call)
        (hp.launched_of_worker (by simp [h.idle])) (some (.plain .deadlineExceeded))
      simp only [expireClient] at hfree ⊢
      rw [hrelease]
      exact h.moved hchild (hother rfl) i hfree
  | releasing result d =>
      obtain ⟨child, hkill, hchild⟩ := kill_eq s
      simp only [expireClient, hkill]
      exact h.moved hchild rfl i hfree
  | leaving | reaping | shutting | closing | executed | hasQuit | hasClosed => cases hdue

/-- **One act of anybody keeps the call waiting, or refuses it.** -/
theorem perform (h : s.Vain n) (hp : s.Placed) {a : Act} (ha : ∀ e, a ≠ .event e) :
    (s.perform a).Vain n ∨ (s.perform a).Refused n := by
  by_cases hworker : a = .worker
  · subst hworker
    exact .inr (h.worker hp)
  have hperformed := s.performed a
  generalize s.perform a = s' at hperformed ⊢
  cases hperformed with
  | nothing => exact .inl h
  | event e => exact absurd rfl (ha e)
  | announce hmove => exact absurd h.opened (announce?_eq_some hmove).1
  | worker => exact absurd rfl hworker
  | pump hmove =>
      -- The reader waits for someone to take its frame.
      obtain ⟨frame, hframe⟩ := Option.ne_none_iff_exists'.1 h.offered
      cases pumpMove?_eq_some hmove with
      | drops _ hknown => simp [h.unannounced] at hknown
      | reads hpump | drains hpump | departs hpump => simp [offered?, hpump] at hframe
  | complaints hmove => exact .inl (h.complaintsMove hmove)
  | client hc hstep => exact .inl (h.clientStep hp hc hstep)
  | timer hawaits => simp [h.idle] at hawaits
  | clientTimer hc hdeadline hdue => exact .inl (h.expired hp hc hdeadline hdue)

/-- A call that waits in vain does not wait at rest. -/
theorem not_quiet (h : s.Vain n) : s.move? ≠ none := by
  intro hquiet
  have hworker := (quiet_parts hquiet).2.1
  simp [workerMove?, h.idle, h.queue] at hworker

end Vain

theorem Refused.play {n : Nat} (h : s.Refused n) (ht : s.Tidy) (acts : List Act) :
    (s.play acts).Refused n :=
  ⟨reason?_play ht h.1 acts, outcome?_play ht h.2 acts⟩

/-- **A command for a subprocess that is gone is refused**, in whatever order the parties act. -/
theorem Vain.refused_of_quiet {n : Nat} (h : s.Vain n) (hr : s.Reached) {acts : List Act}
    (ha : Internal acts) (hquiet : (s.play acts).move? = none) : (s.play acts).Refused n := by
  induction acts generalizing s with
  | nil => exact absurd hquiet h.not_quiet
  | cons a acts ih =>
      have hr' : (s.perform a).Reached := hr.leads ⟨[a], rfl⟩
      rcases h.perform hr.placed (ha a (by simp)) with hvain | hrefused
      · exact ih hvain hr' (fun b hb => ha b (by simp [hb])) hquiet
      · exact hrefused.play hr'.tidy acts

/-- Whoever asks for a command in a session that was started submits it. -/
theorem perform_command (hstarted : s.state ≠ .idle) {e : Event} {command : Bytes}
    (he : e.command? = some command) :
    ∃ last clients, s.perform (.event e) = { s.submit command last with clients } := by
  cases e with
  | submit => cases he; exact ⟨false, _, rfl⟩
  | execute => cases he; exact ⟨false, _, rfl⟩
  | quit =>
      cases he
      simp only [perform, apply, quit]
      exact ⟨true, _, rfl⟩
  | _ => cases he

/-- A command that comes to a parked session whose subprocess is gone waits in vain. -/
theorem vain_of_parked (hr : s.Reached) (hquiet : s.move? = none) (hparked : s.Parked)
    (hexit : s.child.exit ≠ none) {e : Event} {command : Bytes} (he : e.command? = some command) :
    (s.perform (.event e)).Vain s.calls.length ∧
      ∃ c, (s.perform (.event e)).calls[s.calls.length]? = some c ∧ c.command = command := by
  obtain ⟨hopen, hidle, hqueue, hoffered⟩ := hparked
  have hstarted := (hr.tidy.staged.working (by simp [hidle])).1
  -- Those who were there wait for other calls, and whoever comes has time.
  have hahead : ∀ client ∈ (s.perform (.event e)).clients, client.call? = some s.calls.length →
      ∀ deadline, client.deadline? = some deadline → s.now < deadline := by
    intro client hclient hwaits deadline hdue
    obtain ⟨more, hmore, hcomes⟩ := event_clients s e
    rw [hmore] at hclient
    rcases List.mem_append.1 hclient with hold | hnew
    · exact absurd (reached_clients hr client hold _ hwaits) (Nat.lt_irrefl _)
    · exact (hcomes client hnew).ahead hdue
  -- Those who were there were at rest, and nobody comes to end a session with a command.
  have hlasting : ∀ client ∈ (s.perform (.event e)).clients,
      client ≠ .leaving ∧ client ≠ .shutting := by
    intro client hclient
    obtain ⟨more, hmore, hcomes⟩ := event_clients s e
    rw [hmore] at hclient
    rcases List.mem_append.1 hclient with hold | hnew
    · have hstuck := clientStep_of_quiet hquiet hold
      constructor <;> rintro rfl <;> cases hstuck
    · have hcome := hcomes client hnew
      refine ⟨?_, ?_⟩
      · rintro rfl
        exact hstarted hcome.1
      · rintro rfl
        rw [show e = .close from hcome] at he
        cases he
  obtain ⟨last, clients, heq⟩ := perform_command hstarted he
  rw [heq, submit_open hopen] at hahead hlasting ⊢
  refine ⟨⟨hopen, hidle, by simp [hqueue], ?_, hoffered, hexit, hahead, hlasting⟩, ?_⟩
  · exact ⟨_, List.getElem?_concat_length, rfl⟩
  · exact ⟨_, List.getElem?_concat_length, rfl⟩

/-! ### The end of the subprocess -/

/-- **The end of the subprocess is noticed**, but for one case.  After every play in which the
subprocess has ended and nothing can move, the session is over; or it is ready, its queue is empty
and no command is in flight, and the reader offers a frame that no written command asked for.

In the second case the next command finds out.  Whoever asks for it, and in whatever order the
parties act until nothing can move, for one in the order in which a run settles: its call fails
since it could not be written, and for that the session is over. -/
theorem exit_is_noticed (options : Options) (acts : List Act)
    (hquiet : ((new options).play acts).move? = none)
    (hlaunched : ((new options).play acts).launched ≠ none)
    (hexit : ((new options).play acts).child.exit ≠ none) :
    let s := (new options).play acts
    let f := frames options.sentinel ((new options).printed acts)
    (s.reason? ≠ none ∨ s.state = .ready ∧ s.queue = [] ∧ s.worker = .idle ∧ s.Unasked f) ∧
    (s.reason? = none → ∀ e command, e.command? = some command →
      (∃ after, Internal after ∧ s.step e = (s.perform (.event e)).play after) ∧
      ∀ after, Internal after → let t := (s.perform (.event e)).play after
        t.move? = none → t.reason? = some (.write (.plain .closedPipe)) ∧
          ∃ c, t.calls[s.calls.length]? = some c ∧ c.command = command ∧
            c.outcome = some (.failed (.ofTermination (.write (.plain .closedPipe))))) := by
  intro s f
  have hr : s.Reached := ⟨options, acts, rfl⟩
  have hparked (hopen : s.reason? = none) : s.Parked :=
    parked_of_quiet hr.placed (ended_play options acts) hquiet hlaunched hexit hopen
  constructor
  · by_cases hopen : s.reason? = none
    · obtain ⟨-, hidle, hqueue, -⟩ := hparked hopen
      have hprompted : s.Prompted := prompted_play options acts
      have hready := hprompted (by simp [hidle]) (by simp [hidle])
      refine .inr ⟨?_, hqueue, hidle, unasked_of_parked options acts (hparked hopen)⟩
      exact hready.resolve_right fun hover => hover hopen
    · exact .inl hopen
  · intro hopen e command he
    obtain ⟨hvain, c, hc, hcommand⟩ := vain_of_parked hr hquiet (hparked hopen) hexit he
    constructor
    · refine step_internal ?_ s
      rintro time rfl
      cases he
    · intro after hafter t hrest
      have hr' : (s.perform (.event e)).Reached := hr.leads ⟨[.event e], rfl⟩
      obtain ⟨hreason, hfailed⟩ := hvain.refused_of_quiet hr' hafter hrest
      obtain ⟨c', hc', hgrows⟩ := play_calls hr'.tidy after _ _ hc
      refine ⟨hreason, c', hc', hgrows.command.trans hcommand, ?_⟩
      rwa [outcome?_of_call hc'] at hfailed

/-- It happens: two prompts come where one is due, and the subprocess ends.  Then a command comes up
with a client that waits for it. -/
theorem exit_is_noticed_late :
    let options : Options := { sentinel := [62], launcher := .spawns {} }
    let acts : List Act := [.event .start, .event .launch, .event (.output [62, 120, 62]), .pump,
      .worker, .event (.exit none), .complaints]
    let s := (new options).play acts
    let t := (s.perform (.event (.execute [97] 5))).play
      [.worker, .announce, .pump, .pump, .pump, .client 0]
    (s.move? = none ∧ s.launched ≠ none ∧ s.child.exit ≠ none ∧ s.state = .ready ∧
      s.offered? = some [120] ∧ frames [62] ((new options).printed acts) = [[], [120]]) ∧
    t.move? = none ∧ t.reason? = some (.write (.plain .closedPipe)) ∧
      ∃ c, t.calls[0]? = some c ∧ c.command = [97] ∧
        c.outcome = some (.failed (.ofTermination (.write (.plain .closedPipe)))) := by
  obtain ⟨-, hnext⟩ := exit_is_noticed { sentinel := [62], launcher := .spawns {} }
    [.event .start, .event .launch, .event (.output [62, 120, 62]), .pump, .worker,
      .event (.exit none), .complaints] (by decide) (by decide) (by decide)
  refine ⟨by decide, by decide, ?_⟩
  exact (hnext (by decide) (.execute [97] 5) [97] rfl).2
    [.worker, .announce, .pump, .pump, .pump, .client 0] (by simp [Internal]) (by decide)

end Session

end ReplBridge.Repl
