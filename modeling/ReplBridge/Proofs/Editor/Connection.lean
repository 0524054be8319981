import ReplBridge.Proofs.Editor.Deadline
import ReplBridge.Proofs.Editor.Intake

/-!
**No stuck request holds a server back from its end.**

A server and the reading of the editor's bytes make a connection.  Bytes arrive when they like; the
events they amount to are handed to the server one by one, and between any two of them the compiler
may answer or have quit, the server may be told to stop, and what it sends may cease to arrive.
Only time stands still while there is an event to hand over.

The end is announced by the editor, by the end of its bytes or by something among them that is no
message, or by whoever tells the server to stop.  However it is announced, the stream is over before
any time passes: a request for the end closes the reading, and the reading then ends with an event
that closes the stream.  From there on the time is set up to which the compiler is waited for, and
no request under way or in the queue can put it off.

Main definitions:

* `Happening`, `Connection`, `Connection.step` — what can happen to a connection;
* `Connection.Sound` — how server and reading fit together;
* `Connection.Ending` — the stream is over, or an event that closes it is about to be handed over;
* `Server.Within`, `Connection.Due` — the server is done by a time, unless the quit is still waited
  for.

Main results:

* `Connection.Sound.step`, `Connection.Due.step` — what happens to a connection keeps them;
* `Connection.done_in_time` — **once the end was announced, the server is done in time**.
-/

set_option autoImplicit false

namespace ReplBridge.Editor

/-! ### Connections -/

/-- What can happen to a connection.  Bytes of the editor arrive or are over, and the next event
they make is handed to the server (`reads`); the rest happens to the server itself. -/
inductive Happening where
  | arrives (bytes : Bytes)
  | ended
  | reads
  | canceled
  | writesBroken
  | answered (answer : Except Repl.Failure Bytes)
  | hasQuit
  | pass (time : Nat)

/-- **A server, and the reading of what the editor sends to it.** -/
structure Connection where
  server : Server
  /-- How far the reading of the editor's bytes has come. -/
  intake : Intake := {}
  /-- The events that were read and handed to the server, in order. -/
  past : List Event := []
  /-- Those that were read and not handed over yet. -/
  ahead : List Event := []

namespace Connection

/-- An event that does not come from the editor. -/
def tell (c : Connection) (e : Event) : Connection := { c with server := c.server.step e }

/-- The next event that was read is handed over. -/
def next (c : Connection) : Connection :=
  match c.ahead with
  | [] => c
  | e :: rest => { c with server := c.server.step e, past := c.past ++ [e], ahead := rest }

/-- **One happening.**  Time stands still while there is an event to hand over. -/
def step (c : Connection) : Happening → Connection
  | .arrives bytes =>
    { c with intake := (c.intake.feed bytes).2, ahead := c.ahead ++ (c.intake.feed bytes).1 }
  | .ended =>
    if c.intake.stopped then c
    else { c with intake := c.intake.stop, ahead := c.ahead ++ [c.intake.finish] }
  | .reads => c.next
  | .canceled => c.tell .canceled
  | .writesBroken => c.tell .writesBroken
  | .answered answer => c.tell (.answered answer)
  | .hasQuit => c.tell .hasQuit
  | .pass time => if c.ahead.isEmpty then c.tell (.pass time) else c

/-- **A list of happenings.** -/
def run (c : Connection) (hs : List Happening) : Connection := hs.foldl step c

theorem run_append (c : Connection) (before after : List Happening) :
    c.run (before ++ after) = (c.run before).run after := List.foldl_append

/-- What happenings keep, a list of them keeps. -/
theorem run_induction {P : Connection → Prop} (hstep : ∀ c h, P c → P (c.step h)) {c : Connection}
    (hc : P c) (hs : List Happening) : P (c.run hs) := by
  induction hs generalizing c with
  | nil => exact hc
  | cons h hs ih => exact ih (hstep c h hc)

/-- All that was read from the bytes of the editor. -/
def read (c : Connection) : List Event := c.past ++ c.ahead

/-! ### How server and reading fit together -/

/-- **How server and reading fit together.** -/
structure Sound (c : Connection) : Prop where
  idle : c.server.Idle
  punctual : c.server.Punctual
  told : c.server.Told
  reads : Intake.Reads (c.read, c.intake)
  /-- The stream is over with an event that closes it. -/
  closed : ∀ e ∈ c.past, e.closes = true → c.server.closing.isSome = true
  /-- The stream is over because of garbage only if some was handed over. -/
  garbled : ∀ why, c.server.closing = some (.garbage why) → .garbage why ∈ c.past
  /-- A request for the end is heeded, unless the stream was over by then. -/
  exited : ∀ e ∈ c.past, e.isExit = true →
    c.server.exited = true ∨ c.server.closing = some .ended

theorem Sound.new (options : Options) : Sound { server := { options } } where
  idle := fun _ => rfl
  punctual := ⟨⟨by simp, by simp⟩, by simp⟩
  told := ⟨fun _ => rfl, by simp⟩
  reads := .waits rfl (by simp [read])
  closed := by simp
  garbled := by simp
  exited := by simp

/-- What holds of the events handed over so far, after one more event. -/
theorem Sound.kept {c : Connection} (h : c.Sound) (e : Event) :
    (∀ e' ∈ c.past, e'.closes = true → (c.server.step e).closing.isSome = true) ∧
    ∀ e' ∈ c.past, e'.isExit = true →
      (c.server.step e).exited = true ∨ (c.server.step e).closing = some .ended := by
  have honward := Server.step_onward h.idle e
  refine ⟨?_, ?_⟩
  · intro e' he' hcloses
    obtain ⟨why, hwhy⟩ := Option.isSome_iff_exists.1 (h.closed e' he' hcloses)
    rw [honward.closing hwhy]
    rfl
  · intro e' he' hexit
    exact (h.exited e' he' hexit).imp honward.exited honward.closing

/-- Something happens to the server that does not come from the editor. -/
theorem Sound.tell {c : Connection} (h : c.Sound) {e : Event}
    (hclean : ∀ why, e.closing? ≠ some (.garbage why)) : (c.tell e).Sound := by
  obtain ⟨hclosed, hexited⟩ := h.kept e
  refine ⟨Server.idle_step h.idle e, h.punctual.step h.idle e, h.told.step h.idle e, h.reads,
    hclosed, ?_, hexited⟩
  intro why hwhy
  have hclosing := (Server.step_closing h.idle e).symm.trans hwhy
  rcases Option.or_eq_some_iff.1 hclosing with hbefore | ⟨-, hnow⟩
  · exact h.garbled why hbefore
  · exact absurd hnow (hclean why)

/-- **An event is handed over.** -/
theorem Sound.next {c : Connection} (h : c.Sound) : c.next.Sound := by
  unfold Connection.next
  split
  · exact h
  rename_i e rest hahead
  obtain ⟨hclosed, hexited⟩ := h.kept e
  have hreads := h.reads
  rw [read, hahead] at hreads
  refine ⟨Server.idle_step h.idle e, h.punctual.step h.idle e, h.told.step h.idle e, ?_, ?_, ?_, ?_⟩
  · simpa [read] using hreads
  · intro e' he' hcloses
    rcases List.mem_append.1 he' with he' | he'
    · exact hclosed e' he' hcloses
    · rw [List.mem_singleton.1 he', Event.closes] at hcloses
      rw [Server.step_closing h.idle, Option.isSome_or, hcloses, Bool.or_true]
  · intro why hwhy
    have hclosing := (Server.step_closing h.idle e).symm.trans hwhy
    rcases Option.or_eq_some_iff.1 hclosing with hbefore | ⟨-, hnow⟩
    · exact List.mem_append_left _ (h.garbled why hbefore)
    · refine List.mem_append_right _ (List.mem_singleton.2 ?_)
      cases e <;> simp_all [Event.closing?]
  · intro e' he' hexit
    rcases List.mem_append.1 he' with he' | he'
    · exact hexited e' he' hexit
    rw [List.mem_singleton.1 he'] at hexit
    cases hclosing : c.server.closing with
    | none =>
        cases e with
        | request r =>
            have hexit : r.isExit = true := hexit
            rw [Server.step_request, if_neg (by simp [hclosing]), if_pos hexit,
              Server.reply_eq_tells]
            exact .inl rfl
        | _ => cases hexit
    | some why =>
        cases why with
        | ended => exact .inr ((Server.step_onward h.idle e).closing hclosing)
        | garbage why =>
            -- Nothing is read after garbage.
            have hnil := hreads.closes_last (h.garbled why hclosing) rfl
            cases hnil

/-- **What happens to a connection leaves it sound.** -/
theorem Sound.step {c : Connection} (h : c.Sound) (x : Happening) : (c.step x).Sound := by
  cases x with
  | arrives bytes =>
      refine ⟨h.idle, h.punctual, h.told, ?_, h.closed, h.garbled, h.exited⟩
      cases hstopped : c.intake.stopped with
      | true => simpa [Connection.step, read, Intake.feed_of_stopped hstopped] using h.reads
      | false =>
          have hfeed : Intake.Reads ((c.intake.feed bytes).1, (c.intake.feed bytes).2) :=
            Intake.feed_reads hstopped bytes
          simpa [Connection.step, read] using h.reads.append hstopped hfeed
  | ended =>
      simp only [Connection.step]
      split
      · exact h
      · rename_i hstopped
        refine ⟨h.idle, h.punctual, h.told, ?_, h.closed, h.garbled, h.exited⟩
        have hlast : Intake.Reads ([c.intake.finish], c.intake.stop) :=
          .stops [] rfl (by simp) c.intake.finish_closes
        have hmore := h.reads.append (by simpa using hstopped) hlast
        simpa [read] using hmore
  | reads => exact h.next
  | canceled | writesBroken | answered | hasQuit => exact h.tell (by simp [Event.closing?])
  | pass time =>
      simp only [Connection.step]
      split
      · exact h.tell (by simp [Event.closing?])
      · exact h

/-! ### The end is announced -/

/-- **The stream is over**, or an event that closes it is about to be handed over. -/
def Ending (c : Connection) : Prop :=
  c.server.closing.isSome = true ∨ ∃ e ∈ c.ahead, e.closes = true

/-- An event that closes the stream has done so if it was handed over. -/
theorem Sound.ending_of_closes {c : Connection} (h : c.Sound) {e : Event} (he : e ∈ c.read)
    (hcloses : e.closes = true) : c.Ending := by
  rcases List.mem_append.1 he with he | he
  · exact .inl (h.closed e he hcloses)
  · exact .inr ⟨e, he, hcloses⟩

theorem Sound.ending_of_stopped {c : Connection} (h : c.Sound)
    (hstopped : c.intake.stopped = true) : c.Ending := by
  obtain ⟨e, he, hcloses⟩ := h.reads.closed hstopped
  exact h.ending_of_closes he hcloses

theorem Sound.ending_of_isExit {c : Connection} (h : c.Sound) {e : Event} (he : e ∈ c.read)
    (hexit : e.isExit = true) : c.Ending :=
  h.ending_of_stopped (h.reads.stopped_of_isExit he hexit)

theorem Ending.tell {c : Connection} (h : c.Ending) (hidle : c.server.Idle) (e : Event) :
    (c.tell e).Ending := by
  rcases h with hclosing | hahead
  · refine .inl ?_
    show (c.server.step e).closing.isSome = true
    rw [Server.step_closing hidle, Option.isSome_or, hclosing, Bool.true_or]
  · exact .inr hahead

theorem Ending.next {c : Connection} (h : c.Ending) (hidle : c.server.Idle) : c.next.Ending := by
  unfold Connection.next
  split
  · exact h
  rename_i e rest hahead
  rw [Ending, hahead] at h
  have hclosing : (c.server.step e).closing.isSome = (c.server.closing.isSome || e.closes) := by
    rw [Server.step_closing hidle, Option.isSome_or, Event.closes]
  rcases h with hover | ⟨e', he', hcloses⟩
  · exact .inl (by simp [hclosing, hover])
  · rcases List.mem_cons.1 he' with rfl | he'
    · exact .inl (by simp [hclosing, hcloses])
    · exact .inr ⟨e', he', hcloses⟩

/-! ### The end comes in time -/

end Connection

namespace Server

/-- **A server is done by a time**, unless the quit is still waited for then. -/
def Within (s : Server) (time : Nat) : Prop :=
  s.done = true ∨ ∃ deadline byShutdown, s.quit = .asked deadline byShutdown ∧ deadline ≤ time

/-- A server whose stream is over waits as long as its patience lasts. -/
theorem Punctual.within {s : Server} (h : s.Punctual) (hclosing : s.closing.isSome = true)
    {time : Nat} (htime : s.now + s.options.limit ≤ time) : s.Within time := by
  cases hquit : s.quit with
  | never => exact absurd hquit (h.asked hclosing)
  | asked deadline byShutdown =>
      obtain ⟨-, hnear⟩ := h.pending hquit
      exact .inr ⟨deadline, byShutdown, hquit, by omega⟩
  | finished => exact .inl (h.finished hclosing hquit)

/-- Nothing puts the end off. -/
theorem Within.step {s : Server} {time : Nat} (h : s.Within time) (hidle : s.Idle)
    (hpunctual : s.Punctual) (hclosing : s.closing.isSome = true) (e : Event) :
    (s.step e).Within time := by
  have honward := step_onward hidle e
  have hclosed : (s.step e).closing.isSome = true := by
    rw [step_closing hidle, Option.isSome_or, hclosing, Bool.true_or]
  rcases h with hdone | ⟨deadline, byShutdown, hquit, hle⟩
  · exact .inl (honward.done hdone)
  · rcases honward.asked hquit with hquit | hquit
    · exact .inr ⟨deadline, byShutdown, hquit, hle⟩
    · exact .inl ((hpunctual.step hidle e).finished hclosed hquit)

theorem Within.done {s : Server} {time : Nat} (h : s.Within time) (hpunctual : s.Punctual)
    (htime : time ≤ s.now) : s.done = true := by
  rcases h with hdone | ⟨deadline, byShutdown, hquit, hle⟩
  · exact hdone
  · obtain ⟨hafter, -⟩ := hpunctual.pending hquit
    omega

end Server

namespace Connection

/-- **The end is due at a time**: no time passes before the stream is over, and from then on the
server is done by that time. -/
structure Due (c : Connection) (time : Nat) : Prop where
  ending : c.Ending
  soon : c.server.closing = none → c.server.now + c.server.options.limit ≤ time
  within : c.server.closing.isSome = true → c.server.Within time

theorem Sound.due {c : Connection} (h : c.Sound) (hending : c.Ending) :
    c.Due (c.server.now + c.server.options.limit) :=
  ⟨hending, fun _ => Nat.le_refl _, fun hclosing => h.punctual.within hclosing (Nat.le_refl _)⟩

/-- An event at which no time passes unless the stream is over. -/
theorem Due.event {c c' : Connection} {time : Nat} (h : c.Due time) (hs : c.Sound) {e : Event}
    (hserver : c'.server = c.server.step e) (hending : c'.Ending)
    (hstill : c.server.closing = none → e.time = 0) : c'.Due time := by
  have hsame := (Server.step_onward hs.idle e).options
  -- While the stream is not over, it is still as early as before.
  have hsoon (hopen : c.server.closing = none) :
      (c.server.step e).now + (c.server.step e).options.limit ≤ time := by
    rw [Server.step_now hs.idle, hstill hopen, hsame]
    exact h.soon hopen
  refine ⟨hending, ?_, ?_⟩
  · rw [hserver]
    intro hopen
    rw [Server.step_closing hs.idle, Option.or_eq_none_iff] at hopen
    exact hsoon hopen.1
  · rw [hserver]
    intro hclosing
    rcases c.server.closing.eq_none_or_eq_some with hopen | ⟨why, hwhy⟩
    · exact (hs.punctual.step hs.idle e).within hclosing (hsoon hopen)
    · have hclosed : c.server.closing.isSome = true := by rw [hwhy]; rfl
      exact (h.within hclosed).step hs.idle hs.punctual hclosed e

theorem Sound.still {c : Connection} (h : c.Sound) {e : Event} (he : e ∈ c.read) : e.time = 0 := by
  have hkind := h.reads.request_or_closes he
  cases e with
  | pass time => simp [Event.isRequest, Event.closes, Event.closing?] at hkind
  | _ => rfl

/-- **What happens to a connection does not put its end off.** -/
theorem Due.step {c : Connection} {time : Nat} (h : c.Due time) (hs : c.Sound) (x : Happening) :
    (c.step x).Due time := by
  -- More events behind those that were read do not matter.
  have hmore (events : List Event) (i : Intake) :
      Due { c with intake := i, ahead := c.ahead ++ events } time := by
    refine ⟨?_, h.soon, h.within⟩
    rcases h.ending with hclosing | ⟨e, he, hcloses⟩
    · exact .inl hclosing
    · exact .inr ⟨e, List.mem_append_left _ he, hcloses⟩
  have htell {e : Event} (hstill : c.server.closing = none → e.time = 0) : (c.tell e).Due time :=
    h.event hs rfl (h.ending.tell hs.idle e) hstill
  cases x with
  | arrives bytes => exact hmore _ _
  | ended =>
      simp only [Connection.step]
      split
      · exact h
      · exact hmore _ _
  | reads =>
      have hending := h.ending.next hs.idle
      simp only [Connection.step]
      cases hahead : c.ahead with
      | nil => simpa [next, hahead] using h
      | cons e rest =>
          have he : e ∈ c.read := by simp [read, hahead]
          exact h.event hs (by simp [next, hahead]) hending fun _ => hs.still he
  | canceled | writesBroken | answered | hasQuit => exact htell fun _ => rfl
  | pass passed =>
      simp only [Connection.step]
      split
      · rename_i hnone
        refine htell fun hopen => ?_
        -- With nothing to hand over, the stream is over already.
        rcases h.ending with hclosing | ⟨e, he, -⟩
        · simp [hopen] at hclosing
        · rw [List.isEmpty_iff.1 hnone] at he
          cases he
      · exact h

theorem Ending.step {c : Connection} (h : c.Ending) (hs : c.Sound) (x : Happening) :
    (c.step x).Ending := ((hs.due h).step hs x).ending

theorem Sound.step_options {c : Connection} (h : c.Sound) (x : Happening) :
    (c.step x).server.options = c.server.options := by
  have htell (e : Event) : (c.tell e).server.options = c.server.options :=
    (Server.step_onward h.idle e).options
  cases x with
  | arrives => rfl
  | ended =>
      simp only [Connection.step]
      split <;> rfl
  | reads =>
      simp only [Connection.step, Connection.next]
      split
      · rfl
      · exact htell _
  | canceled | writesBroken | answered | hasQuit => exact htell _
  | pass =>
      simp only [Connection.step]
      split
      · exact htell _
      · rfl

/-! ### Runs -/

theorem sound_run (options : Options) (hs : List Happening) :
    (run { server := { options } } hs).Sound ∧
      (run { server := { options } } hs).server.options = options :=
  run_induction (P := fun c => c.Sound ∧ c.server.options = options)
    (fun _ x h => ⟨h.1.step x, (h.1.step_options x).trans h.2⟩) ⟨.new options, rfl⟩ hs

/-- The end that a happening announces stays announced. -/
theorem ending_of_mem {options : Options} {hs : List Happening} {x : Happening} (hx : x ∈ hs)
    (hstep : ∀ c : Connection, c.Sound → (c.step x).Ending) :
    (run { server := { options } } hs).Ending := by
  obtain ⟨before, after, rfl⟩ := List.append_of_mem hx
  have hbefore := (sound_run options before).1
  rw [run_append]
  exact (run_induction (P := fun c => c.Sound ∧ c.Ending)
    (fun _ x h => ⟨h.1.step x, h.2.step h.1 x⟩) ⟨hbefore.step x, hstep _ hbefore⟩ after).2

theorem Sound.ending_of_canceled {c : Connection} (h : c.Sound) : (c.step .canceled).Ending := by
  refine .inl ?_
  show (c.server.step .canceled).closing.isSome = true
  rw [Server.step_closing h.idle, Option.isSome_or]
  exact Bool.or_true _

theorem Sound.ending_of_ended {c : Connection} (h : c.Sound) : (c.step .ended).Ending := by
  refine (h.step .ended).ending_of_stopped ?_
  cases hstopped : c.intake.stopped <;> simp [Connection.step, hstopped, Intake.stop]

/-- A request for the end makes for a good one. -/
theorem Sound.exited_or_ended {c : Connection} (h : c.Sound)
    (hclosing : c.server.closing.isSome = true) {e : Event} (he : e ∈ c.read)
    (hexit : e.isExit = true) : c.server.exited = true ∨ c.server.closing = some .ended := by
  rcases List.mem_append.1 he with he | he
  · exact h.exited e he hexit
  · obtain ⟨why, hwhy⟩ := Option.isSome_iff_exists.1 hclosing
    cases why with
    | ended => exact .inr hwhy
    | garbage why =>
        have hnil := h.reads.closes_last (h.garbled why hwhy) rfl
        rw [hnil] at he
        cases he

/-- **Once the end was announced, the server is done in time.**  Take any connection, with bytes,
answers and failures of the compiler or none at all, and requests stuck in any way.  Let it be told
to stop at some point, or its bytes be over, or something be read that asks for the end or is no
message.  Then as soon as the time has passed that the compiler is waited for at most, the server is
done, and it has said so once.  If the editor asked for the end, it says that all is well. -/
theorem done_in_time (options : Options) (before after : List Happening)
    (hend : .canceled ∈ before ∨ .ended ∈ before ∨
      ∃ e ∈ (run { server := { options } } before).read, e.isExit = true ∨ e.closes = true)
    (htime : (run { server := { options } } before).server.now + options.limit ≤
      (run { server := { options } } (before ++ after)).server.now) :
    let c := run { server := { options } } (before ++ after)
    c.server.done = true ∧ ∃ failed, c.server.log.filterMap Effect.outcome? = [failed] ∧
      ((∃ e ∈ c.read, e.isExit = true) → failed = false) := by
  intro c
  obtain ⟨hbefore, hoptions⟩ := sound_run options before
  have hc : c.Sound := (sound_run options (before ++ after)).1
  have hending : (run { server := { options } } before).Ending := by
    rcases hend with hmem | hmem | ⟨e, he, hexit | hcloses⟩
    · exact ending_of_mem hmem fun _ h => h.ending_of_canceled
    · exact ending_of_mem hmem fun _ h => h.ending_of_ended
    · exact hbefore.ending_of_isExit he hexit
    · exact hbefore.ending_of_closes he hcloses
  have hdue : c.Due ((run { server := { options } } before).server.now + options.limit) := by
    have hfirst := hbefore.due hending
    rw [hoptions] at hfirst
    show Due (run _ (before ++ after)) _
    rw [run_append]
    exact (run_induction (P := fun c => c.Sound ∧ c.Due _)
      (fun _ x h => ⟨h.1.step x, h.2.step h.1 x⟩) ⟨hbefore, hfirst⟩ after).2
  have hclosing : c.server.closing.isSome = true := by
    rcases c.server.closing.eq_none_or_eq_some with hopen | ⟨why, hwhy⟩
    · -- Some time has passed, and none does before the stream is over.
      have hnow : _ ≤ c.server.now := htime
      have hsoon := hdue.soon hopen
      have hpos := c.server.options.limit_pos
      omega
    · rw [hwhy]
      rfl
  have hdone := (hdue.within hclosing).done hc.punctual htime
  obtain ⟨-, failed, hlog, hwell⟩ := hc.told.after hdone
  refine ⟨hdone, failed, hlog, ?_⟩
  rintro ⟨e, he, hexit⟩
  exact hwell (hc.exited_or_ended hclosing he hexit)

/-- It happens: the editor asks for the end while a shutdown waits for a compiler that never quits,
both in one portion of bytes. -/
theorem done_in_time_stuck_shutdown :
    let options : Options := { patience := 5 }
    let portion : Bytes :=
      Wire.frame (utf8 "\x7b\"jsonrpc\":\"2.0\",\"id\":1,\"method\":\"shutdown\"\x7d") ++
        Wire.frame (utf8 "\x7b\"jsonrpc\":\"2.0\",\"method\":\"exit\"\x7d")
    let before : List Happening := [.arrives portion, .reads]
    let after : List Happening := [.reads, .reads, .pass 5]
    (run { server := { options } } before).server.task.isSome = true ∧
    (∃ e ∈ (run { server := { options } } before).read, e.isExit = true) ∧
    (run { server := { options } } before).server.now + options.limit ≤
      (run { server := { options } } (before ++ after)).server.now ∧
    (run { server := { options } } (before ++ after)).server.done = true ∧
    (run { server := { options } } (before ++ after)).server.log.filterMap Effect.outcome? =
      [false] := by
  intro options portion before after
  obtain ⟨e, he, hasks⟩ : ∃ e ∈ (run { server := { options } } before).read, e.isExit = true :=
    List.any_eq_true.1 (by decide +kernel)
  have hexit : ∃ e ∈ (run { server := { options } } (before ++ after)).read, e.isExit = true :=
    List.any_eq_true.1 (by decide +kernel)
  have htime : (run { server := { options } } before).server.now + options.limit ≤
      (run { server := { options } } (before ++ after)).server.now := by decide +kernel
  obtain ⟨hdone, failed, hlog, hwell⟩ :=
    done_in_time options before after (.inr (.inr ⟨e, he, .inl hasks⟩)) htime
  refine ⟨by decide +kernel, ⟨e, he, hasks⟩, htime, hdone, ?_⟩
  rw [hlog, hwell hexit]

end Connection

end ReplBridge.Editor
