import Mathlib.Data.List.TakeWhile
import ReplBridge.Proofs.Editor.Moves

/-!
**A shutdown closes the way to the compiler, which is asked to quit once.**

A quit can be asked for by a shutdown, by another shutdown after it, by the end of the stream while
some request is stuck, or by being told to stop, in any order.  Whoever comes first asks, and all
others find the quit asked for; and the server is done only when the quit is over.  So the log has
one quit at most, and one before it says that the server is done.

Requests and notifications are kept from the compiler in two different places: questions are refused
before their parameters are looked at, and validations are left out after that.  Both look at the
same mark, which is set when the handling of a shutdown begins.  So the commands in the log are
those of the requests that were handled before the first shutdown, one for one and in order.

Main definitions:

* `beforeShutdown`, `fromShutdown` — the requests before the first shutdown, and the others;
* `Server.QuitOnce`, `Server.Gated` — what the log says about quits, and about the commands and the
  refusals of the requests that were handled.

Main results:

* `Server.QuitOnce.move`, `Server.Gated.begins` — what a move does to them;
* `Server.shutdown_gates_and_quits_once` — **the quit is asked for once, and from a shutdown on the
  compiler is given no command**.
-/

set_option autoImplicit false

namespace ReplBridge.Editor

variable {rs handled : List Request} {r : Request}

/-! ### Before and after a shutdown -/

/-- The requests before the first shutdown. -/
def beforeShutdown (rs : List Request) : List Request := rs.takeWhile (!·.isShutdown)

/-- The requests from the first shutdown on. -/
def fromShutdown (rs : List Request) : List Request := rs.dropWhile (!·.isShutdown)

/-- The refusal of a question for the reason that the server is shutting down, if a reply is
wanted. -/
def Request.lateRefusal? (r : Request) : Option Outgoing :=
  if r.isQuestion then r.id.map (.refusal · .shuttingDown) else none

theorem not_isShutdown_of_open (h : rs.any (·.isShutdown) = false) :
    ∀ r ∈ rs, (!r.isShutdown) = true := by
  intro r hr
  rw [List.any_eq_false] at h
  simpa using h r hr

theorem beforeShutdown_of_open (h : rs.any (·.isShutdown) = false) : beforeShutdown rs = rs :=
  List.takeWhile_eq_self_iff.2 (not_isShutdown_of_open h)

theorem fromShutdown_of_open (h : rs.any (·.isShutdown) = false) : fromShutdown rs = [] :=
  List.dropWhile_eq_nil_iff.2 (not_isShutdown_of_open h)

/-- Later requests do not change what came before the first shutdown. -/
theorem beforeShutdown_concat (h : rs.any (·.isShutdown) = true ∨ r.isShutdown = true) :
    beforeShutdown (rs ++ [r]) = beforeShutdown rs := by
  induction rs with
  | nil =>
      have hr : r.isShutdown = true := by simpa using h
      simp [beforeShutdown, hr]
  | cons first rs ih =>
      cases hfirst : first.isShutdown with
      | true => simp [beforeShutdown, hfirst]
      | false =>
          have hrest : rs.any (·.isShutdown) = true ∨ r.isShutdown = true := by
            simpa [hfirst] using h
          simpa [beforeShutdown, hfirst] using ih hrest

theorem fromShutdown_concat (h : rs.any (·.isShutdown) = true ∨ r.isShutdown = true) :
    fromShutdown (rs ++ [r]) = fromShutdown rs ++ [r] := by
  induction rs with
  | nil =>
      have hr : r.isShutdown = true := by simpa using h
      simp [fromShutdown, hr]
  | cons first rs ih =>
      cases hfirst : first.isShutdown with
      | true => simp [fromShutdown, hfirst]
      | false =>
          have hrest : rs.any (·.isShutdown) = true ∨ r.isShutdown = true := by
            simpa [hfirst] using h
          simpa [fromShutdown, hfirst] using ih hrest

theorem Request.not_isQuestion_of_isShutdown (h : r.isShutdown = true) : r.isQuestion = false := by
  rw [Request.isShutdown, beq_iff_eq] at h
  simp [Request.isQuestion, h]

namespace Server

variable {s s' : Server}

/-! ### The log -/

theorem tells_commands (s : Server) (ms : List Outgoing) :
    (s.tells ms).log.filterMap Effect.command? = s.log.filterMap Effect.command? := by
  have hnone : (ms.map Effect.sent).filterMap Effect.command? = [] := by
    simp [List.filterMap_eq_nil_iff, Effect.command?]
  simp only [tells, List.filterMap_append]
  split
  · rw [hnone, List.append_nil]
  · rw [List.filterMap_nil, List.append_nil]

theorem tells_messages (h : s.heard = true) (ms : List Outgoing) :
    (s.tells ms).log.filterMap Effect.message? = s.log.filterMap Effect.message? ++ ms := by
  have hall : (ms.map Effect.sent).filterMap Effect.message? = ms := by
    induction ms with
    | nil => rfl
    | cons m ms ih => simpa [Effect.message?] using ih
  simp [tells, h, List.filterMap_append, hall]

/-! ### One quit -/

/-- **What the log says about quits**: there is one if the quit was asked for, and one before the
server is done. -/
structure QuitOnce (s : Server) : Prop where
  /-- There is a quit exactly if it was asked for. -/
  count : s.log.countP Effect.isQuit = if s.quit = .never then 0 else 1
  /-- The quit comes before the server is done. -/
  first : ∀ before failed after, s.log = before ++ .done failed :: after →
    before.countP Effect.isQuit = 1
  /-- The log tells when the server is done. -/
  told : s.done = true ↔ ∃ failed, Effect.done failed ∈ s.log

/-- Where the end of the server stands in a log that has grown. -/
theorem done_of_append {log extra before after : List Effect} {failed : Bool}
    (h : log ++ extra = before ++ .done failed :: after) :
    (∃ rest, log = before ++ .done failed :: rest) ∨
      ∃ front, before = log ++ front ∧ extra = front ++ .done failed :: after := by
  rcases List.append_eq_append_iff.1 h with ⟨front, hbefore, hextra⟩ | ⟨rest, hlog, hrest⟩
  · exact .inr ⟨front, hbefore, hextra⟩
  · cases rest with
    | nil => exact .inr ⟨[], by simpa using hlog.symm, by simpa using hrest.symm⟩
    | cons e rest =>
        obtain ⟨rfl, -⟩ := List.cons.inj hrest
        exact .inl ⟨rest, hlog⟩

/-- Effects that are neither a quit nor the end of the server do not matter. -/
theorem QuitOnce.extend {extra : List Effect} (h : s.QuitOnce) (hlog : s'.log = s.log ++ extra)
    (hquit : s'.quit = .never ↔ s.quit = .never) (hdone : s'.done = s.done)
    (hextra : ∀ e ∈ extra, e.isQuit = false ∧ ∀ failed, e ≠ .done failed) : s'.QuitOnce := by
  have hnone : extra.countP Effect.isQuit = 0 :=
    List.countP_eq_zero.2 fun e he => by simp [(hextra e he).1]
  refine ⟨?_, ?_, ?_⟩
  · rw [hlog, List.countP_append, hnone, h.count]
    simp only [hquit, Nat.add_zero]
  · intro before failed after heq
    rw [hlog] at heq
    rcases done_of_append heq with ⟨rest, hleft⟩ | ⟨front, -, hright⟩
    · exact h.first before failed rest hleft
    · exact absurd rfl ((hextra (.done failed) (by simp [hright])).2 failed)
  · rw [hdone, h.told, hlog]
    refine ⟨fun ⟨failed, hmem⟩ => ⟨failed, by simp [hmem]⟩, ?_⟩
    rintro ⟨failed, hmem⟩
    rcases List.mem_append.1 hmem with hmem | hmem
    · exact ⟨failed, hmem⟩
    · exact absurd rfl ((hextra _ hmem).2 failed)

theorem QuitOnce.tells {ms : List Outgoing} (h : s.QuitOnce)
    (hlog : s'.log = s.log ++ if s.heard then ms.map .sent else [])
    (hquit : s'.quit = .never ↔ s.quit = .never) (hdone : s'.done = s.done) : s'.QuitOnce := by
  refine h.extend hlog hquit hdone ?_
  intro e he
  split at he
  · obtain ⟨m, -, rfl⟩ := List.mem_map.1 he
    exact ⟨rfl, by simp⟩
  · cases he

theorem QuitOnce.askToQuit (h : s.QuitOnce) (byShutdown : Bool) :
    (s.askToQuit byShutdown).QuitOnce := by
  by_cases hquit : s.quit = .never
  · have hzero : s.log.countP Effect.isQuit = 0 := by rw [h.count, if_pos hquit]
    rw [askToQuit_never hquit]
    refine ⟨?_, ?_, ?_⟩
    · simp [emit, hzero, Effect.isQuit]
    · intro before failed after heq
      rcases done_of_append heq with ⟨rest, hleft⟩ | ⟨front, -, hright⟩
      · -- A server that is done has asked before, and this one has not.
        have hone := h.first before failed rest hleft
        rw [hleft, List.countP_append] at hzero
        omega
      · cases front <;> simp at hright
    · refine h.told.trans ?_
      constructor
      · rintro ⟨failed, hmem⟩
        exact ⟨failed, by simp [emit, hmem]⟩
      · rintro ⟨failed, hmem⟩
        exact ⟨failed, by simpa [emit] using hmem⟩
  · rwa [askToQuit_of_ne hquit]

theorem QuitOnce.finished (h : s.QuitOnce) (hquit : s.quit = .finished) (failed : Bool) :
    ({ s with done := true }.emit (.done failed)).QuitOnce := by
  have hone : s.log.countP Effect.isQuit = 1 := by
    rw [h.count, if_neg (by simp [hquit])]
  refine ⟨?_, ?_, ?_⟩
  · simp [emit, hone, hquit, Effect.isQuit]
  · intro before failed' after heq
    rcases done_of_append heq with ⟨rest, hleft⟩ | ⟨front, hleft, hright⟩
    · exact h.first before failed' rest hleft
    · have hnil : front = [] := by cases front <;> simp_all
      rw [hleft, hnil, List.append_nil]
      exact hone
  · simp [emit]

theorem QuitOnce.begins (h : s.QuitOnce) (hbegins : s.Begins r s') : s'.QuitOnce := by
  cases hbegins with
  | atOnce ms => exact h.tells rfl .rfl rfl
  | asks command t =>
      refine h.extend rfl .rfl rfl ?_
      intro e he
      rw [List.mem_singleton.1 he]
      exact ⟨rfl, by simp⟩
  | quiet => exact h.tells rfl .rfl rfl
  | waits =>
      obtain ⟨hcount, hfirst, htold⟩ :=
        QuitOnce.askToQuit (s := { s with shuttingDown := true }) ⟨h.count, h.first, h.told⟩ true
      exact ⟨hcount, hfirst, htold⟩

/-- **What a move does to quits.** -/
theorem QuitOnce.move (h : s.QuitOnce) (hmove : s.Move s') : s'.QuitOnce := by
  cases hmove with
  | @begins r rest =>
      have hsame : QuitOnce { s with queue := rest } := ⟨h.count, h.first, h.told⟩
      exact hsame.begins (start_begins _ r)
  | @concludes t answer =>
      obtain ⟨store, ms, hconclude⟩ := conclude_tells { s with task := none } t answer
      rw [hconclude]
      exact h.tells rfl .rfl rfl
  | quits hquit => exact h.extend (List.append_nil _).symm (by simp [hquit]) rfl (by simp)
  | closes why =>
      exact QuitOnce.askToQuit (s := { s with closing := some why }) ⟨h.count, h.first, h.told⟩ _
  | finishes _ hquit => exact h.finished hquit _
  | exits id =>
      rw [reply_eq_tells]
      exact h.tells rfl .rfl rfl
  | cancels | deafens | passes => exact ⟨h.count, h.first, h.told⟩

/-! ### Commands and refusals -/

/-- **What the log says about the requests that were handled**, the one under way included. -/
structure Gated (s : Server) (handled : List Request) : Prop where
  /-- The server is shutting down once a shutdown was handled. -/
  down : s.shuttingDown = handled.any (·.isShutdown)
  /-- The commands are those of the requests before the first shutdown. -/
  commands : s.log.filterMap Effect.command? =
    (beforeShutdown handled).filterMap Request.command?
  /-- The questions from then on are refused. -/
  refused : s.heard = true →
    ((fromShutdown handled).filterMap Request.lateRefusal?).Sublist
      (s.log.filterMap Effect.message?)

/-- Messages and the like do not matter to commands and refusals. -/
theorem Gated.extend {extra : List Effect} (h : s.Gated handled) (hlog : s'.log = s.log ++ extra)
    (hdown : s'.shuttingDown = s.shuttingDown) (hheard : s'.heard = true → s.heard = true)
    (hextra : extra.filterMap Effect.command? = []) : s'.Gated handled := by
  refine ⟨hdown.trans h.down, ?_, ?_⟩
  · rw [hlog, List.filterMap_append, hextra, List.append_nil]
    exact h.commands
  · intro hheard'
    rw [hlog, List.filterMap_append]
    exact (h.refused (hheard hheard')).trans (List.sublist_append_left _ _)

theorem Gated.tells {ms : List Outgoing} (h : s.Gated handled)
    (hlog : s'.log = s.log ++ if s.heard then ms.map .sent else [])
    (hdown : s'.shuttingDown = s.shuttingDown) (hheard : s'.heard = s.heard) :
    s'.Gated handled := by
  refine h.extend hlog hdown (fun h' => hheard ▸ h') ?_
  split <;> simp [List.filterMap_eq_nil_iff, Effect.command?]

theorem Gated.askToQuit (h : s.Gated handled) (byShutdown : Bool) :
    (s.askToQuit byShutdown).Gated handled := by
  by_cases hquit : s.quit = .never
  · rw [askToQuit_never hquit]
    exact h.extend rfl rfl id rfl
  · rwa [askToQuit_of_ne hquit]

/-- A shutdown sets the mark, and changes neither commands nor refusals. -/
theorem Gated.shutdown (h : s.Gated handled) (hr : r.isShutdown = true) :
    Gated { s with shuttingDown := true } (handled ++ [r]) := by
  have hnone : r.lateRefusal? = none := by
    simp [Request.lateRefusal?, Request.not_isQuestion_of_isShutdown hr]
  refine ⟨by simp [hr], ?_, ?_⟩
  · rw [beforeShutdown_concat (.inr hr)]
    exact h.commands
  · intro hheard
    rw [fromShutdown_concat (.inr hr)]
    simpa [hnone] using h.refused hheard

/-- **One more request is handled.** -/
theorem Gated.begins (h : s.Gated handled) (hbegins : s.Begins r s') :
    s'.Gated (handled ++ [r]) := by
  cases hbegins with
  | atOnce ms hshutdown hfree hreply hrefused =>
      cases hdown : s.shuttingDown with
      | true =>
          have hany : handled.any (·.isShutdown) = true := h.down ▸ hdown
          refine ⟨by simp [concludes, Server.tells, hdown, hany], ?_, ?_⟩
          · rw [beforeShutdown_concat (.inl hany)]
            exact (tells_commands _ _).trans h.commands
          · intro hheard
            have hbefore : s.heard = true := hheard
            rw [fromShutdown_concat (.inl hany), concludes, List.filterMap_append,
              tells_messages (by exact hbefore)]
            refine (h.refused hbefore).append (.trans ?_ (List.sublist_append_right _ ms))
            cases hquestion : r.isQuestion with
            | true =>
                rw [hrefused hdown hquestion]
                cases hid : r.id <;> simp [Request.lateRefusal?, hquestion, hid]
            | false => simp [Request.lateRefusal?, hquestion]
      | false =>
          have hany : (handled ++ [r]).any (·.isShutdown) = false := by
            simp [← h.down, hdown, hshutdown]
          have hnone : r.command? = none := by
            rcases hfree with hfree | hfree
            · rw [hdown] at hfree
              cases hfree
            · exact hfree
          refine ⟨by rw [hany]; exact hdown, ?_, ?_⟩
          · have hbefore := h.commands
            rw [beforeShutdown_of_open (by rw [← h.down, hdown])] at hbefore
            rw [beforeShutdown_of_open hany, concludes, tells_commands]
            simpa [hnone] using hbefore
          · intro hheard
            rw [fromShutdown_of_open hany]
            exact List.nil_sublist _
  | asks command t hshutdown hopen hcommand =>
      have hany : (handled ++ [r]).any (·.isShutdown) = false := by
        simp [← h.down, hopen, hshutdown]
      refine ⟨by rw [hany]; exact hopen, ?_, ?_⟩
      · have hbefore := h.commands
        rw [beforeShutdown_of_open (by rw [← h.down, hopen])] at hbefore
        rw [beforeShutdown_of_open hany]
        simp [emit, hbefore, hcommand, Effect.command?]
      · intro hheard
        rw [fromShutdown_of_open hany]
        exact List.nil_sublist _
  | quiet hshutdown => exact (h.shutdown hshutdown).tells rfl rfl rfl
  | waits hshutdown =>
      obtain ⟨hdown, hcommands, hrefused⟩ := (h.shutdown hshutdown).askToQuit true
      exact ⟨hdown, hcommands, hrefused⟩

/-- **What a move does to commands and refusals**: the requests received so far are those handled
and those in the queue. -/
theorem Gated.move (h : ∃ handled, rs = handled ++ s.queue ∧ s.Gated handled) (hmove : s.Move s') :
    ∃ handled, rs = handled ++ s'.queue ∧ s'.Gated handled := by
  obtain ⟨handled, hqueue, h⟩ := h
  cases hmove with
  | @begins r rest htask hnext =>
      have hsame : Gated { s with queue := rest } handled := ⟨h.down, h.commands, h.refused⟩
      refine ⟨handled ++ [r], ?_, hsame.begins (start_begins _ r)⟩
      rw [start_queue]
      simp [hqueue, hnext]
  | @concludes t answer =>
      obtain ⟨store, ms, hconclude⟩ := conclude_tells { s with task := none } t answer
      rw [hconclude]
      exact ⟨handled, hqueue, h.tells rfl rfl rfl⟩
  | quits => exact ⟨handled, hqueue, h.down, h.commands, h.refused⟩
  | closes why =>
      have hsame : Gated { s with closing := some why } handled := ⟨h.down, h.commands, h.refused⟩
      refine ⟨handled, ?_, hsame.askToQuit false⟩
      have hkept := congrArg Server.queue
        (askToQuit_queue { s with closing := some why } false s.queue)
      exact hqueue.trans (congrArg (handled ++ ·) hkept.symm)
  | finishes => exact ⟨handled, hqueue, h.extend rfl rfl id rfl⟩
  | exits id =>
      rw [reply_eq_tells]
      exact ⟨handled, hqueue, h.tells rfl rfl rfl⟩
  | cancels | deafens => exact ⟨handled, hqueue, h.down, h.commands, by simp⟩
  | passes => exact ⟨handled, hqueue, h.down, h.commands, h.refused⟩

/-- **The compiler is asked to quit once, and a shutdown closes the way to it.**  Take any run of a
server, with any requests, answers and hangs of the compiler, and ends of any kind.  The quit is
asked for at most once, and once and no more when the server is done.  Of the requests received,
those that are not in the queue were handled, in order; the commands given to the compiler are
exactly those that the requests before the first shutdown need, so no question and no document that
was opened or saved makes for a command from then on; and as long as the server is heard, every
question from then on that wants a reply is refused as an invalid request. -/
theorem shutdown_gates_and_quits_once (options : Options) (events : List Event) :
    let s := run { options } events
    s.log.countP Effect.isQuit ≤ 1 ∧
    (s.done = true ↔ ∃ failed, Effect.done failed ∈ s.log) ∧
    (∀ before failed after, s.log = before ++ .done failed :: after →
      before.countP Effect.isQuit = 1 ∧ after.countP Effect.isQuit = 0) ∧
    ∃ handled, received events = handled ++ s.queue ∧
      s.log.filterMap Effect.command? = (beforeShutdown handled).filterMap Request.command? ∧
      (s.heard = true →
        ((fromShutdown handled).filterMap Request.lateRefusal?).Sublist
          (s.log.filterMap Effect.message?)) ∧
      Fault.shuttingDown.code = -32600 := by
  intro s
  have honce : s.QuitOnce :=
    run_induction (P := fun _ s => s.QuitOnce) ⟨rfl, by simp, by simp⟩
      (fun _ _ _ h => ⟨h.count, h.first, h.told⟩) (fun _ _ _ h hmove => h.move hmove) events
  have hgated : ∃ handled, received events = handled ++ s.queue ∧ s.Gated handled := by
    refine run_induction (P := fun rs s => ∃ handled, rs = handled ++ s.queue ∧ s.Gated handled)
      ⟨[], rfl, rfl, rfl, fun _ => List.nil_sublist _⟩ ?_ (fun _ _ _ h hmove => Gated.move h hmove)
      events
    rintro rs s more ⟨handled, hqueue, h⟩
    exact ⟨handled, by simp [hqueue], h.down, h.commands, h.refused⟩
  have hmost : s.log.countP Effect.isQuit ≤ 1 := by
    rw [honce.count]
    split <;> omega
  refine ⟨hmost, honce.told, ?_, ?_⟩
  · intro before failed after heq
    have hone := honce.first before failed after heq
    rw [heq, List.countP_append, List.countP_cons] at hmost
    exact ⟨hone, by omega⟩
  · obtain ⟨handled, hqueue, h⟩ := hgated
    exact ⟨handled, hqueue, h.commands, h.refused, rfl⟩

end Server

end ReplBridge.Editor
