import ReplBridge.Proofs.Repl.Session.Play

/-!
**What each party can do.**

The functions that move a session look at several parts of it at once.  Read the other way round,
each of them comes to a few moves, and each move has its condition.  What an act keeps is then shown
for these moves, one by one, and not again for the functions.

Main definitions:

* `Session.WorkerMove`, `Session.PumpMove`, `Session.ComplaintsMove`, `Session.ClientMove` — the
  moves of the parties;
* `Session.Performed` — what an act comes to.

Main results:

* `Session.performed` — **an act changes nothing, or it is an event, a move of one of the parties or
  the end of a time**;
* `Session.move?_cases` — what happens by itself is the announcement or a move.
-/

set_option autoImplicit false

namespace ReplBridge.Repl.Session

variable {s s' : Session}

/-! ### The parties -/

/-- **The moves of the worker.**  It stops, or ends the session and stops, when it hears of the end
of the session or of the subprocess; it takes the text before the first prompt, or the next call;
and the call in flight fails, is answered, or is lost with the subprocess. -/
inductive WorkerMove (s : Session) : Session → Prop where
  | stops {r : Failure} (hworker : s.worker = .idle ∨ s.worker = .greeting)
      (hknown : s.announced? = some r) : WorkerMove s s.stop
  | departs {tail : Bytes} {status : Option Failure}
      (hworker : s.worker = .idle ∨ s.worker = .greeting) (hpump : s.pump = .finished tail status) :
      WorkerMove s (s.terminate (.ofExit status)).stop
  | greets {banner : Bytes} (hworker : s.worker = .greeting) (hunknown : s.announced? = none)
      (hoffer : s.offered? = some banner) : WorkerMove s (s.greet banner)
  | dispatches {call : Nat} {rest : List Nat} (hworker : s.worker = .idle)
      (hqueue : s.queue = call :: rest) : WorkerMove s (s.dispatch call rest)
  | fails {call : Nat} {deadline : Option Nat} {r : Failure}
      (hworker : s.worker = .awaiting call deadline) (hknown : s.announced? = some r) :
      WorkerMove s (s.finish call (.failed (.ofTermination r))).stop
  | answers {call : Nat} {deadline : Option Nat} {frame : Bytes}
      (hworker : s.worker = .awaiting call deadline) (hunknown : s.announced? = none)
      (hoffer : s.offered? = some frame) : WorkerMove s (s.answer call frame)
  | loses {call : Nat} {deadline : Option Nat} {tail : Bytes} {status : Option Failure}
      (hworker : s.worker = .awaiting call deadline) (hunknown : s.announced? = none)
      (hpump : s.pump = .finished tail status) : WorkerMove s (s.lose call tail status)

theorem workerMove?_eq_some (h : s.workerMove? = some s') : s.WorkerMove s' := by
  cases hworker : s.worker with
  | off => simp [workerMove?, hworker] at h
  | greeting =>
      simp only [workerMove?, hworker] at h
      split at h <;> cases h
      · exact .stops (.inr hworker) ‹_›
      · exact .greets hworker ‹_› ‹_›
      · exact .departs (.inr hworker) ‹_›
  | idle =>
      simp only [workerMove?, hworker] at h
      split at h <;> cases h
      · exact .dispatches hworker ‹_›
      · exact .stops (.inl hworker) ‹_›
      · exact .departs (.inl hworker) ‹_›
  | awaiting call deadline =>
      simp only [workerMove?, hworker] at h
      split at h <;> cases h
      · exact .fails hworker ‹_›
      · exact .answers hworker ‹_› ‹_›
      · exact .loses hworker ‹_› ‹_›

/-- **The moves of the reader of standard output.**  It lets go of the frames it offers when the end
was announced; it reads on, and comes to the end of the output; and it hears that the subprocess is
gone. -/
inductive PumpMove (s : Session) : Session → Prop where
  | drops {sanitizer : Terminal.Sanitizer} {framer : Framer} {frame : Bytes} {offered : List Bytes}
      {r : Failure} (hpump : s.pump = .reading sanitizer framer (frame :: offered))
      (hknown : s.announced? = some r) :
      PumpMove s { s with pump := .reading sanitizer framer [] }
  | reads {sanitizer : Terminal.Sanitizer} {framer : Framer} {chunk : Bytes} {rest : List Bytes}
      (hpump : s.pump = .reading sanitizer framer []) (hstdout : s.child.stdout = chunk :: rest) :
      PumpMove s { s with
        child := { s.child with stdout := rest }
        pump := .reading (sanitizer.write chunk).1 (framer.feed (sanitizer.write chunk).2).1
          (framer.feed (sanitizer.write chunk).2).2 }
  | drains {sanitizer : Terminal.Sanitizer} {framer : Framer}
      (hpump : s.pump = .reading sanitizer framer []) (hstdout : s.child.stdout = [])
      (hended : s.child.stdoutEnded = true) :
      PumpMove s { s with pump := .drained (framer.feed sanitizer.flush).1.pending }
  | departs {tail : Bytes} {status : Option Failure} (hpump : s.pump = .drained tail)
      (hexit : s.child.exit = some status) : PumpMove s { s with pump := .finished tail status }

theorem pumpMove?_eq_some (h : s.pumpMove? = some s') : s.PumpMove s' := by
  unfold pumpMove? at h
  split at h
  · cases h
  · split at h <;> cases h
    exact .drops ‹_› ‹_›
  · split at h
    · cases h
      exact .reads ‹_› ‹_›
    · split at h <;> cases h
      exact .drains ‹_› ‹_› ‹_›
  · split at h <;> cases h
    exact .departs ‹_› ‹_›
  · cases h

/-- **The moves of the reader of standard error.**  It reads on, or comes to the end and passes the
line on that was begun. -/
inductive ComplaintsMove (s : Session) : Session → Prop where
  | reads {chunk : Bytes} {rest : List Bytes} (hended : s.complaints.ended = false)
      (hstderr : s.child.stderr = chunk :: rest) :
      ComplaintsMove s { s with
        child := { s.child with stderr := rest }
        complaints := (s.complaints.read chunk).1
        log := s.log ++ (s.complaints.read chunk).2.map .complained }
  | ends {status : Option Failure} (hended : s.complaints.ended = false)
      (hstderr : s.child.stderr = []) (hexit : s.child.exit = some status) :
      ComplaintsMove s { s with
        complaints := { s.complaints with ended := true, line := [] }
        log := s.log ++ if s.complaints.line.reverse.isEmpty then []
          else [.complained s.complaints.line.reverse] }

theorem complaintsMove?_eq_some (h : s.complaintsMove? = some s') : s.ComplaintsMove s' := by
  unfold complaintsMove? at h
  split at h
  · rw [← Option.some.inj h]
    exact .reads ‹_› ‹_›
  · cases h
    exact .ends ‹_› ‹_› ‹_›
  · cases h

/-- **The moves of a client**: the session and the client after it. -/
inductive ClientMove (s : Session) : Client → Session → Client → Prop where
  | returns {call : Nat} {deadline : Option Nat} {o : Outcome} (hdone : s.outcome? call = some o) :
      ClientMove s (.executing call deadline) s (.executed o)
  | leaves : ClientMove s .leaving (s.terminate (.plain .quit)) (.hasQuit none)
  | releases {call : Nat} {deadline : Option Nat} {o : Outcome}
      (hdone : s.outcome? call = some o) :
      ClientMove s (.quitting call deadline) (s.release o.failure?).1 (s.release o.failure?).2
  | released {result : Option Failure} {deadline : Nat} (hgone : s.childGone = true) :
      ClientMove s (.releasing result deadline) (s.terminate (.plain .quit)) (.hasQuit result)
  | reaped {result : Option Failure} (hgone : s.childGone = true) :
      ClientMove s (.reaping result) (s.terminate (.plain .quit)) (.hasQuit result)
  | shuts : ClientMove s .shutting s.shut.1 s.shut.2
  | closed {result : Option Failure} (hgone : s.childGone = true) :
      ClientMove s (.closing result) s (.hasClosed result)

theorem clientStep?_eq_some {c c' : Client} (h : s.clientStep? c = some (s', c')) :
    s.ClientMove c s' c' := by
  cases c with
  | executing call deadline =>
      obtain ⟨o, hdone, ho⟩ := Option.map_eq_some_iff.1 h
      cases ho
      exact .returns hdone
  | leaving =>
      cases h
      exact .leaves
  | quitting call deadline =>
      obtain ⟨o, hdone, ho⟩ := Option.map_eq_some_iff.1 h
      obtain ⟨rfl, rfl⟩ := Prod.mk.inj ho
      exact .releases hdone
  | releasing result deadline =>
      obtain ⟨hgone, heq⟩ := Option.ite_none_right_eq_some.1 h
      cases heq
      exact .released hgone
  | reaping result =>
      obtain ⟨hgone, heq⟩ := Option.ite_none_right_eq_some.1 h
      cases heq
      exact .reaped hgone
  | shutting =>
      obtain ⟨rfl, rfl⟩ := Prod.mk.inj (Option.some.inj h)
      exact .shuts
  | closing result =>
      obtain ⟨hgone, heq⟩ := Option.ite_none_right_eq_some.1 h
      cases heq
      exact .closed hgone
  | executed | hasQuit | hasClosed => cases h

/-- The first client that can move does so in its place. -/
theorem clientMoveFrom?_eq_some {before rest : List Client}
    (h : s.clientMoveFrom? before rest = some s') (hclients : s.clients = before.reverse ++ rest) :
    ∃ i c t c', s.clients[i]? = some c ∧ s.clientStep? c = some (t, c') ∧
      s' = { t with clients := s.clients.set i c' } := by
  induction rest generalizing before with
  | nil => cases h
  | cons c rest ih =>
      cases hstep : s.clientStep? c with
      | none =>
          simp only [clientMoveFrom?, hstep] at h
          exact ih h (by simp [hclients])
      | some p =>
          simp only [clientMoveFrom?, hstep, Option.some.injEq] at h
          refine ⟨before.length, c, p.1, p.2, by simp [hclients], hstep, ?_⟩
          rw [hclients, List.set_append_right _ _ (by simp), ← h]
          simp

/-- **What happens by itself is a move of one of the parties**, or the end is announced. -/
theorem move?_cases (h : s.move? = some s') :
    s.announce? = some s' ∨ s.workerMove? = some s' ∨ s.pumpMove? = some s' ∨
      s.complaintsMove? = some s' ∨ ∃ i c t c', s.clients[i]? = some c ∧
        s.clientStep? c = some (t, c') ∧ s' = { t with clients := s.clients.set i c' } := by
  unfold move? at h
  split at h
  · exact .inl (h ▸ ‹_›)
  · split at h
    · exact .inr (.inl (h ▸ ‹_›))
    · split at h
      · exact .inr (.inr (.inl (h ▸ ‹_›)))
      · split at h
        · exact .inr (.inr (.inr (.inl (h ▸ ‹_›))))
        · exact .inr (.inr (.inr (.inr (clientMoveFrom?_eq_some h rfl))))

/-! ### Acts -/

/-- **What an act comes to.**  Nothing, if its party cannot act; something happens from outside; the
end is announced; one of the parties moves; or a time is up. -/
inductive Performed (s : Session) : Act → Session → Prop where
  | nothing {a : Act} (ha : ∀ e, a ≠ .event e) : Performed s a s
  | event (e : Event) : Performed s (.event e) (s.perform (.event e))
  | announce {s' : Session} (hmove : s.announce? = some s') : Performed s .announce s'
  | worker {s' : Session} (hmove : s.workerMove? = some s') : Performed s .worker s'
  | pump {s' : Session} (hmove : s.pumpMove? = some s') : Performed s .pump s'
  | complaints {s' : Session} (hmove : s.complaintsMove? = some s') : Performed s .complaints s'
  | client {i : Nat} {c c' : Client} {s' : Session} (hc : s.clients[i]? = some c)
      (hstep : s.clientStep? c = some (s', c')) :
      Performed s (.client i) { s' with clients := s.clients.set i c' }
  | timer {call deadline : Nat} (hworker : s.worker = .awaiting call (some deadline))
      (hdue : deadline ≤ s.now) : Performed s .timer (s.expire call)
  | clientTimer {i deadline : Nat} {c : Client} (hc : s.clients[i]? = some c)
      (hdeadline : c.deadline? = some deadline) (hdue : deadline ≤ s.now) :
      Performed s (.clientTimer i)
        { (s.expireClient c).1 with clients := s.clients.set i (s.expireClient c).2 }

theorem reads_of_internal {a : Act} (ha : ∀ e, a ≠ .event e) : s.reads a = [] := by
  cases a with
  | event e => exact absurd rfl (ha e)
  | _ => rfl

/-- **Every act comes to one of these.** -/
theorem performed (s : Session) (a : Act) : s.Performed a (s.perform a) := by
  cases a with
  | event e => exact .event e
  | announce =>
      cases hmove : s.announce? with
      | none => simpa [perform, hmove] using Performed.nothing (by simp)
      | some s' => simpa [perform, hmove] using Performed.announce hmove
  | worker =>
      cases hmove : s.workerMove? with
      | none => simpa [perform, hmove] using Performed.nothing (by simp)
      | some s' => simpa [perform, hmove] using Performed.worker hmove
  | pump =>
      cases hmove : s.pumpMove? with
      | none => simpa [perform, hmove] using Performed.nothing (by simp)
      | some s' => simpa [perform, hmove] using Performed.pump hmove
  | complaints =>
      cases hmove : s.complaintsMove? with
      | none => simpa [perform, hmove] using Performed.nothing (by simp)
      | some s' => simpa [perform, hmove] using Performed.complaints hmove
  | client i =>
      simp only [perform, clientAct]
      split
      · exact .nothing (by simp)
      · split
        · exact .nothing (by simp)
        · exact .client ‹_› ‹_›
  | timer =>
      simp only [perform, timerAct]
      split
      · split
        · exact .timer ‹_› ‹_›
        · exact .nothing (by simp)
      · exact .nothing (by simp)
  | clientTimer i =>
      simp only [perform, clientTimerAct]
      split
      · exact .nothing (by simp)
      · split
        · exact .nothing (by simp)
        · split
          · exact .clientTimer ‹_› ‹_› ‹_›
          · exact .nothing (by simp)

end ReplBridge.Repl.Session
