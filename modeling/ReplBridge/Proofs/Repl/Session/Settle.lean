import ReplBridge.Proofs.Repl.Framer
import ReplBridge.Proofs.Repl.Session.Acts
import ReplBridge.Proofs.Terminal.Sanitizer

/-!
**Sessions come to rest.**

Settling makes at most as many moves as `Session.work` says, and this bound is never what ends it:
every move leaves less to be done.  A worker that moves takes a call or a frame or comes closer to
its stop; a reader passes on at most the bytes that came in, and a byte ends at most one frame; a
client has fewer stages before it.

Main results:

* `Session.work_announce`, `Session.work_workerMove`, `Session.work_pumpMove`,
  `Session.work_complaintsMove`, `Session.work_clientStep` — what each party leaves to be done;
* `Session.work_move` — **every move leaves less to be done**;
* `Session.quiet_settle` — **settling leaves nothing that can move**.
-/

set_option autoImplicit false

namespace ReplBridge.Repl

namespace Session

variable {s s' : Session}

/-! ### What is left to be done -/

@[simp] theorem work_finish (s : Session) (call : Nat) (o : Outcome) :
    (s.finish call o).work = s.work := rfl

@[simp] theorem work_emit (s : Session) (e : Effect) : (s.emit e).work = s.work := rfl

@[simp] theorem work_recordFrame (s : Session) (seq : Nat) (text : Bytes) :
    (s.recordFrame seq text).work = s.work := rfl

@[simp] theorem work_childExits (s : Session) (status : Option Failure) :
    (s.childExits status).work = s.work := by
  unfold childExits
  split <;> rfl

@[simp] theorem work_kill (s : Session) : s.kill.work = s.work := by
  dsimp only [kill]
  split
  · split
    · rw [work_childExits]
      rfl
    · rfl
  · rfl

@[simp] theorem work_closeStdin (s : Session) : s.closeStdin.work = s.work := by
  dsimp only [closeStdin]
  split
  · split
    · rw [work_childExits]
      rfl
    · rfl
  · rfl

/-- A session that ends has no queue left to work off. -/
theorem work_terminate_le (s : Session) (r : Failure) : (s.terminate r).work ≤ s.work := by
  by_cases h : s.reason? = none
  · rw [terminate_open h]
    simp only [work, List.length_nil]
    omega
  · exact Nat.le_of_eq (congrArg work (terminate_over h r))

theorem work_worker (s : Session) (w : Worker) :
    ({ s with worker := w }).work + s.worker.rank = s.work + w.rank := by
  simp only [work]
  omega

theorem work_stop (s : Session) : s.stop.work + s.worker.rank = s.work := work_worker s .off

/-- A worker that ends the session and stops leaves less to be done. -/
theorem work_end_stop (s : Session) (r : Failure) :
    (s.terminate r).stop.work + s.worker.rank ≤ s.work := by
  have hstop := work_stop (s.terminate r)
  have hended := work_terminate_le s r
  rw [terminate_worker] at hstop
  omega

theorem work_dropOffer {frame : Bytes} (h : s.offered? = some frame) :
    s.dropOffer.work + 3 = s.work ∧ s.dropOffer.worker = s.worker := by
  obtain ⟨sanitizer, framer, offered, hpump⟩ := offered?_eq_some h
  rw [dropOffer_eq hpump]
  refine ⟨?_, rfl⟩
  simp only [work, hpump, Pump.rank, List.length_cons]
  omega

theorem work_greet {banner : Bytes} (hworker : s.worker = .greeting)
    (hoffer : s.offered? = some banner) : (s.greet banner).work < s.work := by
  obtain ⟨hdrop, hdropped⟩ := work_dropOffer hoffer
  have hrank : s.dropOffer.worker.rank = 3 := by rw [hdropped, hworker]; rfl
  dsimp only [greet]
  split
  · have hidle := work_worker (s.dropOffer.recordFrame 0 banner) .idle
    have hready : ({ s.dropOffer.recordFrame 0 banner with
        state := .ready, worker := .idle }).work + s.dropOffer.worker.rank =
          s.dropOffer.work + Worker.idle.rank := hidle
    simp only [Worker.rank] at hready
    rw [work_emit]
    omega
  · have hstop : (s.dropOffer.recordFrame 0 banner).stop.work + s.dropOffer.worker.rank =
        s.dropOffer.work := work_stop (s.dropOffer.recordFrame 0 banner)
    omega

theorem work_dispatch {call : Nat} {rest : List Nat} (hworker : s.worker = .idle)
    (hqueue : s.queue = call :: rest) : (s.dispatch call rest).work < s.work := by
  have hrank : s.worker.rank = 2 := by rw [hworker]; rfl
  have htaken : ({ s with queue := rest }).work + 4 = s.work := by
    simp only [work, hqueue, List.length_cons]
    omega
  dsimp only [dispatch]
  split
  · omega
  · rename_i c hc
    split
    · rw [work_finish]
      omega
    · split
      · have hwaits : ∀ w : Worker, w.rank ≤ 2 →
            ({ s with queue := rest, worker := w }).work < s.work := by
          intro w hw
          have hset : ({ s with queue := rest, worker := w }).work + s.worker.rank =
              ({ s with queue := rest }).work + w.rank := work_worker { s with queue := rest } w
          omega
        exact hwaits (.awaiting call (s.options.timeLimit.map (s.now + ·))) (by simp [Worker.rank])
      · rename_i cause hfail
        rw [kill_stop, work_kill]
        have hended := work_end_stop (({ s with queue := rest }.emit
          (.recorded .input c.seq c.command)).finish call
            (.failed (.ofTermination (.write cause)))) (.write cause)
        rw [work_finish, work_emit] at hended
        omega

theorem work_answer {frame : Bytes} (call : Nat) (hoffer : s.offered? = some frame) :
    (s.answer call frame).work < s.work := by
  obtain ⟨hdrop, -⟩ := work_dropOffer hoffer
  dsimp only [answer]
  split
  · have hstop := work_stop s.dropOffer
    omega
  · rename_i c hc
    split
    · have hended : (((s.dropOffer.recordFrame c.seq frame).terminate (.plain .quit)).finish call
          (.answered (classify frame))).stop.work + s.dropOffer.worker.rank ≤ s.dropOffer.work :=
        work_end_stop (s.dropOffer.recordFrame c.seq frame) (.plain .quit)
      omega
    · have hidle := work_worker ((s.dropOffer.recordFrame c.seq frame).finish call
        (.answered (classify frame))) .idle
      rw [work_finish, work_recordFrame] at hidle
      simp only [Worker.rank] at hidle
      omega

theorem work_lose {call : Nat} {deadline : Option Nat}
    (hworker : s.worker = .awaiting call deadline) (tail : Bytes) (status : Option Failure) :
    (s.lose call tail status).work < s.work := by
  have hrank : s.worker.rank = 1 := by rw [hworker]; rfl
  dsimp only [lose]
  split
  · have hstop := work_stop s
    omega
  · rename_i c hc
    split
    · have hended : (((s.recordFrame c.seq tail).terminate (.plain .quit)).finish call
          (.answered (classify tail))).stop.work + s.worker.rank ≤ s.work :=
        work_end_stop (s.recordFrame c.seq tail) (.plain .quit)
      omega
    · have hended : ((s.finish call (.failed (.ofTermination (.ofExit status)))).terminate
          (.ofExit status)).stop.work + s.worker.rank ≤ s.work :=
        work_end_stop (s.finish call (.failed (.ofTermination (.ofExit status)))) (.ofExit status)
      omega

/-- An end that was announced is not announced again. -/
theorem work_announce (h : s.announce? = some s') : s'.work < s.work := by
  obtain ⟨-, hdone, rfl⟩ := announce?_eq_some h
  simp [work, hdone]

/-- A worker that moves leaves less to be done. -/
theorem work_workerMove (h : s.workerMove? = some s') : s'.work < s.work := by
  have hstop := work_stop s
  have hwaits (hworker : s.worker = .idle ∨ s.worker = .greeting) : 0 < s.worker.rank := by
    rcases hworker with hworker | hworker <;> simp [hworker, Worker.rank]
  cases workerMove?_eq_some h with
  | stops hworker =>
      have hrank := hwaits hworker
      omega
  | @departs tail status hworker =>
      have hrank := hwaits hworker
      have hended := work_end_stop s (.ofExit status)
      omega
  | greets hworker _ hoffer => exact work_greet hworker hoffer
  | dispatches hworker hqueue => exact work_dispatch hworker hqueue
  | @fails call deadline r hworker =>
      have hrank : s.worker.rank = 1 := by rw [hworker]; rfl
      have hfailed : (s.finish call (.failed (.ofTermination r))).stop.work = s.stop.work := rfl
      omega
  | answers _ _ hoffer => exact work_answer _ hoffer
  | loses hworker => exact work_lose hworker _ _

/-- What comes in is passed on, byte for byte at most, or kept back. -/
theorem work_read {sanitizer : Terminal.Sanitizer} {framer : Framer} {chunk : Bytes}
    {rest : List Bytes} (hpump : s.pump = .reading sanitizer framer [])
    (hstdout : s.child.stdout = chunk :: rest) :
    ({ s with
      child := { s.child with stdout := rest }
      pump := .reading (sanitizer.write chunk).1 (framer.feed (sanitizer.write chunk).2).1
        (framer.feed (sanitizer.write chunk).2).2 }).work < s.work := by
  have hwrite := sanitizer.length_write_le chunk
  have hfeed := framer.length_feed_le (sanitizer.write chunk).2
  simp only [work, hpump, hstdout, Pump.rank, List.map_cons, total, List.foldr_cons,
    List.length_nil]
  omega

/-- A reader of standard output that moves leaves less to be done. -/
theorem work_pumpMove (h : s.pumpMove? = some s') : s'.work < s.work := by
  cases pumpMove?_eq_some h with
  | reads hpump hstdout => exact work_read hpump hstdout
  | drops hpump | drains hpump | departs hpump =>
      simp only [work, hpump, Pump.rank, List.length_cons, List.length_nil]
      omega

end Session

theorem Complaints.push_ended (c : Complaints) (b : UInt8) : (c.push b).1.ended = c.ended := by
  unfold Complaints.push
  split
  · rfl
  · split <;> rfl

theorem Complaints.read_ended (c : Complaints) (chunk : Bytes) :
    (c.read chunk).1.ended = c.ended := by
  have hfold : ∀ (shown : Bytes) (acc : Complaints × List Bytes),
      (shown.foldl (fun acc b => ((acc.1.push b).1, acc.2 ++ (acc.1.push b).2)) acc).1.ended =
        acc.1.ended := by
    intro shown
    induction shown with
    | nil => intro acc; rfl
    | cons b shown ih => intro acc; rw [List.foldl_cons, ih, push_ended]
  exact hfold _ _

namespace Session

variable {s s' : Session}

theorem work_hear {chunk : Bytes} {rest : List Bytes} {complaints : Complaints}
    (hstderr : s.child.stderr = chunk :: rest) (hended : complaints.ended = s.complaints.ended)
    (log : List Effect) :
    ({ s with child := { s.child with stderr := rest }, complaints, log }).work < s.work := by
  simp only [work, hstderr, hended, List.length_cons]
  omega

/-- A reader of standard error that moves leaves less to be done. -/
theorem work_complaintsMove (h : s.complaintsMove? = some s') : s'.work < s.work := by
  cases complaintsMove?_eq_some h with
  | @reads chunk _ _ hstderr => exact work_hear hstderr (s.complaints.read_ended chunk) _
  | ends hended => simp [work, hended]

theorem terminate_clients (s : Session) (r : Failure) : (s.terminate r).clients = s.clients := by
  by_cases h : s.reason? = none
  · rw [terminate_open h]
  · rw [terminate_over h]

/-- A quit that has its result has less before it. -/
theorem work_release (s : Session) (result : Option Failure) :
    (s.release result).1.work ≤ s.work ∧ (s.release result).1.clients = s.clients ∧
      (s.release result).2.rank < 2 := by
  unfold release
  split
  · exact ⟨work_terminate_le s _, terminate_clients s _, by simp [Client.rank]⟩
  · obtain ⟨child, heq, -⟩ := closeStdin_eq s
    exact ⟨Nat.le_of_eq (work_closeStdin s), by rw [heq], by simp [Client.rank]⟩

/-- A close that lets the subprocess go has only to wait. -/
theorem work_shut (s : Session) :
    s.shut.1.work = s.work ∧ s.shut.1.clients = s.clients ∧ s.shut.2.rank < 2 := by
  by_cases hlaunched : s.launched = none
  · rw [shut_of_none hlaunched]
    exact ⟨rfl, rfl, by simp [Client.rank]⟩
  · obtain ⟨child, heq, -⟩ := closeStdin_eq s
    obtain ⟨child', heq', -⟩ := kill_eq s.closeStdin
    rw [shut_of_launched hlaunched]
    exact ⟨by rw [work_kill, work_closeStdin], by rw [heq', heq], by simp [Client.rank]⟩

/-- A client that moves has less before it, and leaves the session no more to be done. -/
theorem work_clientStep {c c' : Client} (h : s.clientStep? c = some (s', c')) :
    s'.work ≤ s.work ∧ s'.clients = s.clients ∧ c'.rank < c.rank := by
  cases clientStep?_eq_some h with
  | returns | closed => exact ⟨Nat.le_refl _, rfl, by simp [Client.rank]⟩
  | leaves | released | reaped =>
      exact ⟨work_terminate_le s _, terminate_clients s _, by simp [Client.rank]⟩
  | releases => exact work_release s _
  | shuts =>
      obtain ⟨hwork, hclients, hrank⟩ := work_shut s
      exact ⟨Nat.le_of_eq hwork, hclients, hrank⟩

theorem total_cons (n : Nat) (ns : List Nat) : total (n :: ns) = n + total ns := rfl

theorem total_map_set {f : Client → Nat} {clients : List Client} {i : Nat} {c : Client}
    (h : clients[i]? = some c) (c' : Client) :
    total ((clients.set i c').map f) + f c = total (clients.map f) + f c' := by
  induction clients generalizing i with
  | nil => cases h
  | cons b clients ih =>
      cases i with
      | zero =>
          cases h
          simp only [List.set_cons_zero, List.map_cons, total_cons]
          omega
      | succ i =>
          have := ih h
          simp only [List.set_cons_succ, List.map_cons, total_cons]
          omega

theorem work_clients (s : Session) (clients : List Client) :
    ({ s with clients }).work + total (s.clients.map Client.rank) =
      s.work + total (clients.map Client.rank) := by
  simp only [work]
  omega

/-- **Every move leaves less to be done.** -/
theorem work_move (h : s.move? = some s') : s'.work < s.work := by
  rcases move?_cases h with hmove | hmove | hmove | hmove | ⟨i, c, t, c', hc, hstep, rfl⟩
  · exact work_announce hmove
  · exact work_workerMove hmove
  · exact work_pumpMove hmove
  · exact work_complaintsMove hmove
  · obtain ⟨hwork, hsame, hrank⟩ := work_clientStep hstep
    have hset := work_clients t (s.clients.set i c')
    have htotal := total_map_set (f := Client.rank) hc c'
    rw [hsame] at hset
    omega

/-! ### Settling -/

theorem quiet_settleWithin {fuel : Nat} (h : s.work ≤ fuel) :
    (settleWithin fuel s).move? = none := by
  induction fuel generalizing s with
  | zero =>
      cases hmove : s.move? with
      | none => simpa [settleWithin] using hmove
      | some s' =>
          have := work_move hmove
          omega
  | succ fuel ih =>
      cases hmove : s.move? with
      | none => simp [settleWithin, hmove]
      | some s' =>
          have hless := work_move hmove
          simpa [settleWithin, hmove] using ih (s := s') (by omega)

/-- **Settling leaves nothing that can move.** -/
theorem quiet_settle (s : Session) : s.settle.move? = none := quiet_settleWithin (Nat.le_refl _)

end Session

end ReplBridge.Repl
