import Mathlib.Data.List.Induction
import Mathlib.Logic.Relation
import ReplBridge.Proofs.Editor.Handling

/-!
**Events as chains of moves.**

The queue of a server is worked off by a function of its own.  It is the same as to begin with the
first request of the queue as long as nothing is under way, so what beginning keeps, working off the
queue keeps.  With this every event comes apart into elementary moves, of which there are few: a
request begins or is concluded, the stream or the quit is over, the server is done, it is not heard
any more, time passes.  An invariant is shown for the arrival of a message and for each move, and
holds along every run.

Main definitions:

* `received` — the requests that events bring, in order;
* `Server.Idle` — nothing waits unless something is under way;
* `Server.Move`, `Server.Moves`, `Server.arrive` — the elementary moves, chains of them, and the
  arrival of a message.

Main results:

* `Server.goOn_of_none`, `Server.goOn_induction` — the queue is worked off request by request;
* `Server.step_moves` — **every event is a chain of moves**;
* `Server.run_closing` — the stream is over with the first event that closes it;
* `Server.run_induction` — **what arrivals and moves keep, a run keeps**.
-/

set_option autoImplicit false

namespace ReplBridge.Editor

/-! ### Events -/

namespace Event

/-- Why the stream is over with an event, if it is. -/
def closing? : Event → Option Closing
  | .garbage why => some (.garbage why)
  | .ended | .canceled => some .ended
  | _ => none

/-- Whether the stream is over with an event. -/
def closes (e : Event) : Bool := e.closing?.isSome

/-- The request that an event brings, unless it asks for the end. -/
def request? : Event → Option Request
  | .request r => if r.isExit then none else some r
  | _ => none

end Event

/-- **The requests that are received**, in order: those that arrive before the stream is over.  One
that asks for the end is not among them. -/
def received (events : List Event) : List Request :=
  (events.takeWhile (!·.closes)).filterMap Event.request?

theorem received_concat (events : List Event) (e : Event) :
    received (events ++ [e]) =
      received events ++ if events.any Event.closes then [] else e.request?.toList := by
  induction events with
  | nil =>
      cases e with
      | request r =>
          cases h : r.isExit <;> simp [received, Event.closes, Event.closing?, Event.request?, h]
      | _ => simp [received, Event.closes, Event.closing?, Event.request?]
  | cons first events ih =>
      cases hcloses : first.closes with
      | true => simp [received, hcloses]
      | false =>
          cases hrequest : first.request? <;>
            simpa [received, hcloses, hrequest] using ih

namespace Server

variable {s s' : Server}

/-! ### The queue -/

theorem askToQuit_queue (s : Server) (byShutdown : Bool) (q : List Request) :
    { s with queue := q }.askToQuit byShutdown = { s.askToQuit byShutdown with queue := q } := by
  by_cases h : s.quit = .never
  · rw [askToQuit_never h, askToQuit_never (s := { s with queue := q }) h]
    rfl
  · rw [askToQuit_of_ne h, askToQuit_of_ne (s := { s with queue := q }) h]

/-- How a request begins does not depend on those behind it. -/
theorem start_queue (s : Server) (r : Request) (q : List Request) :
    { s with queue := q }.start r = { s.start r with queue := q } := by
  have hdown := askToQuit_queue { s with shuttingDown := true } true q
  unfold start
  cases Method.ofName r.method with
  | introduce | initialized | didChange | exit => simp only [reply_eq_tells, tells]
  | unknown => simp only [refuse_eq_tells, tells]
  | shutdown =>
      simp only [reply_eq_tells, tells] at hdown ⊢
      simp only [hdown]
      split <;> rfl
  | ask q =>
      simp only [refuse_eq_tells, tells, ask, emit]
      split
      · rfl
      · split <;> rfl
  | didOpen | didSave =>
      simp only [refuse_eq_tells, reply_eq_tells, tells, ask, emit]
      split
      · split <;> rfl
      · rfl
  | didClose =>
      simp only [refuse_eq_tells, reply_eq_tells, publish_eq_tells, tells]
      split <;> rfl

theorem goOn_of_some {t : Task} (h : s.task = some t) : s.goOn = s := by
  unfold goOn
  cases hqueue : s.queue with
  | nil =>
      rw [handle, ← hqueue]
  | cons r rest =>
      have htask : ({ s with queue := [] } : Server).task.isSome = true := by simp [h]
      rw [handle, if_pos htask, List.nil_append, ← hqueue]

theorem goOn_of_nil (h : s.queue = []) : s.goOn = s := by
  unfold goOn
  rw [h, handle, ← h]

/-- **The queue is worked off request by request.** -/
theorem goOn_of_none {r : Request} {rest : List Request} (htask : s.task = none)
    (hqueue : s.queue = r :: rest) : s.goOn = ({ s with queue := rest }.start r).goOn := by
  have hfree : ¬ ({ s with queue := [] } : Server).task.isSome = true := by simp [htask]
  unfold goOn
  rw [hqueue, handle, if_neg hfree, start_queue s r rest, start_queue s r []]

/-- Nothing waits unless something is under way. -/
def Idle (s : Server) : Prop := s.task = none → s.queue = []

/-- What beginning with the next request keeps, working off the queue keeps, and the server is idle
then. -/
theorem goOn_idle_induction {P : Server → Prop}
    (hbegin : ∀ s r rest, P s → s.task = none → s.queue = r :: rest →
      P ({ s with queue := rest }.start r)) (h : P s) : P s.goOn ∧ s.goOn.Idle := by
  -- The queue gets shorter with each request that begins.
  generalize hlen : s.queue.length = n
  induction n generalizing s with
  | zero =>
      have hnil := List.length_eq_zero_iff.1 hlen
      rw [goOn_of_nil hnil]
      exact ⟨h, fun _ => hnil⟩
  | succ n ih =>
      cases htask : s.task with
      | some t =>
          rw [goOn_of_some htask]
          exact ⟨h, by simp [Idle, htask]⟩
      | none =>
          obtain ⟨r, rest, hqueue⟩ := List.exists_cons_of_length_eq_add_one hlen
          rw [goOn_of_none htask hqueue]
          refine ih (hbegin s r rest h htask hqueue) ?_
          rw [start_queue]
          simpa [hqueue] using hlen

/-- **What beginning with the next request keeps, working off the queue keeps.** -/
theorem goOn_induction {P : Server → Prop}
    (hbegin : ∀ s r rest, P s → s.task = none → s.queue = r :: rest →
      P ({ s with queue := rest }.start r)) (h : P s) : P s.goOn :=
  (goOn_idle_induction hbegin h).1

theorem goOn_idle (s : Server) : s.goOn.Idle :=
  (goOn_idle_induction (P := fun _ => True) (fun _ _ _ _ _ _ => trivial) trivial).2

theorem untouched_goOn (s : Server) : s.Untouched s.goOn := by
  refine goOn_induction (P := s.Untouched) ?_ (.refl s)
  intro s' r rest h htask hqueue
  have hstart := (start_begins { s' with queue := rest } r).untouched
  exact h.trans ⟨hstart.options, hstart.closing, hstart.exited, hstart.canceled, hstart.heard,
    hstart.done, hstart.now⟩

/-! ### Moves -/

/-- **The elementary moves of a server.** -/
inductive Move : Server → Server → Prop where
  | begins {s : Server} {r : Request} {rest : List Request} (htask : s.task = none)
      (hqueue : s.queue = r :: rest) : Move s ({ s with queue := rest }.start r)
  | concludes {s : Server} {t : Task} (answer : Except Repl.Failure Bytes)
      (htask : s.task = some t) : Move s ({ s with task := none }.conclude t answer)
  | quits {s : Server} {deadline : Nat} {byShutdown : Bool}
      (hquit : s.quit = .asked deadline byShutdown) : Move s { s with quit := .finished }
  | closes {s : Server} (why : Closing) (hopen : s.closing = none) :
      Move s ({ s with closing := some why }.askToQuit false)
  | finishes {s : Server} {why : Closing} (hclosing : s.closing = some why)
      (hquit : s.quit = .finished) (hdone : s.done = false) :
      Move s ({ s with done := true }.emit (.done s.failure?.isSome))
  | exits {s : Server} (id : Option Id) (hopen : s.closing = none) :
      Move s ({ s with exited := true }.reply id .null)
  | cancels {s : Server} : Move s { s with canceled := true, heard := false }
  | deafens {s : Server} : Move s { s with heard := false }
  | passes {s : Server} (time : Nat) : Move s { s with now := s.now + time }

/-- Chains of moves. -/
abbrev Moves : Server → Server → Prop := Relation.ReflTransGen Move

/-- A message arrives: it is queued, unless the stream is over or it asks for the end. -/
def arrive (s : Server) : Event → Server
  | .request r =>
    if s.closing.isNone && !r.isExit then { s with queue := s.queue ++ [r] } else s
  | _ => s

theorem goOn_moves (s : Server) : Moves s s.goOn :=
  goOn_induction (P := Moves s) (fun _ _ _ h htask hqueue => h.tail (.begins htask hqueue)) .refl

theorem finish_moves (s : Server) : Moves s s.finish := by
  unfold finish
  split
  · rename_i h
    simp only [Bool.and_eq_true, beq_iff_eq, Bool.not_eq_true', Option.isSome_iff_exists] at h
    obtain ⟨⟨⟨why, hclosing⟩, hquit⟩, hdone⟩ := h
    exact .single (.finishes hclosing hquit hdone)
  · exact .refl

theorem close_moves (s : Server) (why : Closing) : Moves s (s.close why) := by
  unfold close
  cases hclosing : s.closing with
  | some _ => exact .refl
  | none => exact .trans (.single (.closes why hclosing)) (finish_moves _)

theorem answered_moves (s : Server) (answer : Except Repl.Failure Bytes) :
    Moves s (s.answered answer) := by
  unfold answered
  split
  · rename_i id q htask
    exact .trans (.single (.concludes answer htask)) (goOn_moves _)
  · rename_i id uri htask
    exact .trans (.single (.concludes answer htask)) (goOn_moves _)
  · exact .refl

theorem quitOver_moves {deadline : Nat} {byShutdown : Bool}
    (h : s.quit = .asked deadline byShutdown) : Moves s s.quitOver := by
  refine .trans (.single (.quits h)) ?_
  unfold quitOver
  dsimp only
  split
  · rename_i id htask
    -- The answer to a shutdown is not looked at.
    refine .trans (.single (.concludes (.ok []) htask)) (goOn_moves _)
  · exact .refl

/-- A request that arrives is queued, and the queue is worked off. -/
theorem handle_singleton (h : s.Idle) (r : Request) :
    s.handle [r] = { s with queue := s.queue ++ [r] }.goOn := by
  rcases s.task.eq_none_or_eq_some with htask | ⟨t, htask⟩
  · have hnil : s.queue = [] := h htask
    have hsame : { s with queue := [] } = s := by rw [← hnil]
    have hstart : { { s with queue := s.queue ++ [r] } with queue := [] }.start r = s.start r :=
      congrArg (·.start r) hsame
    have hrest : (s.start r).queue = [] := by rw [← hsame, start_queue]
    have hqueue : { s with queue := s.queue ++ [r] }.queue = [r] := by simp [hnil]
    rw [goOn_of_none (s := { s with queue := s.queue ++ [r] }) htask hqueue, hstart,
      goOn_of_nil hrest, handle, if_neg (by simp [htask]), handle]
  · rw [goOn_of_some (s := { s with queue := s.queue ++ [r] }) htask, handle,
      if_pos (by simp [htask])]

theorem step_request (s : Server) (r : Request) :
    s.step (.request r) = if s.closing.isSome then s
      else if r.isExit then { s with exited := true }.reply r.id .null else s.handle [r] := rfl

/-- **Every event is a chain of moves**, after a message has arrived if it brings one. -/
theorem step_moves (h : s.Idle) (e : Event) : Moves (s.arrive e) (s.step e) := by
  cases e with
  | request r =>
      rw [step_request]
      rcases s.closing.eq_none_or_eq_some with hclosing | ⟨why, hclosing⟩
      · rw [if_neg (by simp [hclosing])]
        cases hexit : r.isExit with
        | true =>
            have harrive : s.arrive (.request r) = s := by simp [arrive, hexit]
            rw [harrive, if_pos rfl]
            exact .single (.exits r.id hclosing)
        | false =>
            have harrive : s.arrive (.request r) = { s with queue := s.queue ++ [r] } := by
              simp [arrive, hexit, hclosing]
            rw [harrive, if_neg (by simp), handle_singleton h]
            exact goOn_moves _
      · have harrive : s.arrive (.request r) = s := by simp [arrive, hclosing]
        rw [harrive, if_pos (by simp [hclosing])]
  | garbage why => exact close_moves s _
  | ended => exact close_moves s _
  | canceled =>
      show Moves s s.cancel
      refine .trans (.single .cancels) (.trans (answered_moves _ (.error (.plain .canceled))) ?_)
      unfold cancel
      dsimp only
      generalize { s with canceled := true, heard := false }.answered _ = after
      refine .trans ?_ (.trans (close_moves _ _) (finish_moves _))
      split
      · exact quitOver_moves ‹_›
      · exact .refl
  | writesBroken => exact .single .deafens
  | answered answer => exact answered_moves s answer
  | hasQuit =>
      simp only [step]
      split
      · exact .trans (quitOver_moves ‹_›) (finish_moves _)
      · exact .refl
  | pass time =>
      refine .trans (.single (.passes time)) ?_
      simp only [step, pass]
      split
      · split
        · exact .trans (quitOver_moves ‹_›) (finish_moves _)
        · exact .refl
      · exact .refl

theorem Move.options (h : s.Move s') : s'.options = s.options := by
  cases h with
  | begins => exact (start_begins _ _).untouched.options
  | concludes => exact (untouched_conclude _ _ _).options
  | closes => exact (untouched_askToQuit _ _).options
  | exits => rw [reply_eq_tells]; rfl
  | _ => rfl

/-! ### Idle servers -/

theorem idle_finish (h : s.Idle) : s.finish.Idle := by
  unfold finish
  split <;> exact h

theorem idle_close (h : s.Idle) (why : Closing) : (s.close why).Idle := by
  unfold close
  split
  · exact h
  · refine idle_finish ?_
    unfold askToQuit
    split <;> exact h

theorem idle_answered (h : s.Idle) (answer : Except Repl.Failure Bytes) :
    (s.answered answer).Idle := by
  unfold answered
  split
  · exact goOn_idle _
  · exact goOn_idle _
  · exact h

theorem idle_quitOver (h : s.Idle) : s.quitOver.Idle := by
  unfold quitOver
  dsimp only
  split
  · exact goOn_idle _
  · exact h

/-- **Between events nothing waits unless something is under way.** -/
theorem idle_step (h : s.Idle) (e : Event) : (s.step e).Idle := by
  cases e with
  | request r =>
      rw [step_request]
      split
      · exact h
      split
      · rw [reply_eq_tells]
        exact h
      · rw [handle_singleton h]
        exact goOn_idle _
  | garbage why => exact idle_close h _
  | ended => exact idle_close h _
  | canceled =>
      simp only [step, cancel]
      refine idle_finish (idle_close ?_ _)
      have hafter := idle_answered (s := { s with canceled := true, heard := false }) h
        (.error (.plain .canceled))
      split
      · exact idle_quitOver hafter
      · exact hafter
  | writesBroken => exact h
  | answered answer => exact idle_answered h answer
  | hasQuit =>
      simp only [step]
      split
      · exact idle_finish (idle_quitOver h)
      · exact h
  | pass time =>
      simp only [step, pass]
      split
      · split
        · exact idle_finish (idle_quitOver h)
        · exact h
      · exact h

/-! ### Runs -/

theorem untouched_answered (s : Server) (answer : Except Repl.Failure Bytes) :
    s.Untouched (s.answered answer) := by
  have hconclude (t : Task) :
      s.Untouched ({ s with task := none }.conclude t answer).goOn := by
    obtain ⟨h₁, h₂, h₃, h₄, h₅, h₆, h₇⟩ := untouched_conclude { s with task := none } t answer
    exact .trans ⟨h₁, h₂, h₃, h₄, h₅, h₆, h₇⟩ (untouched_goOn _)
  unfold answered
  split
  · exact hconclude _
  · exact hconclude _
  · exact .refl s

theorem untouched_quitOver (s : Server) : s.Untouched s.quitOver := by
  unfold quitOver
  dsimp only
  split
  · rw [reply_eq_tells]
    refine .trans ?_ (untouched_goOn _)
    exact ⟨rfl, rfl, rfl, rfl, rfl, rfl, rfl⟩
  · exact ⟨rfl, rfl, rfl, rfl, rfl, rfl, rfl⟩

theorem finish_closing (s : Server) : s.finish.closing = s.closing := by
  unfold finish
  split <;> rfl

theorem close_closing (s : Server) (why : Closing) :
    (s.close why).closing = s.closing.or (some why) := by
  unfold close
  rcases s.closing.eq_none_or_eq_some with hopen | ⟨first, hclosing⟩
  · rw [if_neg (by simp [hopen]), finish_closing, (untouched_askToQuit _ _).closing, hopen]
    rfl
  · rw [if_pos (by simp [hclosing]), hclosing]
    rfl

/-- **The stream is over with the first event that closes it.** -/
theorem step_closing (h : s.Idle) (e : Event) : (s.step e).closing = s.closing.or e.closing? := by
  cases e with
  | request r =>
      rw [step_request]
      split
      · simp [Event.closing?]
      split
      · rw [reply_eq_tells]
        simp [tells, Event.closing?]
      · rw [handle_singleton h, (untouched_goOn _).closing]
        simp [Event.closing?]
  | garbage why => exact close_closing s _
  | ended => exact close_closing s _
  | canceled =>
      simp only [step, cancel]
      rw [finish_closing, close_closing]
      split
      · rw [(untouched_quitOver _).closing, (untouched_answered _ _).closing]
        rfl
      · rw [(untouched_answered _ _).closing]
        rfl
  | writesBroken => simp [step, Event.closing?]
  | answered answer => simp [step, Event.closing?, (untouched_answered s answer).closing]
  | hasQuit =>
      simp only [step]
      split <;> simp [Event.closing?, finish_closing, (untouched_quitOver s).closing]
  | pass time =>
      simp only [step, pass]
      split
      · split
        · simp [Event.closing?, finish_closing,
            (untouched_quitOver { s with now := s.now + time }).closing]
        · simp [Event.closing?]
      · simp [Event.closing?]

theorem run_concat (s : Server) (events : List Event) (e : Event) :
    s.run (events ++ [e]) = (s.run events).step e := by
  simp [run]

theorem idle_run (options : Options) (events : List Event) : (run { options } events).Idle := by
  induction events using List.reverseRecOn with
  | nil => exact fun _ => rfl
  | append_singleton events e ih =>
      rw [run_concat]
      exact idle_step ih e

theorem run_closing (options : Options) (events : List Event) :
    (run { options } events).closing.isSome = events.any Event.closes := by
  induction events using List.reverseRecOn with
  | nil => rfl
  | append_singleton events e ih =>
      rw [run_concat, step_closing (idle_run options events), Option.isSome_or, ih]
      simp [Event.closes]

theorem arrive_eq (options : Options) (events : List Event) (e : Event) :
    ∃ more, received (events ++ [e]) = received events ++ more ∧
      (run { options } events).arrive e =
        { run { options } events with queue := (run { options } events).queue ++ more } := by
  have hclosing := run_closing options events
  generalize run { options } events = s at hclosing
  refine ⟨_, received_concat events e, ?_⟩
  rw [← hclosing]
  cases e with
  | request r =>
      cases hopen : s.closing <;> cases hexit : r.isExit <;>
        simp [arrive, hopen, hexit, Event.request?]
      all_goals rw [← hopen]
  | _ => simp [arrive, Event.request?]

/-- **What arrivals and moves keep, a run keeps.** -/
theorem run_induction {P : List Request → Server → Prop} {options : Options}
    (hnew : P [] { options })
    (harrive : ∀ rs s more, P rs s → P (rs ++ more) { s with queue := s.queue ++ more })
    (hmove : ∀ rs s s', P rs s → Move s s' → P rs s') (events : List Event) :
    P (received events) (run { options } events) := by
  induction events using List.reverseRecOn with
  | nil => exact hnew
  | append_singleton events e ih =>
      have hmoves := step_moves (idle_run options events) e
      obtain ⟨more, hreceived, harrived⟩ := arrive_eq options events e
      rw [run_concat, hreceived]
      rw [harrived] at hmoves
      generalize (run { options } events).step e = after at hmoves
      induction hmoves with
      | refl => exact harrive _ _ _ ih
      | tail _ hlast ih => exact hmove _ _ _ ih hlast

theorem run_options (options : Options) (events : List Event) :
    (run { options } events).options = options :=
  run_induction (P := fun _ s => s.options = options) rfl (fun _ _ _ h => h)
    (fun _ _ _ h hmove => hmove.options.trans h) events

end Server

end ReplBridge.Editor
