import ReplBridge.Proofs.Editor.Moves

/-!
**Replies come in order, one for each request, after what the request makes known.**

The specification is a server without a queue: it takes one request, asks the compiler if the
request needs it, publishes what follows from the answer, replies, and only then looks at the next
request.  Such a turn is described by itself, from the store before it to the store after it.  The
server that runs does all this in pieces, with requests arriving in between; but as long as the
connection is open its log is that of whole turns in the order in which the requests arrived,
followed by the piece of a turn that still waits for the compiler.

Main definitions:

* `Turn`, `Turn.Takes` — a request with all that its handling does, and what makes it right;
* `Serves` — turns one after the other;
* `Request.Waits` — a turn that has begun and is held by the compiler;
* `Server.Stands`, `Server.InOrder` — how far a server has come with the requests it received.

Main results:

* `Server.InOrder.begins`, `Server.InOrder.answered`, `Server.InOrder.quitOver` — the pieces of a
  turn;
* `Server.InOrder.step` — an event that leaves the connection open;
* `Server.replies_in_order` — **the log is that of turns, in the order of the requests**.
-/

set_option autoImplicit false

namespace ReplBridge.Editor

open Protocol (Publication)

variable {rs : List Request} {answers : List (Except Repl.Failure Bytes)}

/-! ### Events that leave the connection open -/

namespace Event

/-- Whether an event leaves the connection open: a request arrives that does not ask for the end,
the compiler answers or has quit, or time passes. -/
def keepsOpen : Event → Bool
  | .request r => !r.isExit
  | .answered _ | .hasQuit | .pass _ => true
  | _ => false

/-- The answer of the compiler that an event brings. -/
def answer? : Event → Option (Except Repl.Failure Bytes)
  | .answered answer => some answer
  | _ => none

end Event

/-! ### Turns -/

/-- **A request with all that its handling does.** -/
structure Turn where
  request : Request
  asks : List Effect
  answer : Option (Except Repl.Failure Bytes)
  published : List Publication
  /-- The reply, last. -/
  response : List Outgoing

/-- What is done in a turn, in order. -/
def Turn.effects (turn : Turn) : List Effect :=
  turn.asks ++ (turn.published.map Outgoing.publication ++ turn.response).map .sent

/-- What the compiler is asked on behalf of a request, and whether it answers. -/
inductive Request.Asks (r : Request) : List Effect → Option (Except Repl.Failure Bytes) → Prop where
  | nothing : Asks r [] none
  | command {command : Bytes} (hcommand : r.command? = some command)
      (answer : Except Repl.Failure Bytes) : Asks r [.asked command] (some answer)
  | quit (hshutdown : r.isShutdown = true) : Asks r [.askedToQuit] none

/-- **What makes a turn right**: the publications are those that the request makes known given the
answer, and the reply carries the identifier of the request, or is none if it has none. -/
structure Turn.Takes (cwd : Bytes) (before : Document.Store) (turn : Turn)
    (after : Document.Store) : Prop where
  asked : turn.request.Asks turn.asks turn.answer
  known : turn.request.makesKnown cwd before turn.answer = (after, turn.published)
  replied : Server.IsReply turn.request.id turn.response

/-- **Turns one after the other**, each with the store that the one before it leaves. -/
inductive Serves (cwd : Bytes) (store : Document.Store) : List Turn → Document.Store → Prop where
  | nil : Serves cwd store [] store
  | concat {turns : List Turn} {turn : Turn} {before after : Document.Store}
      (hturns : Serves cwd store turns before) (hturn : turn.Takes cwd before after) :
      Serves cwd store (turns ++ [turn]) after

/-- **A turn that has begun and is held by the compiler**, which owes an answer to the command of
the request, or has been asked to quit and has not. -/
inductive Request.Waits (r : Request) (quit : Quit) : Task → List Effect → Prop where
  | answer {t : Task} {command : Bytes} (hawaits : r.Awaits t) (hshutdown : r.isShutdown = false)
      (hcommand : r.command? = some command) : Waits r quit t [.asked command]
  | quit {asks : List Effect} {deadline : Nat} {byShutdown : Bool}
      (hshutdown : r.isShutdown = true) (hquit : quit = .asked deadline byShutdown)
      (hasks : r.Asks asks none) : Waits r quit (.shutdown r.id) asks

theorem Request.makesKnown_of_isShutdown {r : Request} (h : r.isShutdown = true) (cwd : Bytes)
    (store : Document.Store) (answer : Option (Except Repl.Failure Bytes)) :
    r.makesKnown cwd store answer = (store, []) := by
  have hmethod : Method.ofName r.method = .shutdown := by simpa [Request.isShutdown] using h
  simp only [Request.makesKnown, hmethod]

theorem Request.Asks.silent {r : Request} {asks : List Effect}
    {answer : Option (Except Repl.Failure Bytes)} (h : r.Asks asks answer) :
    asks.filterMap Effect.message? = [] := by
  cases h <;> rfl

theorem Request.Waits.silent {r : Request} {quit : Quit} {t : Task} {asks : List Effect}
    (h : r.Waits quit t asks) : asks.filterMap Effect.message? = [] := by
  cases h with
  | answer => rfl
  | quit _ _ hasks => exact hasks.silent

theorem Serves.replies {cwd : Bytes} {store after : Document.Store} {turns : List Turn}
    (h : Serves cwd store turns after) :
    ((turns.flatMap Turn.effects).filterMap Effect.message?).filterMap Outgoing.replyTo? =
      turns.filterMap (·.request.id) := by
  induction h with
  | nil => rfl
  | @concat turns turn before after _ hturn ih =>
      have hsilent := hturn.asked.silent
      have hsent : ((turn.published.map Outgoing.publication ++ turn.response).map
          Effect.sent).filterMap Effect.message? =
          turn.published.map Outgoing.publication ++ turn.response := by
        simp [List.filterMap_map, Function.comp_def, Effect.message?]
      have hpublished :
          (turn.published.map Outgoing.publication).filterMap Outgoing.replyTo? = [] := by
        simp [List.filterMap_eq_nil_iff, Outgoing.replyTo?]
      have hresponse : turn.response.filterMap Outgoing.replyTo? = turn.request.id.toList := by
        have hmap := congrArg (List.filterMap id) hturn.replied
        cases hid : turn.request.id <;> simpa [hid] using hmap
      rw [List.flatMap_append, List.filterMap_append, List.filterMap_append, ih,
        List.filterMap_append]
      congr 1
      rw [List.flatMap_singleton, Turn.effects, List.filterMap_append, hsilent, hsent,
        List.nil_append, List.filterMap_append, hpublished, hresponse]
      cases hid : turn.request.id <;> simp [hid]

namespace Server

variable {s : Server}

/-! ### How far a server has come -/

/-- **How far a server has come with requests**: turns are over, and the log is theirs.  If nothing
is under way, the other requests are in the queue; and if something is, it is the request after the
turns, it is held by the compiler, and nothing was done for those behind it. -/
def Stands (s : Server) (turns : List Turn) (rs : List Request) : Prop :=
  match s.task with
  | none => rs = turns.map Turn.request ++ s.queue ∧ s.log = turns.flatMap Turn.effects
  | some t => ∃ r asks, rs = turns.map Turn.request ++ r :: s.queue ∧
      s.log = turns.flatMap Turn.effects ++ asks ∧ r.Waits s.quit t asks

theorem stands_of_none {turns : List Turn} (h : s.task = none) :
    s.Stands turns rs ↔
      rs = turns.map Turn.request ++ s.queue ∧ s.log = turns.flatMap Turn.effects := by
  simp only [Stands, h]

theorem stands_of_some {t : Task} {turns : List Turn} (h : s.task = some t) :
    s.Stands turns rs ↔ ∃ r asks, rs = turns.map Turn.request ++ r :: s.queue ∧
      s.log = turns.flatMap Turn.effects ++ asks ∧ r.Waits s.quit t asks := by
  simp only [Stands, h]

/-- **A server is in order** with the requests it received and the answers it was given. -/
structure InOrder (s : Server) (rs : List Request) (answers : List (Except Repl.Failure Bytes)) :
    Prop where
  /-- The stream is not over. -/
  unclosed : s.closing = none
  /-- What the server sends arrives. -/
  heard : s.heard = true
  stands : ∃ turns, Serves s.options.cwd {} turns s.store ∧
    (turns.filterMap Turn.answer).Sublist answers ∧ s.Stands turns rs

theorem InOrder.ofTurn {turns : List Turn} (turn : Turn) {before : Document.Store}
    (hopen : s.closing = none) (hheard : s.heard = true)
    (hturns : Serves s.options.cwd {} turns before)
    (hturn : turn.Takes s.options.cwd before s.store)
    (hanswers : (turns.filterMap Turn.answer ++ turn.answer.toList).Sublist answers)
    (htask : s.task = none) (hrs : rs = turns.map Turn.request ++ turn.request :: s.queue)
    (hlog : s.log = turns.flatMap Turn.effects ++ turn.effects) : s.InOrder rs answers := by
  refine ⟨hopen, hheard, turns ++ [turn], hturns.concat hturn, ?_, ?_⟩
  · cases hanswer : turn.answer <;> simpa [hanswer] using hanswers
  · rw [stands_of_none htask]
    exact ⟨by simp [hrs], by simp [hlog]⟩

theorem InOrder.arrive (h : s.InOrder rs answers) (r : Request) :
    InOrder { s with queue := s.queue ++ [r] } (rs ++ [r]) answers := by
  obtain ⟨hopen, hheard, turns, hturns, hanswers, hstands⟩ := h
  refine ⟨hopen, hheard, turns, hturns, hanswers, ?_⟩
  rcases s.task.eq_none_or_eq_some with htask | ⟨t, htask⟩
  · rw [stands_of_none htask] at hstands
    exact (stands_of_none (by exact htask)).2 ⟨by simp [hstands.1], hstands.2⟩
  · rw [stands_of_some htask] at hstands
    obtain ⟨first, asks, hrs, hlog, hwaits⟩ := hstands
    exact (stands_of_some (by exact htask)).2 ⟨first, asks, by simp [hrs], hlog, hwaits⟩

/-! ### The first piece of a turn -/

theorem askToQuit_waits (h : s.quit ≠ .finished) :
    ∃ asks deadline byShutdown, (asks = [] ∨ asks = [.askedToQuit]) ∧
      s.askToQuit true = { s with quit := .asked deadline byShutdown, log := s.log ++ asks } := by
  cases hquit : s.quit with
  | never =>
      rw [askToQuit_never hquit]
      exact ⟨[.askedToQuit], _, _, .inr rfl, rfl⟩
  | asked deadline byShutdown =>
      rw [askToQuit_of_ne (by simp [hquit])]
      exact ⟨[], deadline, byShutdown, .inl rfl, by rw [List.append_nil, ← hquit]⟩
  | finished => exact absurd hquit h

/-- **The next request begins.** -/
theorem InOrder.begins {r : Request} {rest : List Request} (h : s.InOrder rs answers)
    (htask : s.task = none) (hqueue : s.queue = r :: rest) :
    ({ s with queue := rest }.start r).InOrder rs answers := by
  obtain ⟨hopen, hheard, turns, hturns, hanswers, hstands⟩ := h
  rw [stands_of_none htask, hqueue] at hstands
  obtain ⟨hrs, hlog⟩ := hstands
  have hbegins := start_begins { s with queue := rest } r
  generalize { s with queue := rest }.start r = s' at hbegins
  cases hbegins with
  | atOnce ms _ _ hreply =>
      refine .ofTurn ⟨r, [], none, (r.makesKnown s.options.cwd s.store none).2, ms⟩ hopen
        hheard hturns ⟨.nothing, rfl, hreply⟩ (by simpa using hanswers) htask hrs ?_
      simp [concludes, tells, hheard, hlog, Turn.effects]
  | asks command t hshutdown _ hcommand hawaits =>
      exact ⟨hopen, hheard, turns, hturns, hanswers, (stands_of_some rfl).2
        ⟨r, [.asked command], hrs, by simp [emit, hlog], .answer hawaits hshutdown hcommand⟩⟩
  | quiet hshutdown =>
      refine .ofTurn ⟨r, [], none, [], r.id.toList.map (.result · .null)⟩ hopen hheard
        hturns ⟨.nothing, r.makesKnown_of_isShutdown hshutdown _ _ _, isReply_result _ _⟩
        (by simpa using hanswers) htask hrs ?_
      simp [tells, hheard, hlog, Turn.effects]
  | waits hshutdown hquit =>
      obtain ⟨asks, deadline, byShutdown, hasks, hasked⟩ :=
        askToQuit_waits (s := { s with queue := rest, shuttingDown := true }) hquit
      rw [hasked]
      have hasks : r.Asks asks none := by
        rcases hasks with rfl | rfl
        · exact .nothing
        · exact .quit hshutdown
      exact ⟨hopen, hheard, turns, hturns, hanswers, (stands_of_some rfl).2
        ⟨r, asks, hrs, congrArg (· ++ asks) hlog, .quit hshutdown rfl hasks⟩⟩

theorem InOrder.goOn (h : s.InOrder rs answers) : s.goOn.InOrder rs answers :=
  goOn_induction (P := fun s => s.InOrder rs answers)
    (fun _ _ _ h htask hqueue => h.begins htask hqueue) h

/-! ### The other pieces -/

/-- **The compiler answers.**  The answer is that to the command of the request under way; if none
waits for an answer, it is not looked at. -/
theorem InOrder.answered (h : s.InOrder rs answers) (answer : Except Repl.Failure Bytes) :
    (s.answered answer).InOrder rs (answers ++ [answer]) := by
  obtain ⟨hopen, hheard, turns, hturns, hanswers, hstands⟩ := h
  have hmore := hanswers.append_right [answer]
  have hconclude {t : Task} (htask : s.task = some t) (hkind : ∀ id, t ≠ .shutdown id) :
      ({ s with task := none }.conclude t answer).goOn.InOrder rs (answers ++ [answer]) := by
    obtain ⟨r, asks, hrs, hlog, hwaits⟩ := (stands_of_some htask).1 hstands
    cases hwaits with
    | quit => exact absurd rfl (hkind r.id)
    | @answer _ command hawaits _ hcommand =>
        obtain ⟨ms, hreply, hconclude⟩ := conclude_awaits hawaits { s with task := none } answer
        rw [hconclude]
        refine InOrder.goOn (.ofTurn
          ⟨r, [.asked command], some answer,
            (r.makesKnown s.options.cwd s.store (some answer)).2, ms⟩
          hopen hheard hturns ⟨.command hcommand answer, rfl, hreply⟩ hmore rfl hrs ?_)
        simp [concludes, tells, hheard, hlog, Turn.effects]
  unfold Server.answered
  split
  · exact hconclude ‹_› (by simp)
  · exact hconclude ‹_› (by simp)
  · exact ⟨hopen, hheard, turns, hturns, hanswers.trans (List.sublist_append_left _ _), hstands⟩

/-- **The quit is over**, which a shutdown may have waited for. -/
theorem InOrder.quitOver (h : s.InOrder rs answers) : s.quitOver.InOrder rs answers := by
  obtain ⟨hopen, hheard, turns, hturns, hanswers, hstands⟩ := h
  rcases s.task.eq_none_or_eq_some with htask | ⟨t, htask⟩
  · have hquitOver : s.quitOver = { s with quit := .finished } := by simp [Server.quitOver, htask]
    rw [hquitOver]
    rw [stands_of_none htask] at hstands
    exact ⟨hopen, hheard, turns, hturns, hanswers, (stands_of_none (by exact htask)).2 hstands⟩
  · obtain ⟨r, asks, hrs, hlog, hwaits⟩ := (stands_of_some htask).1 hstands
    cases hwaits with
    | @answer _ command hawaits hshutdown hcommand =>
        have hquitOver : s.quitOver = { s with quit := .finished } := by
          cases hawaits with
          | question | validation => simp [Server.quitOver, htask]
          | shutdown hmethod => simp [Request.isShutdown, hmethod] at hshutdown
        rw [hquitOver]
        exact ⟨hopen, hheard, turns, hturns, hanswers, (stands_of_some (by exact htask)).2
          ⟨r, _, hrs, hlog, .answer hawaits hshutdown hcommand⟩⟩
    | quit hshutdown hquit hasks =>
        have hquitOver : s.quitOver = ({ s with quit := .finished, task := none }.tells
            (r.id.toList.map (.result · .null))).goOn := by
          simp [Server.quitOver, htask, reply_eq_tells]
        rw [hquitOver]
        refine InOrder.goOn (.ofTurn
          ⟨r, asks, none, [], r.id.toList.map (.result · .null)⟩ hopen hheard hturns
          ⟨hasks, r.makesKnown_of_isShutdown hshutdown _ _ _, isReply_result _ _⟩
          (by simpa using hanswers) rfl hrs ?_)
        simp [tells, hheard, hlog, Turn.effects]

theorem InOrder.finish (h : s.InOrder rs answers) : s.finish.InOrder rs answers := by
  simpa [Server.finish, h.unclosed] using h

/-- **An event that leaves the connection open.** -/
theorem InOrder.step (h : s.InOrder rs answers) (hidle : s.Idle) {e : Event}
    (hopen : e.keepsOpen = true) :
    (s.step e).InOrder (rs ++ e.request?.toList) (answers ++ e.answer?.toList) := by
  cases e with
  | request r =>
      have hexit : r.isExit = false := by simpa [Event.keepsOpen] using hopen
      rw [step_request, if_neg (by simp [h.unclosed]), if_neg (by simp [hexit]),
        handle_singleton hidle]
      simpa [Event.request?, Event.answer?, hexit] using (h.arrive r).goOn
  | answered answer => simpa [Event.request?, Event.answer?, Server.step] using h.answered answer
  | hasQuit =>
      have hfinish := h.quitOver.finish
      simp only [Event.request?, Event.answer?, Option.toList_none, List.append_nil, Server.step]
      split <;> assumption
  | pass time =>
      have hpassed : InOrder { s with now := s.now + time } rs answers :=
        ⟨h.unclosed, h.heard, h.stands⟩
      have hfinish := hpassed.quitOver.finish
      simp only [Event.request?, Event.answer?, Option.toList_none, List.append_nil, Server.step,
        Server.pass]
      split
      · split <;> assumption
      · assumption
  | garbage | ended | canceled | writesBroken => simp [Event.keepsOpen] at hopen

theorem inOrder_run (options : Options) {events : List Event}
    (hopen : ∀ e ∈ events, e.keepsOpen = true) :
    (run { options } events).InOrder (events.filterMap Event.request?)
      (events.filterMap Event.answer?) := by
  induction events using List.reverseRecOn with
  | nil =>
      exact ⟨rfl, rfl, [], .nil, List.nil_sublist _, (stands_of_none rfl).2 ⟨rfl, rfl⟩⟩
  | append_singleton events e ih =>
      have hbefore := ih fun e he => hopen e (List.mem_append_left _ he)
      have hstep := hbefore.step (idle_run options events) (hopen e (by simp))
      rw [run_concat, List.filterMap_append, List.filterMap_append]
      cases hrequest : e.request? <;> cases hanswer : e.answer? <;>
        simpa [hrequest, hanswer] using hstep

/-- **Replies come in order, one for each request, after what the request makes known.**  Take any
run in which the connection stays open: requests other than the one that asks for the end arrive at
any time, and the compiler answers, fails, quits or hangs in any way.  The log is that of whole
turns: in each the compiler is asked what the request needs, then all that the request makes known
is published, and then the request is replied to, once if it wants a reply and else not at all.  The
turns are those of the requests in the order in which they arrived.  If nothing is under way, all
requests have had their turn; and if something is, the compiler owes an answer or has yet to quit,
and nothing of any later request has been looked at. -/
theorem replies_in_order (options : Options) (events : List Event)
    (hopen : ∀ e ∈ events, e.keepsOpen = true) :
    let s := run { options } events
    ∃ turns : List Turn,
      Serves options.cwd {} turns s.store ∧
      (turns.filterMap Turn.answer).Sublist (events.filterMap Event.answer?) ∧
      (s.log.filterMap Effect.message?).filterMap Outgoing.replyTo? =
        turns.filterMap (·.request.id) ∧
      match s.task with
      | none =>
        events.filterMap Event.request? = turns.map Turn.request ∧
          s.log = turns.flatMap Turn.effects
      | some t => ∃ r asks,
        events.filterMap Event.request? = turns.map Turn.request ++ r :: s.queue ∧
          s.log = turns.flatMap Turn.effects ++ asks ∧ r.Waits s.quit t asks := by
  intro s
  obtain ⟨-, -, turns, hturns, hanswers, hstands⟩ := inOrder_run options hopen
  rw [run_options] at hturns
  refine ⟨turns, hturns, hanswers, ?_⟩
  rw [← hturns.replies]
  rcases s.task.eq_none_or_eq_some with htask | ⟨t, htask⟩
  · obtain ⟨hrs, hlog⟩ := (stands_of_none htask).1 hstands
    rw [idle_run options events htask, List.append_nil] at hrs
    simp only [htask]
    exact ⟨by rw [hlog], hrs, hlog⟩
  · obtain ⟨r, asks, hrs, hlog, hwaits⟩ := (stands_of_some htask).1 hstands
    simp only [htask]
    refine ⟨?_, r, asks, hrs, hlog, hwaits⟩
    rw [hlog, List.filterMap_append, hwaits.silent, List.append_nil]

/-- It happens: a notification and a request wait behind a shutdown, and the compiler quits. -/
theorem replies_in_order_behind_shutdown : let events : List Event :=
      [.request { id := some (.number 1), method := utf8 "shutdown" },
        .request { method := utf8 "textDocument/didChange" },
        .request { id := some (.name [97]), method := utf8 "initialized" }, .hasQuit]
    let s := run {} events
    (∀ e ∈ events, e.keepsOpen = true) ∧ s.task = none ∧
      (s.log.filterMap Effect.message?).filterMap Outgoing.replyTo? = [.number 1, .name [97]] := by
  intro events s
  have hopen : ∀ e ∈ events, e.keepsOpen = true := by decide
  have htask : (run {} events).task = none := rfl
  obtain ⟨turns, -, -, hreplies, hover⟩ := replies_in_order {} events hopen
  simp only [htask] at hover
  refine ⟨hopen, htask, ?_⟩
  calc (s.log.filterMap Effect.message?).filterMap Outgoing.replyTo?
      = turns.filterMap (·.request.id) := hreplies
    _ = (turns.map Turn.request).filterMap Request.id := by rw [List.filterMap_map]; rfl
    _ = (events.filterMap Event.request?).filterMap Request.id := by rw [hover.1]
    _ = [.number 1, .name [97]] := rfl

end Server

end ReplBridge.Editor
