import ReplBridge.Editor.Server

/-!
**How a request is handled.**

Read as straight-line code, handling a request is this: the compiler is asked if the request needs
it, what follows from the answer is published, and the request is replied to.  The server has no
straight line.  It begins with a request, leaves it under way while the compiler is busy, and
concludes it when the answer arrives, with other requests in a queue meanwhile.  Here the two halves
are put side by side: what a request needs and what it makes known are functions of the request, the
store and the answer alone, and each half of the handling is told in their terms.

Main definitions:

* `Request.command?`, `Request.makesKnown` — the command that a request needs, and what it causes to
  be published;
* `Request.Awaits` — the task as which a request waits for the compiler;
* `Server.tells`, `Server.concludes` — messages of a server, in order, as far as it is heard;
* `Server.Begins` — the ways in which the handling of a request begins;
* `Server.Untouched` — what handling leaves alone.

Main results:

* `Server.start_begins` — **how a request begins**;
* `Server.conclude_awaits` — **how a request is concluded**: what it makes known is published, and
  then it is replied to.
-/

set_option autoImplicit false

namespace ReplBridge.Editor

open Protocol (Publication)

variable {r : Request}

/-! ### What requests, messages and effects are about -/

/-- The request that a message replies to; a publication replies to none. -/
def Outgoing.replyTo? : Outgoing → Option Id
  | .publication _ => none
  | .result id _ => some id
  | .refusal id _ => some id

namespace Effect

/-- The command that is given to the compiler. -/
def command? : Effect → Option Bytes
  | .asked command => some command
  | _ => none

def message? : Effect → Option Outgoing
  | .sent m => some m
  | _ => none

/-- Whether the compiler is asked to quit. -/
def isQuit : Effect → Bool
  | .askedToQuit => true
  | _ => false

end Effect

namespace Request

/-- Whether a request asks the server to prepare for the end. -/
def isShutdown (r : Request) : Bool := Method.ofName r.method == .shutdown

/-- Whether a request asks for the end. -/
def isExit (r : Request) : Bool := Method.ofName r.method == .exit

/-- Whether a request is a question about a document. -/
def isQuestion (r : Request) : Bool :=
  match Method.ofName r.method with
  | .ask _ => true
  | _ => false

/-- The command that validates a document. -/
def validation (uri : Bytes) : Bytes := (Analysis.Query.validate (Uri.toPath uri)).command

/-- **The command that a request needs**, if its parameters are of the right shape: a question is
put to the compiler, and a document that was opened or saved is validated. -/
def command? (r : Request) : Option Bytes :=
  match Method.ofName r.method with
  | .ask q => (q.query? r.params).map (·.command)
  | .didOpen => (Server.documentOf .didOpen r).map validation
  | .didSave => (Server.documentOf .didSave r).map validation
  | _ => none

/-- **What a request makes known**, given what the compiler answered to its command, if it was
asked: the store after it, and the publications it causes. -/
def makesKnown (cwd : Bytes) (store : Document.Store) (r : Request)
    (answer : Option (Except Repl.Failure Bytes)) : Document.Store × List Publication :=
  let validated (m : Method) (text : Bytes) : Document.Store × List Publication :=
    match Server.documentOf m r with
    | some uri =>
      store.apply cwd (Analysis.publications (Analysis.validation cwd (Repl.classify text)))
        [Uri.normalize cwd uri]
    | none => (store, [])
  match Method.ofName r.method, answer with
  | .ask q, some (.ok text) => store.apply cwd (q.response cwd (Repl.classify text)).2 []
  | .didOpen, some (.ok text) => validated .didOpen text
  | .didSave, some (.ok text) => validated .didSave text
  | .didClose, _ =>
    match Server.documentOf .didClose r with
    | some uri =>
      match store.clear (Uri.normalize cwd uri) with
      | (store, out) => (store, [out])
    | none => (store, [])
  | _, _ => (store, [])

end Request

/-- **The task as which a request waits for the compiler.** -/
inductive Request.Awaits (r : Request) : Task → Prop where
  | question {q : Question} (hmethod : Method.ofName r.method = .ask q) :
      Awaits r (.question r.id q)
  | validation {uri : Bytes}
      (hmethod : Method.ofName r.method = .didOpen ∨ Method.ofName r.method = .didSave)
      (huri : Server.documentOf (Method.ofName r.method) r = some uri) :
      Awaits r (.validation r.id uri)
  | shutdown (hmethod : Method.ofName r.method = .shutdown) : Awaits r (.shutdown r.id)

namespace Server

variable {s s' : Server}

/-! ### Messages -/

/-- A server sends messages in order, unless it is not heard any more. -/
def tells (s : Server) (ms : List Outgoing) : Server :=
  { s with log := s.log ++ if s.heard then ms.map .sent else [] }

theorem tells_nil (s : Server) : s.tells [] = s := by
  cases s
  simp [tells]

theorem tells_tells (s : Server) (ms more : List Outgoing) :
    (s.tells ms).tells more = s.tells (ms ++ more) := by
  unfold tells
  dsimp only
  split <;> simp

theorem send_eq_tells (s : Server) (m : Outgoing) : s.send m = s.tells [m] := by
  unfold send tells emit
  split <;> simp

theorem publish_eq_tells (s : Server) (pubs : List Publication) :
    s.publish pubs = s.tells (pubs.map .publication) := by
  induction pubs generalizing s with
  | nil => exact (tells_nil s).symm
  | cons p pubs ih =>
      have hstep : s.publish (p :: pubs) = (s.send (.publication p)).publish pubs := rfl
      rw [hstep, ih, send_eq_tells, tells_tells]
      rfl

theorem reply_eq_tells (s : Server) (id : Option Id) (value : Json) :
    s.reply id value = s.tells (id.toList.map (.result · value)) := by
  cases id with
  | none => exact (tells_nil s).symm
  | some id => exact send_eq_tells s _

theorem refuse_eq_tells (s : Server) (id : Option Id) (fault : Fault) :
    s.refuse id fault = s.tells (id.toList.map (.refusal · fault)) := by
  cases id with
  | none => exact (tells_nil s).symm
  | some id => exact send_eq_tells s _

theorem applyAll_eq_tells (s : Server) (pubs : List Publication) (always : List Bytes) :
    s.applyAll pubs always =
      { s with store := (s.store.apply s.options.cwd pubs always).1 }.tells
        ((s.store.apply s.options.cwd pubs always).2.map .publication) :=
  publish_eq_tells _ _

/-- Messages are the whole reply to a request: one that carries its identifier back, or none if it
has none. -/
def IsReply (id : Option Id) (ms : List Outgoing) : Prop :=
  ms.map Outgoing.replyTo? = id.toList.map some

theorem isReply_result (id : Option Id) (value : Json) :
    IsReply id (id.toList.map (.result · value)) := by
  cases id <;> rfl

theorem isReply_refusal (id : Option Id) (fault : Fault) :
    IsReply id (id.toList.map (.refusal · fault)) := by
  cases id <;> rfl

/-- What a server makes known and then replies. -/
def concludes (s : Server) (known : Document.Store × List Publication) (ms : List Outgoing) :
    Server :=
  { s with store := known.1 }.tells (known.2.map Outgoing.publication ++ ms)

theorem concludes_nothing (s : Server) (ms : List Outgoing) :
    s.concludes (s.store, []) ms = s.tells ms := rfl

/-! ### The first half -/

/-- **The ways in which the handling of a request begins.**  It is over at once, when no command is
needed or the server is shutting down, in which case a question is refused for that reason; or the
compiler is asked.  A shutdown finds the quit over, or waits for it and asks for it if nobody
did. -/
inductive Begins (s : Server) (r : Request) : Server → Prop where
  | atOnce (ms : List Outgoing) (hshutdown : r.isShutdown = false)
      (hfree : s.shuttingDown = true ∨ r.command? = none) (hreply : IsReply r.id ms)
      (hrefused : s.shuttingDown = true → r.isQuestion = true →
        ms = r.id.toList.map (.refusal · .shuttingDown)) :
      Begins s r (s.concludes (r.makesKnown s.options.cwd s.store none) ms)
  | asks (command : Bytes) (t : Task) (hshutdown : r.isShutdown = false)
      (hopen : s.shuttingDown = false) (hcommand : r.command? = some command)
      (hawaits : r.Awaits t) : Begins s r ({ s with task := some t }.emit (.asked command))
  | quiet (hshutdown : r.isShutdown = true) (hquit : s.quit = .finished) :
      Begins s r ({ s with shuttingDown := true }.tells (r.id.toList.map (.result · .null)))
  | waits (hshutdown : r.isShutdown = true) (hquit : s.quit ≠ .finished) :
      Begins s r
        { { s with shuttingDown := true }.askToQuit true with task := some (.shutdown r.id) }

theorem askToQuit_never (h : s.quit = .never) (byShutdown : Bool) :
    s.askToQuit byShutdown =
      { s with quit := .asked (s.now + s.options.limit) byShutdown }.emit .askedToQuit := by
  simp [askToQuit, h]

theorem askToQuit_of_ne (h : s.quit ≠ .never) (byShutdown : Bool) : s.askToQuit byShutdown = s := by
  unfold askToQuit
  split
  · exact absurd ‹_› h
  · rfl

/-- Asking to quit never finds the quit over, unless it was before. -/
theorem askToQuit_finished (s : Server) (byShutdown : Bool) :
    (s.askToQuit byShutdown).quit = .finished ↔ s.quit = .finished := by
  by_cases h : s.quit = .never
  · rw [askToQuit_never h, h]
    simp [emit]
  · rw [askToQuit_of_ne h]

/-- A reply without publications is a conclusion that leaves the store as it is. -/
theorem Begins.replies (ms : List Outgoing) (hshutdown : r.isShutdown = false)
    (hknown : r.makesKnown s.options.cwd s.store none = (s.store, []))
    (hfree : s.shuttingDown = true ∨ r.command? = none) (hreply : IsReply r.id ms)
    (hrefused : s.shuttingDown = true → r.isQuestion = true →
      ms = r.id.toList.map (.refusal · .shuttingDown)) : s.Begins r (s.tells ms) := by
  have h := Begins.atOnce (s := s) ms hshutdown hfree hreply hrefused
  rwa [hknown, concludes_nothing] at h

/-- A document was opened or saved; the two differ in their parameters only. -/
theorem Begins.document {m : Method} (hmethod : Method.ofName r.method = m)
    (hkind : m = .didOpen ∨ m = .didSave) :
    s.Begins r (match documentOf m r with
      | some uri =>
        if s.shuttingDown then s.reply r.id .null
        else s.ask (.validate (Uri.toPath uri)) (.validation r.id uri)
      | none => s.refuse r.id (.badParams r.method)) := by
  have hcommand : r.command? = (documentOf m r).map Request.validation := by
    rcases hkind with rfl | rfl <;> simp only [Request.command?, hmethod]
  have hshutdown : r.isShutdown = false := by
    rcases hkind with rfl | rfl <;> simp [Request.isShutdown, hmethod]
  have hknown : r.makesKnown s.options.cwd s.store none = (s.store, []) := by
    rcases hkind with rfl | rfl <;> simp only [Request.makesKnown, hmethod]
  have hquestion : r.isQuestion = false := by
    rcases hkind with rfl | rfl <;> simp [Request.isQuestion, hmethod]
  cases huri : documentOf m r with
  | none =>
      simp only [refuse_eq_tells]
      exact .replies _ hshutdown hknown (.inr (by simp [hcommand, huri])) (isReply_refusal _ _)
        (by simp [hquestion])
  | some uri =>
      cases hdown : s.shuttingDown with
      | true =>
          simp only [if_true, reply_eq_tells]
          exact .replies _ hshutdown hknown (.inl hdown) (isReply_result _ _) (by simp [hquestion])
      | false =>
          exact .asks _ _ hshutdown hdown (by simp [hcommand, huri, Request.validation])
            (.validation (hmethod ▸ hkind) (hmethod ▸ huri))

theorem Begins.ofShutdown (hshutdown : r.isShutdown = true) :
    s.Begins r (
      let after := { s with shuttingDown := true }.askToQuit true
      if after.quit == .finished then after.reply r.id .null
      else { after with task := some (.shutdown r.id) }) := by
  by_cases hquit : s.quit = .finished
  · have hsame := askToQuit_of_ne (s := { s with shuttingDown := true }) (by simp [hquit]) true
    rw [hsame]
    simp only [hquit, beq_self_eq_true, if_true, reply_eq_tells]
    exact hquit ▸ .quiet hshutdown hquit
  · have hwaits : ({ s with shuttingDown := true }.askToQuit true).quit ≠ .finished := by
      rwa [ne_eq, askToQuit_finished]
    simp only [beq_iff_eq, hwaits, if_false]
    exact .waits hshutdown hquit

theorem Begins.question {q : Question} (hmethod : Method.ofName r.method = .ask q) :
    s.Begins r (
      if s.shuttingDown then s.refuse r.id .shuttingDown
      else match q.query? r.params with
        | some query => s.ask query (.question r.id q)
        | none => s.refuse r.id (.badParams r.method)) := by
  have hshutdown : r.isShutdown = false := by simp [Request.isShutdown, hmethod]
  have hknown : r.makesKnown s.options.cwd s.store none = (s.store, []) := by
    simp only [Request.makesKnown, hmethod]
  have hcommand : r.command? = (q.query? r.params).map (·.command) := by
    simp only [Request.command?, hmethod]
  cases hdown : s.shuttingDown with
  | true =>
      simp only [if_true, refuse_eq_tells]
      exact .replies _ hshutdown hknown (.inl hdown) (isReply_refusal _ _) fun _ _ => rfl
  | false =>
      simp only [Bool.false_eq_true, if_false]
      cases hquery : q.query? r.params with
      | none =>
          simp only [refuse_eq_tells]
          exact .replies _ hshutdown hknown (.inr (by simp [hcommand, hquery]))
            (isReply_refusal _ _) (by simp [hdown])
      | some query =>
          exact .asks _ _ hshutdown hdown (by simp [hcommand, hquery]) (.question hmethod)

/-- **How a request begins.** -/
theorem start_begins (s : Server) (r : Request) : s.Begins r (s.start r) := by
  cases hmethod : Method.ofName r.method with
  | introduce | initialized | didChange | exit =>
      simp only [start, hmethod, reply_eq_tells]
      exact .replies _ (by simp [Request.isShutdown, hmethod])
        (by simp only [Request.makesKnown, hmethod])
        (.inr (by simp only [Request.command?, hmethod])) (isReply_result _ _)
        (by simp [Request.isQuestion, hmethod])
  | unknown =>
      simp only [start, hmethod, refuse_eq_tells]
      exact .replies _ (by simp [Request.isShutdown, hmethod])
        (by simp only [Request.makesKnown, hmethod])
        (.inr (by simp only [Request.command?, hmethod])) (isReply_refusal _ _)
        (by simp [Request.isQuestion, hmethod])
  | didOpen =>
      simp only [start, hmethod]
      exact .document hmethod (.inl rfl)
  | didSave =>
      simp only [start, hmethod]
      exact .document hmethod (.inr rfl)
  | shutdown =>
      simp only [start, hmethod]
      exact .ofShutdown (by simp [Request.isShutdown, hmethod])
  | ask q =>
      simp only [start, hmethod]
      exact .question hmethod
  | didClose =>
      have hcommand : r.command? = none := by simp only [Request.command?, hmethod]
      have hshutdown : r.isShutdown = false := by simp [Request.isShutdown, hmethod]
      have hquestion : r.isQuestion = false := by simp [Request.isQuestion, hmethod]
      simp only [start, hmethod]
      cases huri : documentOf .didClose r with
      | none =>
          simp only [refuse_eq_tells]
          exact .replies _ hshutdown (by simp [Request.makesKnown, hmethod, huri]) (.inr hcommand)
            (isReply_refusal _ _) (by simp [hquestion])
      | some uri =>
          have h := Begins.atOnce (s := s) (r.id.toList.map (.result · .null)) hshutdown
            (.inr hcommand) (isReply_result _ _) (by simp [hquestion])
          simp only [Request.makesKnown, hmethod, huri, concludes] at h
          simp only [publish_eq_tells, reply_eq_tells, tells_tells]
          exact h

/-! ### The second half -/

/-- **How a request is concluded**: what it makes known is published, and then it is replied to. -/
theorem conclude_awaits {t : Task} (h : r.Awaits t) (s : Server)
    (answer : Except Repl.Failure Bytes) : ∃ ms, IsReply r.id ms ∧
      s.conclude t answer =
        s.concludes (r.makesKnown s.options.cwd s.store (some answer)) ms := by
  cases h with
  | @question q hmethod =>
      cases answer with
      | error cause =>
          refine ⟨_, isReply_refusal r.id (faultOf cause), ?_⟩
          simp only [conclude, refuse_eq_tells, Request.makesKnown, hmethod, concludes_nothing]
      | ok text =>
          refine ⟨_, isReply_result r.id (q.response s.options.cwd (Repl.classify text)).1, ?_⟩
          simp only [conclude, applyAll_eq_tells, reply_eq_tells, tells_tells, Request.makesKnown,
            hmethod, concludes]
  | @validation uri hmethod huri =>
      refine ⟨_, isReply_result r.id .null, ?_⟩
      cases answer with
      | error cause =>
          rcases hmethod with hmethod | hmethod <;>
            simp only [conclude, reply_eq_tells, Request.makesKnown, hmethod, concludes_nothing]
      | ok text =>
          rcases hmethod with hmethod | hmethod <;> rw [hmethod] at huri <;>
            simp only [conclude, applyAll_eq_tells, reply_eq_tells, tells_tells, Request.makesKnown,
              hmethod, huri, concludes]
  | shutdown hmethod =>
      refine ⟨_, isReply_result r.id .null, ?_⟩
      simp only [conclude, reply_eq_tells, Request.makesKnown, hmethod, concludes_nothing]

/-! ### What handling leaves alone -/

/-- **What no request touches**: how the server was set up, whether it is still told something and
heard, and the time. -/
structure Untouched (s s' : Server) : Prop where
  options : s'.options = s.options
  closing : s'.closing = s.closing
  exited : s'.exited = s.exited
  canceled : s'.canceled = s.canceled
  heard : s'.heard = s.heard
  done : s'.done = s.done
  now : s'.now = s.now

theorem Untouched.refl (s : Server) : s.Untouched s := ⟨rfl, rfl, rfl, rfl, rfl, rfl, rfl⟩

theorem Untouched.trans {s s' s'' : Server} (h : s.Untouched s') (h' : s'.Untouched s'') :
    s.Untouched s'' :=
  ⟨h'.options.trans h.options, h'.closing.trans h.closing, h'.exited.trans h.exited,
    h'.canceled.trans h.canceled, h'.heard.trans h.heard, h'.done.trans h.done,
    h'.now.trans h.now⟩

theorem untouched_askToQuit (s : Server) (byShutdown : Bool) :
    s.Untouched (s.askToQuit byShutdown) := by
  by_cases h : s.quit = .never
  · rw [askToQuit_never h]
    exact ⟨rfl, rfl, rfl, rfl, rfl, rfl, rfl⟩
  · rw [askToQuit_of_ne h]
    exact .refl s

theorem Begins.untouched (h : s.Begins r s') : s.Untouched s' := by
  cases h with
  | atOnce | asks | quiet => exact ⟨rfl, rfl, rfl, rfl, rfl, rfl, rfl⟩
  | waits =>
      obtain ⟨h₁, h₂, h₃, h₄, h₅, h₆, h₇⟩ :=
        untouched_askToQuit { s with shuttingDown := true } true
      exact ⟨h₁, h₂, h₃, h₄, h₅, h₆, h₇⟩

/-- A conclusion changes the store and sends messages. -/
theorem conclude_tells (s : Server) (t : Task) (answer : Except Repl.Failure Bytes) :
    ∃ store ms, s.conclude t answer = { s with store }.tells ms := by
  cases t with
  | question id q =>
      cases answer with
      | error cause => exact ⟨s.store, _, refuse_eq_tells s _ _⟩
      | ok text =>
          simp only [conclude, applyAll_eq_tells, reply_eq_tells, tells_tells]
          exact ⟨_, _, rfl⟩
  | validation id uri =>
      cases answer with
      | error cause => exact ⟨s.store, _, reply_eq_tells s _ _⟩
      | ok text =>
          simp only [conclude, applyAll_eq_tells, reply_eq_tells, tells_tells]
          exact ⟨_, _, rfl⟩
  | shutdown id => exact ⟨s.store, _, reply_eq_tells s _ _⟩

theorem untouched_conclude (s : Server) (t : Task) (answer : Except Repl.Failure Bytes) :
    s.Untouched (s.conclude t answer) := by
  obtain ⟨store, ms, h⟩ := conclude_tells s t answer
  rw [h]
  exact ⟨rfl, rfl, rfl, rfl, rfl, rfl, rfl⟩

end Server

end ReplBridge.Editor
