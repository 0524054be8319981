import ReplBridge.Proofs.Document.Merge
import ReplBridge.Proofs.Editor.Moves

/-!
**A request that fails leaves no trace, and a validation clears what was fixed.**

A request can fail in two places: before the compiler is asked, when its parameters do not decode,
and after, when the compiler gives an error instead of an answer.  In between other requests arrive,
the stream may end and time passes, but as long as the request is under way none of this touches
what is published.  So a failure is compared with the server as it was before the request began, and
not only with the server as the answer found it.

A validation that succeeds replaces what is published for the documents that the answer names, and
for the document that was validated in any case.  What it comes to is read off from what bringing
publications together comes to.

Main definitions:

* `Request.isMisread` — parameters that do not decode;
* `Server.published` — the publications that were sent;
* `Server.NoTrace`, `Server.Refused` — nothing is published, and a request is refused with a code;
* `Server.Happens`, `Server.Waits` — what happens to a server, and what happens while a request is
  under way.

Main results:

* `Server.Move.underWay` — **a move leaves no trace, or it concludes the request under way**;
* `Server.run_waits_or_concludes` — a request waits all along a run, or is concluded in it;
* `Server.start_misread`, `Server.conclude_error`, `Server.conclude_validation` — the two failures,
  and a validation;
* `Server.failures_leave_no_trace` — **failed requests leave no trace, and validations clear what
  was fixed**.
-/

set_option autoImplicit false

namespace ReplBridge.Editor

open Protocol (Diagnostic Publication)

variable {t : Task}

/-- The publication that a message carries. -/
def Outgoing.publication? : Outgoing → Option Publication
  | .publication p => some p
  | _ => none

namespace Request

/-- The fields that the parameters of a request have to fill, if it has parameters. -/
def fields? (r : Request) : Option Target.Fields :=
  match Method.ofName r.method with
  | .ask q => some q.fields
  | .didOpen => some (Method.documentFields .didOpen)
  | .didSave => some (Method.documentFields .didSave)
  | .didClose => some (Method.documentFields .didClose)
  | _ => none

/-- **Whether a request has parameters that do not decode.** -/
def isMisread (r : Request) : Bool :=
  r.fields?.any fun fields => (Target.read? fields r.params).isNone

end Request

namespace Server

variable {s s' : Server}

/-! ### Traces -/

/-- **The publications that were sent**, in order. -/
def published (s : Server) : List Publication :=
  (s.log.filterMap Effect.message?).filterMap Outgoing.publication?

theorem published_tells (s : Server) (ms : List Outgoing) :
    (s.tells ms).published =
      s.published ++ if s.heard then ms.filterMap Outgoing.publication? else [] := by
  have hall : (ms.map Effect.sent).filterMap Effect.message? = ms := by
    simp [List.filterMap_map, Function.comp_def, Effect.message?]
  unfold published tells
  split <;> simp [hall]

/-- **Nothing is published**, and what is kept stays the same. -/
structure NoTrace (s s' : Server) : Prop where
  /-- What is kept stays the same. -/
  store : s'.store = s.store
  /-- No publication is sent. -/
  published : s'.published = s.published

theorem NoTrace.refl (s : Server) : s.NoTrace s := ⟨rfl, rfl⟩

theorem NoTrace.trans {s s' s'' : Server} (h : s.NoTrace s') (h' : s'.NoTrace s'') :
    s.NoTrace s'' :=
  ⟨h'.store.trans h.store, h'.published.trans h.published⟩

theorem noTrace_reply (s : Server) (id : Option Id) (value : Json) :
    s.NoTrace (s.reply id value) := by
  rw [reply_eq_tells]
  refine ⟨rfl, ?_⟩
  rw [published_tells]
  cases id <;> simp [Outgoing.publication?]

theorem noTrace_refuse (s : Server) (id : Option Id) (fault : Fault) :
    s.NoTrace (s.refuse id fault) := by
  rw [refuse_eq_tells]
  refine ⟨rfl, ?_⟩
  rw [published_tells]
  cases id <;> simp [Outgoing.publication?]

theorem noTrace_askToQuit (s : Server) (byShutdown : Bool) :
    s.NoTrace (s.askToQuit byShutdown) := by
  by_cases h : s.quit = .never
  · rw [askToQuit_never h]
    exact ⟨rfl, by simp [published, emit, Effect.message?]⟩
  · rw [askToQuit_of_ne h]
    exact .refl s

/-- **A request is refused with a code**, as far as the server is heard and a reply is wanted. -/
def Refused (s s' : Server) (id : Option Id) (code : Int) : Prop :=
  ∃ fault : Fault, fault.code = code ∧
    s'.log = s.log ++ if s.heard then id.toList.map fun id => .sent (.refusal id fault) else []

theorem refused_refuse (s : Server) (id : Option Id) (fault : Fault) :
    s.Refused (s.refuse id fault) id fault.code := by
  refine ⟨fault, rfl, ?_⟩
  rw [refuse_eq_tells]
  simp [tells, Function.comp_def]

/-! ### While a request is under way -/

/-- **What happens to a server**: requests arrive, or it makes a move. -/
inductive Happens (s : Server) : Server → Prop where
  | arrives (more : List Request) : Happens s { s with queue := s.queue ++ more }
  | moves {s' : Server} (hmove : s.Move s') : Happens s s'

/-- **What happens while a task is under way.** -/
def Waits (t : Task) : Server → Server → Prop :=
  Relation.ReflTransGen fun s s' => s.Happens s' ∧ s'.task = some t

theorem askToQuit_task (s : Server) (byShutdown : Bool) :
    (s.askToQuit byShutdown).task = s.task := by
  unfold askToQuit
  split <;> rfl

/-- **A move leaves no trace, or it concludes the request under way.** -/
theorem Move.underWay (h : s.Move s') (ht : s.task = some t) :
    s'.task = some t ∧ s.NoTrace s' ∨ ∃ answer, s' = { s with task := none }.conclude t answer := by
  cases h with
  | begins htask => simp [htask] at ht
  | concludes answer htask =>
      obtain rfl := Option.some.inj (htask.symm.trans ht)
      exact .inr ⟨answer, rfl⟩
  | quits | cancels | deafens | passes => exact .inl ⟨ht, rfl, rfl⟩
  | closes why =>
      obtain ⟨hstore, hpublished⟩ := noTrace_askToQuit { s with closing := some why } false
      exact .inl ⟨(askToQuit_task _ _).trans ht, hstore, hpublished⟩
  | finishes => exact .inl ⟨ht, rfl, by simp [published, emit, Effect.message?]⟩
  | exits id =>
      obtain ⟨hstore, hpublished⟩ := noTrace_reply { s with exited := true } id .null
      refine .inl ⟨?_, hstore, hpublished⟩
      rw [reply_eq_tells]
      exact ht

theorem conclude_task (s : Server) (t : Task) (answer : Except Repl.Failure Bytes) :
    (s.conclude t answer).task = s.task := by
  obtain ⟨store, ms, h⟩ := conclude_tells s t answer
  rw [h]
  rfl

/-- **While a request is under way nothing is published.** -/
theorem Waits.noTrace (h : s.Waits t s') (ht : s.task = some t) :
    s.NoTrace s' ∧ s'.options = s.options ∧ s'.task = some t := by
  induction h with
  | refl => exact ⟨.refl s, rfl, ht⟩
  | @tail mid s' _ hlast ih =>
      obtain ⟨hnoTrace, hoptions, hmid⟩ := ih
      obtain ⟨hhappens, htask⟩ := hlast
      cases hhappens with
      | arrives more => exact ⟨hnoTrace.trans ⟨rfl, rfl⟩, hoptions, htask⟩
      | moves hmove =>
          rcases hmove.underWay hmid with ⟨-, hmore⟩ | ⟨answer, rfl⟩
          · exact ⟨hnoTrace.trans hmore, hmove.options.trans hoptions, htask⟩
          · rw [conclude_task] at htask
            cases htask

/-- A request waits all along, or it is concluded in between. -/
theorem waits_or_concludes (ht : s.task = some t) (h : Relation.ReflTransGen Happens s s') :
    s.Waits t s' ∨ ∃ waiting answer, s.Waits t waiting ∧
      Relation.ReflTransGen Happens ({ waiting with task := none }.conclude t answer) s' := by
  induction h with
  | refl => exact .inl .refl
  | tail _ hlast ih =>
      rcases ih with hwaits | ⟨waiting, answer, hwaits, hafter⟩
      · have hmid := (hwaits.noTrace ht).2.2
        cases hlast with
        | arrives more => exact .inl (hwaits.tail ⟨.arrives more, hmid⟩)
        | moves hmove =>
            rcases hmove.underWay hmid with ⟨htask, -⟩ | ⟨answer, rfl⟩
            · exact .inl (hwaits.tail ⟨.moves hmove, htask⟩)
            · exact .inr ⟨_, answer, hwaits, .refl⟩
      · exact .inr ⟨waiting, answer, hwaits, hafter.tail hlast⟩

theorem arrive_happens (s : Server) (e : Event) : Relation.ReflTransGen Happens s (s.arrive e) := by
  unfold arrive
  split
  · split
    · exact .single (.arrives _)
    · exact .refl
  · exact .refl

/-- A run is made of arrivals and moves. -/
theorem run_happens (h : s.Idle) (events : List Event) :
    Relation.ReflTransGen Happens s (s.run events) := by
  induction events generalizing s with
  | nil => exact .refl
  | cons e events ih =>
      have hstep : Relation.ReflTransGen Happens (s.arrive e) (s.step e) :=
        Relation.ReflTransGen.mono (fun _ _ => .moves) _ _ (step_moves h e)
      exact (arrive_happens s e).trans (hstep.trans (ih (idle_step h e)))

/-- **A request waits all along a run, or is concluded in it.** -/
theorem run_waits_or_concludes (ht : s.task = some t) (events : List Event) :
    s.Waits t (s.run events) ∨ ∃ waiting answer, s.Waits t waiting ∧
      Relation.ReflTransGen Happens ({ waiting with task := none }.conclude t answer)
        (s.run events) := by
  have hidle : s.Idle := by simp [Idle, ht]
  exact waits_or_concludes ht (run_happens hidle events)

/-- An answer concludes the request under way, and then the queue is gone on with. -/
theorem step_answered (ht : s.task = some t) (answer : Except Repl.Failure Bytes)
    (hkind : ∀ id, t ≠ .shutdown id) :
    s.step (.answered answer) = ({ s with task := none }.conclude t answer).goOn := by
  cases t with
  | question id q => simp [step, answered, ht]
  | validation id uri => simp [step, answered, ht]
  | shutdown id => exact absurd rfl (hkind id)

/-! ### The first half fails -/

/-- **Parameters that do not decode**: the request is refused at once, for this reason unless the
server is shutting down. -/
theorem start_misread {r : Request} (h : r.isMisread = true) (s : Server) :
    ∃ fault, s.start r = s.refuse r.id fault ∧
      (s.shuttingDown = false → fault = .badParams r.method) := by
  cases hmethod : Method.ofName r.method with
  | introduce | initialized | shutdown | exit | didChange | unknown =>
      simp [Request.isMisread, Request.fields?, hmethod] at h
  | ask q =>
      have hquery : q.query? r.params = none := by
        simpa [Request.isMisread, Request.fields?, hmethod, Question.query?] using h
      cases hdown : s.shuttingDown with
      | true => exact ⟨.shuttingDown, by simp [start, hmethod, hdown], by simp⟩
      | false => exact ⟨.badParams r.method, by simp [start, hmethod, hdown, hquery], by simp⟩
  | didOpen | didSave | didClose =>
      refine ⟨.badParams r.method, ?_, fun _ => rfl⟩
      simp_all [Request.isMisread, Request.fields?, start, documentOf]

/-- A request under way waits as the task that it needs. -/
theorem awaits_of_start {r : Request} (hfree : s.task = none) (ht : (s.start r).task = some t) :
    r.Awaits t ∧ s.NoTrace (s.start r) := by
  have hbegins := start_begins s r
  generalize s.start r = s' at hbegins ht
  cases hbegins with
  | atOnce | quiet =>
      have hnone : s.task = some t := ht
      rw [hfree] at hnone
      cases hnone
  | asks command t' _ _ _ hawaits =>
      obtain rfl := Option.some.inj ht
      exact ⟨hawaits, rfl, by simp [published, emit, Effect.message?]⟩
  | waits hshutdown =>
      obtain rfl := Option.some.inj ht
      obtain ⟨hstore, hpublished⟩ := noTrace_askToQuit { s with shuttingDown := true } true
      exact ⟨.shutdown (by simpa [Request.isShutdown] using hshutdown), hstore, hpublished⟩

/-! ### The second half fails -/

/-- **The compiler gives an error**: nothing is published, whatever was asked. -/
theorem conclude_error (s : Server) (t : Task) (cause : Repl.Failure) :
    s.NoTrace (s.conclude t (.error cause)) := by
  cases t with
  | question id q => exact noTrace_refuse s id _
  | validation id uri => exact noTrace_reply s id _
  | shutdown id => exact noTrace_reply s id _

/-- The code with which an error of the compiler is told: the first of three kinds that it is of. -/
theorem faultOf_code (cause : Repl.Failure) :
    (faultOf cause).code =
      if cause.wraps .canceled then -32800
      else if cause.wraps .terminated || cause.wraps .timeout then -32803
      else -32603 := by
  unfold faultOf
  split
  · rfl
  split <;> rfl

theorem conclude_question_error {r : Request} (h : r.Awaits t) (hquestion : r.isQuestion = true)
    (s : Server) (cause : Repl.Failure) :
    s.Refused (s.conclude t (.error cause)) r.id (faultOf cause).code := by
  cases h with
  | question => exact refused_refuse s r.id _
  | validation hmethod =>
      rcases hmethod with hmethod | hmethod <;> simp [Request.isQuestion, hmethod] at hquestion
  | shutdown hmethod => simp [Request.isQuestion, hmethod] at hquestion

/-! ### Validations -/

/-- A document that was opened or saved is validated, unless the server is shutting down. -/
theorem start_validation {r : Request} {uri : Bytes}
    (hmethod : Method.ofName r.method = .didOpen ∨ Method.ofName r.method = .didSave)
    (huri : documentOf (Method.ofName r.method) r = some uri) (hopen : s.shuttingDown = false) :
    (s.start r).task = some (.validation r.id uri) := by
  rcases hmethod with hmethod | hmethod <;> rw [hmethod] at huri <;>
    simp [start, hmethod, huri, hopen, ask, emit]

/-- **A validation succeeds**: what its answer says about documents takes the place of what was
published for them, and the document that was validated is among them. -/
theorem conclude_validation (s : Server) (id : Option Id) (uri text : Bytes) :
    let cwd := s.options.cwd
    let pubs := Analysis.publications (Analysis.validation cwd (Repl.classify text))
    let after := s.conclude (.validation id uri) (.ok text)
    after.store = (s.store.apply cwd pubs [Uri.normalize cwd uri]).1 ∧
      after.published = s.published ++
        if s.heard then (s.store.apply cwd pubs [Uri.normalize cwd uri]).2 else [] := by
  intro cwd pubs after
  have hafter : after = (s.applyAll pubs [Uri.normalize cwd uri]).reply id .null := rfl
  have hreply := noTrace_reply (s.applyAll pubs [Uri.normalize cwd uri]) id .null
  rw [hafter, hreply.store, hreply.published, applyAll_eq_tells, published_tells]
  refine ⟨rfl, ?_⟩
  simp [published, List.filterMap_map, Function.comp_def, Outgoing.publication?, cwd]

/-- **Failed requests leave no trace, and validations clear what was fixed.**  Take any server that
begins with a request.  If the parameters do not decode, what is kept stays the same and nothing is
published; and a question is refused with the code -32602, unless the server is shutting down.  If
the request has to wait for the compiler, then in every run it waits all along or is concluded, and
it may be concluded after whatever happened meanwhile.  If this is with an error, what is kept is
the same as before the request and nothing was published; and a question is refused with the code of
the first kind among three that the error is of.  If a document was opened or saved, the server is
not shutting down and the answer is no error, then the diagnostics kept for the document are those
that the answer publishes for it; as far as the server is heard, one publication for the document
was sent, with these diagnostics; and documents that are neither this one nor named in the answer
are as they were. -/
theorem failures_leave_no_trace (s : Server) (r : Request) (hfree : s.task = none) :
    (r.isMisread = true → s.NoTrace (s.start r) ∧
      (r.isQuestion = true → s.shuttingDown = false → s.Refused (s.start r) r.id (-32602))) ∧
    (∀ t, (s.start r).task = some t →
      (∀ events, (s.start r).Waits t ((s.start r).run events) ∨
        ∃ waiting answer, (s.start r).Waits t waiting ∧
          Relation.ReflTransGen Happens ({ waiting with task := none }.conclude t answer)
            ((s.start r).run events)) ∧
      ∀ waiting cause, (s.start r).Waits t waiting →
        let after := { waiting with task := none }.conclude t (.error cause)
        ((∀ id, t ≠ .shutdown id) → waiting.step (.answered (.error cause)) = after.goOn) ∧
        s.NoTrace after ∧ (r.isQuestion = true → waiting.Refused after r.id
          (if cause.wraps .canceled then -32800
          else if cause.wraps .terminated || cause.wraps .timeout then -32803
          else -32603))) ∧
    (∀ uri, (Method.ofName r.method = .didOpen ∨ Method.ofName r.method = .didSave) →
      documentOf (Method.ofName r.method) r = some uri → s.shuttingDown = false →
      (s.start r).task = some (.validation r.id uri) ∧
      ∀ waiting text, (s.start r).Waits (.validation r.id uri) waiting →
        let cwd := s.options.cwd
        let doc := Uri.normalize cwd uri
        let pubs := Analysis.publications (Analysis.validation cwd (Repl.classify text))
        let items := (pubs.filter fun p => Uri.normalize cwd p.uri == doc).flatMap (·.items)
        let after := { waiting with task := none }.conclude (.validation r.id uri) (.ok text)
        waiting.step (.answered (.ok text)) = after.goOn ∧
        after.store.get doc = items ∧
        (∃ sent, (after.published = s.published ++ if waiting.heard then sent else []) ∧
          sent.filter (·.uri == doc) = [Document.Store.publication doc items]) ∧
        ∀ d, d ≠ doc → (∀ p ∈ pubs, Uri.normalize cwd p.uri ≠ d) →
          after.store.get d = s.store.get d) := by
  refine ⟨?_, ?_, ?_⟩
  · intro hmisread
    obtain ⟨fault, hstart, hfault⟩ := start_misread hmisread s
    rw [hstart]
    refine ⟨noTrace_refuse s r.id fault, fun _ hopen => ?_⟩
    rw [hfault hopen]
    exact refused_refuse s r.id (.badParams r.method)
  · intro t ht
    refine ⟨run_waits_or_concludes ht, ?_⟩
    intro waiting cause hwaits after
    obtain ⟨hawaits, hbegun⟩ := awaits_of_start hfree ht
    obtain ⟨hmeanwhile, -, htask⟩ := hwaits.noTrace ht
    have hbefore : s.NoTrace { waiting with task := none } :=
      hbegun.trans ⟨hmeanwhile.store, hmeanwhile.published⟩
    refine ⟨step_answered htask _, hbefore.trans (conclude_error _ t cause), fun hquestion => ?_⟩
    rw [← faultOf_code]
    exact conclude_question_error hawaits hquestion { waiting with task := none } cause
  · intro uri hmethod huri hopen
    have ht := start_validation hmethod huri hopen
    refine ⟨ht, ?_⟩
    intro waiting text hwaits cwd doc pubs items after
    obtain ⟨-, hbegun⟩ := awaits_of_start hfree ht
    obtain ⟨hmeanwhile, hoptions, htask⟩ := hwaits.noTrace ht
    have hbefore := hbegun.trans hmeanwhile
    have hcwd : waiting.options.cwd = cwd := by
      rw [hoptions, (start_begins s r).untouched.options]
    obtain ⟨hstore, hpublished⟩ :=
      conclude_validation { waiting with task := none } r.id uri text
    simp only [hcwd] at hstore hpublished
    have hnamed : doc ∈ Document.named cwd pubs [doc] := by simp [Document.named]
    have hget := Document.Store.get_apply waiting.store cwd pubs [doc]
    have hone := Document.Store.apply_sends_one waiting.store cwd pubs [doc] hnamed
    refine ⟨step_answered htask _ (by simp), ?_, ⟨_, ?_, hone⟩, ?_⟩
    · exact (congrArg (·.get doc) hstore).trans ((hget doc).trans (if_pos hnamed))
    · rw [← hbefore.published]
      exact hpublished
    · intro d hne hother
      have hnot : d ∉ Document.named cwd pubs [doc] := by
        simpa [Document.named, hne] using hother
      rw [← hbefore.store]
      exact (congrArg (·.get d) hstore).trans ((hget d).trans (if_neg hnot))

/-- It happens: parameters are missing; an error is of two kinds at once, of which one counts; and a
document is saved of which an error is reported. -/
theorem failures_leave_no_trace_severalWays :
    let s : Server := {}
    let document : Json := .object [(utf8 "textDocument",
      .object [(utf8 "uri", .string (utf8 "file:///w/a.carp"))])]
    let misread : Request := { id := some (.number 1), method := utf8 "textDocument/hover" }
    let hover : Request := { misread with params := some document }
    let saved : Request := { method := utf8 "textDocument/didSave", params := some document }
    let cause : Repl.Failure := .terminated (.plain .canceled)
    let text := utf8 "[ERROR]\n/w/a.carp:3:4 m"
    s.Refused (s.start misread) (some (.number 1)) (-32602) ∧
      (s.start hover).Refused ({ s.start hover with task := none }.conclude
        (.question (some (.number 1)) .hover) (.error cause)) (some (.number 1)) (-32800) ∧
      (({ s.start saved with task := none }.conclude (.validation none (utf8 "file:///w/a.carp"))
        (.ok text)).store.get (utf8 "file:///w/a.carp")).map Diagnostic.message = [utf8 "m"] := by
  intro s document misread hover saved cause text
  refine ⟨?_, ?_, ?_⟩
  · exact ((failures_leave_no_trace s misread rfl).1 (by decide +kernel)).2 (by decide +kernel) rfl
  · exact (((failures_leave_no_trace s hover rfl).2.1 _ rfl).2 (s.start hover) cause .refl).2.2
      (by decide +kernel)
  · have h := ((failures_leave_no_trace s saved rfl).2.2 (utf8 "file:///w/a.carp")
      (.inr (by decide +kernel)) (by decide +kernel) rfl).2 (s.start saved) text .refl
    exact (congrArg (List.map Diagnostic.message) h.2.1).trans (by decide +kernel)

end Server

end ReplBridge.Editor
