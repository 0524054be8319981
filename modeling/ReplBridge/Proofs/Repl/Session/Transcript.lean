import ReplBridge.Proofs.Repl.Session.Alignment
import ReplBridge.Proofs.Repl.Session.Completion
import ReplBridge.Proofs.Repl.Session.Taken

/-!
**The transcript of a session is a faithful log.**

The worker records the text before the first prompt, each command before it is written, and each
text that answers one.  These records are made in half a dozen places, between which calls are
skipped, writes fail, commands run out of time and the session ends.  Still they form a
*conversation*: the first text, then commands and answers in turn, and possibly one command more
that was not answered.  The commands of the conversation are those that were written, in their
order, and at most the last of them could not be written; its answers are what the calls ended with.

What carries the proof is that the worker always knows where the conversation stands: it has not
begun, all commands are answered, or exactly the call that the worker waits for is not.

Main definitions:

* `Repl.Exchange`, `Repl.Conversation`, `Repl.Conversation.records` — a command with its answer, a
  conversation, and what is recorded of it;
* `Repl.Worker.Minutes` — where the conversation stands, by what the worker does;
* `Session.Noted` — what the recorded commands have to do with calls and written lines.

Main results:

* `Session.minutes_play`, `Session.noted_play` — both hold after every play;
* `Session.transcript_is_faithful` — **the records are a conversation, and it is the one that took
  place**.
-/

set_option autoImplicit false

namespace ReplBridge.Repl

/-! ### Records of a log -/

@[simp] theorem records_nil : records [] = [] := rfl

@[simp] theorem records_append (log more : List Effect) :
    records (log ++ more) = records log ++ records more := by
  simp [records]

@[simp] theorem records_cons_recorded (direction : Direction) (seq : Nat) (text : Bytes)
    (log : List Effect) :
    records (.recorded direction seq text :: log) = (direction, seq, text) :: records log := rfl

@[simp] theorem records_cons_wrote (seq : Nat) (line : Bytes) (log : List Effect) :
    records (.wrote seq line :: log) = records log := rfl

@[simp] theorem records_cons_became (state : State) (log : List Effect) :
    records (.became state :: log) = records log := rfl

@[simp] theorem records_cons_complained (line : Bytes) (log : List Effect) :
    records (.complained line :: log) = records log := rfl

@[simp] theorem records_complained (lines : List Bytes) : records (lines.map .complained) = [] := by
  induction lines with
  | nil => rfl
  | cons line lines ih => exact ih

theorem mem_records {log : List Effect} {direction : Direction} {seq : Nat} {text : Bytes} :
    (direction, seq, text) ∈ records log ↔ .recorded direction seq text ∈ log := by
  induction log with
  | nil => simp
  | cons e log ih => cases e <;> simp [ih]

theorem mem_answers {log : List Effect} {seq : Nat} {text : Bytes} :
    (seq, text) ∈ answers log ↔ (.output, seq, text) ∈ records log := by
  induction log with
  | nil => simp
  | cons e log ih =>
      cases e with
      | recorded direction n t => cases direction <;> simp [ih]
      | wrote | became => simp [ih]
      | complained line => exact ih

/-- The commands among records, with their numbers. -/
def inputs (rs : List (Direction × Nat × Bytes)) : List (Nat × Bytes) :=
  rs.filterMap fun
    | (.input, p) => some p
    | (.output, _) => none

@[simp] theorem inputs_nil : inputs [] = [] := rfl

@[simp] theorem inputs_append (rs more : List (Direction × Nat × Bytes)) :
    inputs (rs ++ more) = inputs rs ++ inputs more := by
  simp [inputs]

@[simp] theorem inputs_cons_input (p : Nat × Bytes) (rs : List (Direction × Nat × Bytes)) :
    inputs ((.input, p) :: rs) = p :: inputs rs := rfl

@[simp] theorem inputs_cons_output (p : Nat × Bytes) (rs : List (Direction × Nat × Bytes)) :
    inputs ((.output, p) :: rs) = inputs rs := rfl

theorem mem_inputs {rs : List (Direction × Nat × Bytes)} {p : Nat × Bytes} :
    p ∈ inputs rs ↔ (.input, p) ∈ rs := by
  induction rs with
  | nil => simp
  | cons r rs ih =>
      obtain ⟨direction, q⟩ := r
      cases direction <;> simp [ih]

/-! ### Conversations -/

/-- A command and its answer. -/
structure Exchange where
  /-- The number of the call. -/
  seq : Nat
  command : Bytes
  text : Bytes
  deriving DecidableEq, Repr

namespace Exchange

/-- The command of an exchange, with its number. -/
def asked (e : Exchange) : Nat × Bytes := (e.seq, e.command)

def records (e : Exchange) : List (Direction × Nat × Bytes) :=
  [(.input, e.seq, e.command), (.output, e.seq, e.text)]

end Exchange

/-- **A conversation**: the text before the first prompt, commands with their answers, and possibly
one command more that was not answered. -/
structure Conversation where
  /-- The text before the first prompt. -/
  banner : Bytes
  /-- The commands that were answered. -/
  exchanges : List Exchange := []
  /-- The number and the text of the command that was not. -/
  pending : Option (Nat × Bytes) := none
  deriving DecidableEq, Repr

namespace Conversation

/-- The commands of a conversation, with their numbers. -/
def commands (t : Conversation) : List (Nat × Bytes) :=
  t.exchanges.map Exchange.asked ++ t.pending.toList

/-- **What is recorded of a conversation.** -/
def records (t : Conversation) : List (Direction × Nat × Bytes) :=
  (.output, 0, t.banner) :: t.exchanges.flatMap Exchange.records ++
    t.pending.toList.map fun p => (.input, p)

theorem records_ask {t : Conversation} (h : t.pending = none) (p : Nat × Bytes) :
    ({ t with pending := some p }).records = t.records ++ [(.input, p)] := by
  simp [records, h]

theorem records_answer {t : Conversation} {n : Nat} {command : Bytes}
    (h : t.pending = some (n, command)) (text : Bytes) :
    ({ t with exchanges := t.exchanges ++ [Exchange.mk n command text], pending := none }).records =
      t.records ++ [(.output, n, text)] := by
  simp [records, h, Exchange.records]

@[simp] theorem inputs_records (t : Conversation) : inputs t.records = t.commands := by
  have hexchanges : ∀ es : List Exchange,
      inputs (es.flatMap Exchange.records) = es.map Exchange.asked := by
    intro es
    induction es with
    | nil => rfl
    | cons e es ih => simp [Exchange.records, Exchange.asked, ih]
  cases h : t.pending <;> simp [records, commands, h, hexchanges]

theorem mem_records_banner (t : Conversation) : (.output, 0, t.banner) ∈ t.records :=
  List.mem_cons_self

theorem mem_records_of_exchange (t : Conversation) {e : Exchange} (he : e ∈ t.exchanges) :
    (.output, e.seq, e.text) ∈ t.records := by
  refine List.mem_append_left _ (List.mem_cons_of_mem _ (List.mem_flatMap.2 ⟨e, he, ?_⟩))
  simp [Exchange.records]

end Conversation

/-! ### Where the conversation stands -/

/-- **Where the conversation stands**, by what the worker does: it has not begun, all commands are
answered, or the call in flight is not.  A worker that has stopped may have left it anywhere. -/
def Worker.Minutes (rs : List (Direction × Nat × Bytes)) : Worker → Prop
  | .off => rs = [] ∨ ∃ t : Conversation, rs = t.records
  | .greeting => rs = []
  | .idle => ∃ t : Conversation, t.pending = none ∧ rs = t.records
  | .awaiting call _ =>
    ∃ (t : Conversation) (command : Bytes), t.pending = some (call + 1, command) ∧ rs = t.records

/-- Wherever it stands, it is a conversation. -/
theorem Worker.Minutes.stop {rs : List (Direction × Nat × Bytes)} {w : Worker} (h : w.Minutes rs) :
    Worker.off.Minutes rs := by
  cases w with
  | off => exact h
  | greeting => exact .inl h
  | idle =>
      obtain ⟨t, -, hrs⟩ := h
      exact .inr ⟨t, hrs⟩
  | awaiting call deadline =>
      obtain ⟨t, command, -, hrs⟩ := h
      exact .inr ⟨t, hrs⟩

/-- A worker that waits for a command takes the next one. -/
theorem Worker.Minutes.ask {rs : List (Direction × Nat × Bytes)} (h : Worker.idle.Minutes rs)
    (call : Nat) (deadline : Option Nat) (command : Bytes) :
    (Worker.awaiting call deadline).Minutes (rs ++ [(.input, call + 1, command)]) := by
  obtain ⟨t, hnone, rfl⟩ := h
  exact ⟨{ t with pending := some (call + 1, command) }, command, rfl,
    (Conversation.records_ask hnone _).symm⟩

theorem Worker.Minutes.answer {rs : List (Direction × Nat × Bytes)} {call : Nat}
    {deadline : Option Nat} (h : (Worker.awaiting call deadline).Minutes rs) (text : Bytes) :
    Worker.idle.Minutes (rs ++ [(.output, call + 1, text)]) := by
  obtain ⟨t, command, hpending, rfl⟩ := h
  exact ⟨_, rfl, (Conversation.records_answer hpending text).symm⟩

namespace Session

variable {s s' : Session} {l : Label}

/-- **The worker knows where the conversation stands.** -/
structure Minuted (s : Session) : Prop where
  worker : s.worker.Minutes (records s.log)
  /-- Nothing is recorded before there is a subprocess. -/
  silent : s.launched = none → records s.log = []

theorem minuted_new (options : Options) : (new options).Minuted := ⟨.inl rfl, fun _ => rfl⟩

/-- **Changes keep the worker in the picture.** -/
theorem Minuted.change (h : s.Minuted) (hn : s.Numbered) (hp : s.Placed) (hc : s.Change l s') :
    s'.Minuted := by
  obtain ⟨hminutes, hsilent⟩ := h
  have hbusy (hworker : s.worker ≠ .off) {P : Prop} : s.launched = none → P :=
    fun hl => absurd hl (hp.launched_of_worker hworker)
  cases hc with
  | aside | starting | ended => exact ⟨by simpa using hminutes, by simpa using hsilent⟩
  | ticked | printed | stranded | announced | accepted | rejected | gaveUp | skipped | read
  | dropped | drained | departed => exact ⟨hminutes, hsilent⟩
  | launched manner complaints hlaunching =>
      have hnothing := hsilent (hp.early (.inr hlaunching))
      exact ⟨by simpa [Worker.Minutes] using hnothing, by simp⟩
  | @greeted _ _ banner _ hworker =>
      rw [hworker] at hminutes
      have hnothing : records s.log = [] := hminutes
      refine ⟨⟨{ banner }, rfl, ?_⟩, hbusy (by simp [hworker])⟩
      simp [hnothing, Conversation.records]
  | @overtaken _ _ banner _ hworker =>
      rw [hworker] at hminutes
      have hnothing : records s.log = [] := hminutes
      refine ⟨.inr ⟨{ banner }, ?_⟩, hbusy (by simp [hworker])⟩
      simp [hnothing, Conversation.records]
  | @wrote call rest c hworker hqueue hcall =>
      have hseq := (hn.waiting hp hcall (.inl (by simp [hqueue]))).2
      rw [hworker] at hminutes
      refine ⟨?_, hbusy (by simp [hworker])⟩
      simpa [hseq] using hminutes.ask call (s.options.timeLimit.map (s.now + ·)) c.command
  | @refused call rest c cause hworker hopen hqueue hcall =>
      have hseq := (hn.waiting hp hcall (.inl (by simp [hqueue]))).2
      rw [hworker] at hminutes
      refine ⟨?_, hbusy (by simp [hworker])⟩
      simpa [hseq] using (hminutes.ask call none c.command).stop
  | @answered call deadline c _ _ frame _ hworker hopen hpump hcall =>
      have hseq := (hn.waiting hp hcall (.inr ⟨deadline, hworker⟩)).2
      rw [hworker] at hminutes
      refine ⟨?_, hbusy (by simp [hworker])⟩
      simpa [hseq] using hminutes.answer frame
  | @parted call deadline c tail _ hworker hopen hpump hcall =>
      have hseq := (hn.waiting hp hcall (.inr ⟨deadline, hworker⟩)).2
      rw [hworker] at hminutes
      refine ⟨?_, hbusy (by simp [hworker])⟩
      simpa [hseq] using (hminutes.answer tail).stop
  | @outlived call deadline c tail _ hworker hover hunheard hpump hcall =>
      have hseq := (hn.waiting hp hcall (.inr ⟨deadline, hworker⟩)).2
      rw [hworker] at hminutes
      refine ⟨?_, hbusy (by simp [hworker])⟩
      simpa [hseq] using (hminutes.answer tail).stop
  | failed _ hworker | expired hworker => exact ⟨hminutes.stop, hbusy (by simp [hworker])⟩
  | stopped hworker =>
      exact ⟨hminutes.stop, hbusy (by rcases hworker with hw | hw <;> simp [hw])⟩

/-- The worker knows where the conversation stands after every play. -/
theorem minutes_play (options : Options) (acts : List Act) : ((new options).play acts).Minuted :=
  ledger_induction (P := fun _ t => t.Minuted) (fun _ hn hp h hc => h.change hn hp hc) options
    (minuted_new options) acts

/-! ### Recorded commands -/

/-- A command with its number, as it is written: with a line feed. -/
def asLine (p : Nat × Bytes) : Nat × Bytes := (p.1, p.2 ++ [Bytes.newline])

/-- A command is that of the call with its number. -/
def Entered (calls : List Call) (p : Nat × Bytes) : Prop :=
  ∃ i c, calls[i]? = some c ∧ c.seq = i + 1 ∧ p = (c.seq, c.command)

theorem Entered.kept {calls calls' : List Call} {p : Nat × Bytes} (h : Entered calls p)
    (hkept : Kept calls calls') : Entered calls' p := by
  obtain ⟨i, c, hc, hseq, rfl⟩ := h
  obtain ⟨c', hc', hgrows⟩ := hkept i c hc
  exact ⟨i, c', hc', hgrows.seq.trans hseq, by rw [hgrows.seq, hgrows.command]⟩

/-- A command could not be written: the session is over for that reason, and the call was told
so. -/
def Unwritten (s : Session) (p : Nat × Bytes) : Prop :=
  ∃ cause, s.reason? = some (.write cause) ∧
    s.outcome? (p.1 - 1) = some (.failed (.ofTermination (.write cause)))

theorem Unwritten.change {p : Nat × Bytes} (h : s.Unwritten p) (hc : s.Change l s') :
    s'.Unwritten p := by
  obtain ⟨cause, hreason, ho⟩ := h
  exact ⟨cause, hc.reason? hreason, hc.outcome? ho⟩

/-- **What the recorded commands have to do with calls and written lines.** -/
structure Noted (s : Session) : Prop where
  /-- They are commands of calls. -/
  entered : ∀ p ∈ inputs (records s.log), Entered s.calls p
  /-- Their numbers rise. -/
  rising : ((inputs (records s.log)).map Prod.fst).Pairwise (· < ·)
  /-- They are those that were written, except possibly for the last. -/
  written : writes s.log = (inputs (records s.log)).map asLine ∨
    ∃ before p, inputs (records s.log) = before ++ [p] ∧ writes s.log = before.map asLine ∧
      s.Unwritten p

theorem noted_new (options : Options) : (new options).Noted :=
  ⟨by simp [new], by simp [new], .inl rfl⟩

/-- Where no command is recorded, nothing is to be shown. -/
theorem Noted.keep (h : s.Noted) (hc : s.Change l s')
    (hinputs : inputs (records s'.log) = inputs (records s.log))
    (hwrites : writes s'.log = writes s.log) : s'.Noted := by
  refine ⟨fun p hp => (h.entered p (hinputs ▸ hp)).kept hc.kept, hinputs ▸ h.rising, ?_⟩
  rw [hinputs, hwrites]
  rcases h.written with hall | ⟨before, p, hbefore, hlines, hlast⟩
  · exact .inl hall
  · exact .inr ⟨before, p, hbefore, hlines, hlast.change hc⟩

theorem Noted.written_of_open (h : s.Noted) (hopen : s.reason? = none) :
    writes s.log = (inputs (records s.log)).map asLine := by
  rcases h.written with hall | ⟨-, -, -, -, cause, hreason, -⟩
  · exact hall
  · rw [hopen] at hreason
    cases hreason

/-- The first call of the queue is recorded behind all others. -/
theorem Noted.take (h : s.Noted) (hn : s.Numbered) (hp : s.Placed) (hr : s.Recorded) {call : Nat}
    {rest : List Nat} {c : Call} (hqueue : s.queue = call :: rest) (hcall : s.calls[call]? = some c)
    :
    (∀ p ∈ inputs (records s.log) ++ [(c.seq, c.command)], Entered s.calls p) ∧
      ((inputs (records s.log) ++ [(c.seq, c.command)]).map Prod.fst).Pairwise (· < ·) := by
  have hseq := (hn.waiting hp hcall (.inl (by simp [hqueue]))).2
  refine ⟨?_, ?_⟩
  · intro p hmem
    rcases List.mem_append.1 hmem with hmem | hmem
    · exact h.entered p hmem
    · exact ⟨call, c, hcall, hseq, List.mem_singleton.1 hmem⟩
  · rw [List.map_append]
    refine List.pairwise_append.2 ⟨h.rising, List.pairwise_singleton _ _, ?_⟩
    intro n hn m hm
    obtain ⟨⟨n, text⟩, hmem, rfl⟩ := List.mem_map.1 hn
    have hbefore := hr.before n text (mem_records.1 (mem_inputs.1 hmem)) call (by simp [hqueue])
    rw [List.mem_singleton.1 hm, hseq]
    exact Nat.lt_succ_of_le hbefore

/-- **Changes keep recorded commands in order.** -/
theorem Noted.change (h : s.Noted) (ht : s.Tidy) (hn : s.Numbered) (hp : s.Placed) (hr : s.Recorded)
    (hc : s.Change l s') : s'.Noted := by
  have hkeep := h.keep hc
  have hkept := hc.kept
  cases hc with
  | @wrote call rest c hworker hqueue hcall =>
      have hopen : s.reason? = none := by
        by_contra hover
        simp [ht.emptied hover] at hqueue
      obtain ⟨hentered, hrising⟩ := h.take hn hp hr hqueue hcall
      have hinputs : inputs (records (s.log ++ [.recorded .input c.seq c.command,
          .wrote c.seq (c.command ++ [Bytes.newline])])) =
          inputs (records s.log) ++ [(c.seq, c.command)] := by simp
      exact ⟨hinputs ▸ hentered, hinputs ▸ hrising,
        .inl (by simp [h.written_of_open hopen, asLine])⟩
  | @refused call rest c cause hworker hopen hqueue hcall =>
      have hqueued : call ∈ s.queue := by simp [hqueue]
      have hseq := (hn.waiting hp hcall (.inl hqueued)).2
      obtain ⟨hentered, hrising⟩ := h.take hn hp hr hqueue hcall
      have hinputs : inputs (records (s.log ++ [.recorded .input c.seq c.command,
          .became (.terminated (.write cause))])) =
          inputs (records s.log) ++ [(c.seq, c.command)] := by simp
      refine ⟨fun p hmem => (hentered p (hinputs ▸ hmem)).kept hkept, hinputs ▸ hrising,
        .inr ⟨_, _, hinputs, by simp [h.written_of_open hopen], cause, rfl, ?_⟩⟩
      -- The call that could not be written was still queued, and fails with the queue.
      rw [hseq, Nat.add_sub_cancel]
      exact outcome?_finishAll ht hp hqueued rfl
  | _ => exact hkeep (by simp) (by simp)

/-- Recorded commands are in order after every play. -/
theorem noted_play (options : Options) (acts : List Act) : ((new options).play acts).Noted :=
  (ledger_induction (P := fun _ t => t.Recorded ∧ t.Noted)
    (fun ht hn hp h hc => ⟨h.1.change ht hn hp hc, h.2.change ht hn hp h.1 hc⟩) options
    ⟨recorded_new options, noted_new options⟩ acts).2

/-! ### The conversation that took place -/

/-- The text recorded with number 0 is the first frame. -/
theorem banner_of_answered {options : Options} {acts : List Act} {text : Bytes}
    (hmem : (0, text) ∈ answers ((new options).play acts).log) :
    (frames options.sentinel ((new options).printed acts))[0]? = some text := by
  have hoptions := options_play (tidy_new options) acts
  obtain ⟨k, hk⟩ := List.mem_iff_getElem?.1 hmem
  have htext := (aligned_play options acts).text hk
  rw [hoptions] at htext
  rcases htext with hframe | ⟨-, -, -, i, c, hi, -⟩
  · rcases (paired_play options acts).nthWritten hk with ⟨rfl, -⟩ | ⟨j, line, -, hline⟩
    · exact hframe
    · -- No written command has the number 0.
      obtain ⟨i, c, -, hseq, hp⟩ := (written_play options acts).lines _ (List.mem_of_getElem? hline)
      obtain ⟨hzero, -⟩ := Prod.mk.inj hp
      omega
  · cases hi

/-- A call has ended with a frame just when the frame is recorded with its number. -/
theorem answered_iff_recorded (hn : s.Numbered) (hd : s.Delivered) {c : Call} (hc : c ∈ s.calls)
    (frame : Frame) :
    c.outcome = some (.answered frame) ↔
      ∃ text, 0 < c.seq ∧ (.output, c.seq, text) ∈ records s.log ∧ frame = classify text := by
  obtain ⟨i, hi⟩ := List.mem_iff_getElem?.1 hc
  have houtcome := outcome?_of_call hi
  rcases Nat.lt_or_ge i s.accepted with hlt | hge
  · have hseq := hn.accepted i c hi hlt
    rw [← houtcome, hseq]
    constructor
    · intro ho
      obtain ⟨text, hmem, rfl⟩ := hd.answered i frame ho
      exact ⟨text, Nat.succ_pos i, mem_answers.1 hmem, rfl⟩
    · rintro ⟨text, -, hmem, rfl⟩
      exact hd.received i text (mem_answers.2 hmem)
  · -- A call that was turned away has no number and no frame.
    obtain ⟨hseq, r, -, ho⟩ := hn.rejected i c hi hge
    simp [hseq, ho]

/-- A command that could not be written is the last, and has no answer. -/
theorem pending_of_unwritten (hd : s.Delivered) {t : Conversation} (ht : records s.log = t.records)
    (hentered : ∀ p ∈ t.commands, Entered s.calls p) {before : List (Nat × Bytes)} {p : Nat × Bytes}
    (hlast : t.commands = before ++ [p]) (hfailed : s.Unwritten p) :
    t.pending = some p ∧ before = t.exchanges.map Exchange.asked := by
  have hcommands : t.exchanges.map Exchange.asked ++ t.pending.toList = before ++ [p] := hlast
  cases hpending : t.pending with
  | some q =>
      rw [hpending] at hcommands
      obtain ⟨hbefore, hq⟩ := List.append_inj' hcommands rfl
      exact ⟨congrArg some (List.cons.inj hq).1, hbefore.symm⟩
  | none =>
      rw [hpending, Option.toList_none, List.append_nil] at hcommands
      have hmem : p ∈ t.exchanges.map Exchange.asked := by simp [hcommands]
      obtain ⟨e, he, rfl⟩ := List.mem_map.1 hmem
      obtain ⟨i, c, -, hseq, hasked⟩ := hentered e.asked (by simp [hlast])
      obtain ⟨cause, -, ho⟩ := hfailed
      -- An exchange has an answer, which is the outcome of its call.
      have hi : e.seq = i + 1 := (Prod.mk.inj hasked).1.trans hseq
      have hanswer : (i + 1, e.text) ∈ answers s.log := by
        rw [mem_answers, ht, ← hi]
        exact t.mem_records_of_exchange he
      have houtcome := hd.received i e.text hanswer
      rw [show e.asked.1 = i + 1 from hi, Nat.add_sub_cancel, houtcome] at ho
      cases ho

/-- **The transcript is a faithful log.**  After every play, nothing was recorded and nothing was
written, or the records are those of a conversation: the text before the first prompt, which is the
first frame of all that was printed, with number 0; then commands and their answers in turn, with
rising numbers from 1; and possibly one command more.  Each recorded command is that of the call
with its number.  The recorded commands are those that were written, in their order, or there is one
command more, the unanswered last one: writing it failed, which ended the session.  And a call ended
with a frame just when a text is recorded for its number that classifies as that frame. -/
theorem transcript_is_faithful (options : Options) (acts : List Act) :
    let s := (new options).play acts
    (records s.log = [] ∧ writes s.log = [] ∨
      ∃ t : Conversation, records s.log = t.records ∧
        (frames options.sentinel ((new options).printed acts))[0]? = some t.banner ∧
        (t.commands.map Prod.fst).Pairwise (· < ·) ∧
        (∀ p ∈ t.commands, 0 < p.1 ∧
          ∃ c, s.calls[p.1 - 1]? = some c ∧ c.seq = p.1 ∧ c.command = p.2) ∧
        (writes s.log = t.commands.map asLine ∨
          ∃ p, t.pending = some p ∧ writes s.log = (t.exchanges.map Exchange.asked).map asLine ∧
            s.Unwritten p)) ∧
    ∀ c ∈ s.calls, ∀ frame, c.outcome = some (.answered frame) ↔
      ∃ text, 0 < c.seq ∧ (.output, c.seq, text) ∈ records s.log ∧ frame = classify text := by
  intro s
  have hnumbered : s.Numbered := numbered_play options acts
  have hdelivered : s.Delivered := delivered_play options acts
  have hnoted : s.Noted := noted_play options acts
  refine ⟨?_, fun c hc frame => answered_iff_recorded hnumbered hdelivered hc frame⟩
  rcases (minutes_play options acts).worker.stop with hnothing | ⟨t, ht⟩
  · have hnothing : records s.log = [] := hnothing
    refine .inl ⟨hnothing, ?_⟩
    rcases hnoted.written with hall | ⟨before, p, hlast, -⟩
    · simpa [hnothing] using hall
    · simp [hnothing] at hlast
  · have ht : records s.log = t.records := ht
    have hinputs : inputs (records s.log) = t.commands := by rw [ht, t.inputs_records]
    obtain ⟨hentered, hrising, hwritten⟩ := hnoted
    rw [hinputs] at hentered hrising hwritten
    refine .inr ⟨t, ht, banner_of_answered (mem_answers.2 ?_), hrising, ?_, ?_⟩
    · rw [show records ((new options).play acts).log = t.records from ht]
      exact t.mem_records_banner
    · intro p hp
      obtain ⟨i, c, hc, hseq, rfl⟩ := hentered p hp
      exact ⟨by omega, c, by simpa [hseq] using hc, rfl, rfl⟩
    · rcases hwritten with hall | ⟨before, p, hlast, hlines, hfailed⟩
      · exact .inl hall
      · obtain ⟨hpending, rfl⟩ := pending_of_unwritten hdelivered ht hentered hlast hfailed
        exact .inr ⟨p, hpending, hlines, hfailed⟩

end Session

end ReplBridge.Repl
