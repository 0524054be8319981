import ReplBridge.Console.Run
import ReplBridge.Proofs.Console.Line
import ReplBridge.Proofs.Text.Lines

/-!
**A run of the console takes its lines in order and quits at most once.**

What comes of one line is said without the run: what is to be printed, or what is wrong.  A line
ends the run if it asks for that, or if its command fails because the session is over.  Any other
line moves the run on: what came of it is printed, errors included, and at most one command is given
to the compiler.  By induction over the lines, a run does all lines before the first one that ends
it.  Then the compiler is asked to quit, once and as the last thing, unless the session is over.

The compiler is any state with any answers, so that its state after a run tells what it was given
and asked, in which order and how often.

Main definitions:

* `Console.reply`, `Console.shown` — what comes of a line, and what is printed about it;
* `Console.Loses`, `Console.Stops` — a line that finds the session over, and one that ends the run;
* `Console.Course` — **how a run goes**.

Main results:

* `Console.exists_handle` — **a line that does not end the run moves it on**;
* `Console.handle_of_quits`, `Console.handle_of_loses` — the two kinds of lines that end it;
* `Console.course_runLines` — all lines;
* `Console.run_in_order` — **the run on an input whose lines fit**.
-/

set_option autoImplicit false

namespace ReplBridge.Console

variable {line : Bytes}

variable {σ : Type}

/-! ### What comes of a line -/

/-- What lines send to the compiler, in order. -/
def sends (lines : List Bytes) : List Bytes := lines.filterMap sent?

theorem sends_cons (line : Bytes) (lines : List Bytes) :
    sends (line :: lines) = (sent? line).toList ++ sends lines := by
  cases h : sent? line <;> simp [sends, h]

/-- The compiler after commands, one after the other. -/
def Compiler.after (c : Compiler σ) (s : σ) (commands : List Bytes) : σ :=
  commands.foldl (fun s command => (c.execute s command).2) s

theorem Compiler.after_append (c : Compiler σ) (s : σ) (commands more : List Bytes) :
    c.after s (commands ++ more) = c.after (c.after s commands) more := List.foldl_append

/-- **What comes of a line**: what is to be printed, or what is wrong. -/
def reply (c : Compiler σ) (cwd : Bytes) (s : σ) (line : Bytes) : Except Fault Bytes :=
  match sent? line, Action.read line with
  | some command, action =>
    match (c.execute s command).1 with
    | .ok text => action.display cwd (Repl.classify text)
    | .error cause => .error (.compiler cause)
  | none, .help => .ok (helpText ++ [Bytes.newline])
  | none, .wrong fault => .error fault
  | none, _ => .ok []

/-- What is printed about it: what is wrong is told, too. -/
def shown : Except Fault Bytes → Bytes
  | .ok text => text
  | .error fault => utf8 "error: " ++ fault.message ++ [Bytes.newline]

/-- What lines print one after the other, each behind a prompt. -/
def spoken (c : Compiler σ) (o : Options) : σ → List Bytes → Bytes
  | _, [] => []
  | s, line :: rest =>
    o.prompt ++ shown (reply c o.cwd s line) ++ spoken c o (c.after s (sent? line).toList) rest

/-- The command of a line fails because the session is over. -/
structure Loses (c : Compiler σ) (s : σ) (line command : Bytes) (cause : Repl.Failure) : Prop where
  sent : sent? line = some command
  failed : (c.execute s command).1 = .error cause
  /-- The session is over. -/
  terminated : cause.wraps .terminated = true

/-- **A line that ends the run.** -/
def Stops (c : Compiler σ) (s : σ) (line : Bytes) : Prop :=
  Quits line ∨ ∃ command cause, Loses c s line command cause

theorem nothing_of_blank (h : Blank.isBlank line = true) (c : Compiler σ) (cwd : Bytes) (s : σ) :
    sent? line = none ∧ ¬ Stops c s line ∧ reply c cwd s line = .ok [] := by
  have hwords := Blank.fields_eq_nil_iff.2 (Blank.isBlank_iff.1 h)
  have hsent : sent? line = none := by simp [sent?, hwords]
  refine ⟨hsent, ?_, by simp only [reply, hsent, read_of_blank hwords]⟩
  rintro (hquits | ⟨command, cause, hloses⟩)
  · simp [Quits, hwords] at hquits
  · have hsome := hloses.sent
    rw [hsent] at hsome
    cases hsome

/-! ### What has happened -/

namespace Run

@[simp] theorem output_print (r : Run σ) (text : Bytes) :
    (r.print text).output = r.output ++ text := by
  simp [output, print]

@[simp] theorem commands_print (r : Run σ) (text : Bytes) : (r.print text).commands = r.commands :=
  rfl

@[simp] theorem compiler_print (r : Run σ) (text : Bytes) : (r.print text).compiler = r.compiler :=
  rfl

@[simp] theorem output_execute (c : Compiler σ) (r : Run σ) (command : Bytes) :
    (r.execute c command).2.output = r.output := rfl

@[simp] theorem commands_execute (c : Compiler σ) (r : Run σ) (command : Bytes) :
    (r.execute c command).2.commands = r.commands ++ [command] := by
  simp [commands, execute]

@[simp] theorem compiler_execute (c : Compiler σ) (r : Run σ) (command : Bytes) :
    (r.execute c command).2.compiler = (c.execute r.compiler command).2 := rfl

@[simp] theorem output_quit (c : Compiler σ) (r : Run σ) : (r.quit c).output = r.output := rfl

@[simp] theorem commands_quit (c : Compiler σ) (r : Run σ) :
    (r.quit c).commands = r.commands ++ [Analysis.quitCommand] := by
  simp [commands, quit]

@[simp] theorem compiler_quit (c : Compiler σ) (r : Run σ) :
    (r.quit c).compiler = (c.quit r.compiler Analysis.quitCommand).2 := rfl

@[simp] theorem fault_quit (c : Compiler σ) (r : Run σ) :
    (r.quit c).fault = (c.quit r.compiler Analysis.quitCommand).1.map .compiler := rfl

end Run

/-! ### One line -/

/-- What is wrong with printing an answer is never that the session is over. -/
theorem wraps_of_display {cwd : Bytes} {a : Action} {f : Repl.Frame} {fault : Fault}
    (h : a.display cwd f = .error fault) : fault.wraps .terminated = false := by
  have hprinted : ∀ {j : Json}, printed j = .error fault → fault.wraps .terminated = false := by
    intro j hj
    unfold printed at hj
    split at hj <;> cases hj
    rfl
  have hframe : printedFrame f = .error fault → fault.wraps .terminated = false := by
    intro hf
    unfold printedFrame at hf
    split at hf
    · cases hf
    · split at hf
      · exact hprinted hf
      · cases hf
        rfl
  cases a with
  | query q => cases q <;> exact hprinted h
  | _ => exact hframe h

/-- What comes of a line that does not end the run is not that the session is over. -/
theorem harmless_reply {c : Compiler σ} {s : σ} (h : ¬ Stops c s line) (cwd : Bytes) {fault : Fault}
    (hreply : reply c cwd s line = .error fault) : fault.wraps .terminated = false := by
  obtain ⟨hquits, hloses⟩ := not_or.1 h
  unfold reply at hreply
  split at hreply
  · rename_i command hsent
    split at hreply
    · exact wraps_of_display hreply
    · rename_i cause hfailed
      cases hreply
      refine Bool.eq_false_iff.2 fun hterminated => hloses ?_
      exact ⟨command, cause, hsent, hfailed, hterminated⟩
  · cases hreply
  · rename_i hwrong
    cases hreply
    rcases read_cases hquits with hread | ⟨_, hread⟩ | hread | ⟨_, hread⟩ | ⟨_, hread, hharmless⟩
    all_goals rw [hread] at hwrong
    all_goals cases hwrong
    exact hharmless
  · cases hreply

/-- What a run makes of what came of a line. -/
def conclude (o : Options) (r : Run σ) : Except Fault Bytes → Verdict σ
  | .ok said => .goesOn (r.print said)
  | .error fault => complain o r fault

/-- What came of a line is printed, unless it is that the session is over. -/
theorem conclude_of_harmless {o : Options} (hlive : o.canceled = false) (r : Run σ)
    {came : Except Fault Bytes}
    (h : ∀ fault, came = .error fault → fault.wraps .terminated = false) :
    conclude o r came = .goesOn (r.print (shown came)) := by
  cases came with
  | ok said => rfl
  | error fault => simp [conclude, complain, hlive, h fault rfl, shown]

theorem handle_of_sent (c : Compiler σ) (o : Options) (r : Run σ) {line command : Bytes}
    (h : sent? line = some command) :
    handle c o r line = conclude o (r.execute c command).2 (reply c o.cwd r.compiler line) := by
  have hcommand : (Action.read line).command? = some command := by rw [command?_read, h]
  cases hexecute : c.execute r.compiler command with
  | mk answer t =>
      simp only [handle, reply, h, Run.execute, hcommand, Option.getD_some, hexecute]
      cases hread : Action.read line with
      | execute _ =>
          cases answer with
          | error cause => rfl
          | ok text =>
              dsimp only
              cases Action.display o.cwd _ (Repl.classify text) <;> rfl
      | query q =>
          cases answer with
          | error cause => rfl
          | ok text =>
              dsimp only
              cases Action.display o.cwd _ (Repl.classify text) <;> rfl
      | _ =>
          rw [hread] at hcommand
          cases hcommand

/-- How a line moves a run on. -/
structure Advances (c : Compiler σ) (o : Options) (r : Run σ) (line : Bytes) (r' : Run σ) :
    Prop where
  /-- What came of the line is printed. -/
  output : r'.output = r.output ++ shown (reply c o.cwd r.compiler line)
  /-- What the line sends is given to the compiler. -/
  commands : r'.commands = r.commands ++ (sent? line).toList
  /-- Nothing else is. -/
  compiler : r'.compiler = c.after r.compiler (sent? line).toList

/-- **A line that does not end the run moves it on.** -/
theorem exists_handle {c : Compiler σ} {o : Options} (hlive : o.canceled = false) {r : Run σ}
    (h : ¬ Stops c r.compiler line) :
    ∃ r', handle c o r line = .goesOn r' ∧ Advances c o r line r' := by
  cases hsent : sent? line with
  | some command =>
      have hconclude := conclude_of_harmless hlive (r.execute c command).2
        fun _ hfault => harmless_reply h o.cwd hfault
      refine ⟨_, (handle_of_sent c o r hsent).trans hconclude, ?_, ?_, ?_⟩
      · simp
      · simp [hsent]
      · simp [hsent, Compiler.after]
  | none =>
      have hcommand : (Action.read line).command? = none := by rw [command?_read, hsent]
      rcases read_cases (not_or.1 h).1 with
        hread | ⟨_, hread⟩ | hread | ⟨_, hread⟩ | ⟨fault, hread, hharmless⟩
      · refine ⟨r, by simp only [handle, hread], ?_, ?_, ?_⟩ <;>
          simp [reply, hsent, hread, shown, Compiler.after]
      · rw [hread] at hcommand
        cases hcommand
      · refine ⟨r.print (helpText ++ [Bytes.newline]), by simp only [handle, hread], ?_, ?_, ?_⟩
        all_goals simp [reply, hsent, hread, shown, Compiler.after]
      · rw [hread] at hcommand
        cases hcommand
      · have htold : complain o r fault = .goesOn (r.print (shown (.error fault))) := by
          simp [complain, hlive, hharmless, shown]
        refine ⟨_, by simpa only [handle, hread] using htold, ?_, ?_, ?_⟩ <;>
          simp [reply, hsent, hread, shown, Compiler.after]

theorem handle_of_quits (c : Compiler σ) (o : Options) (r : Run σ) (h : Quits line) :
    handle c o r line = .ended (r.quit c) := by
  simp only [handle, read_of_quits h]

/-- A line whose command finds the session over. -/
theorem handle_of_loses {c : Compiler σ} (o : Options) {r : Run σ} {line command : Bytes}
    {cause : Repl.Failure} (h : Loses c r.compiler line command cause) :
    handle c o r line =
      .ended { (r.execute c command).2 with fault := some (.compiler cause) } := by
  have hreply : reply c o.cwd r.compiler line = .error (.compiler cause) := by
    simp only [reply, h.sent, h.failed]
  rw [handle_of_sent c o r h.sent, hreply]
  simp [conclude, complain, Fault.wraps, h.terminated]

/-! ### All lines -/

/-- **How a run goes** from `r` to its end as `r'`: the lines `before` are done in order, and the
run ends at the first of the lines `after`, or because there are none. -/
structure Course (c : Compiler σ) (o : Options) (r : Run σ) (before after : List Bytes)
    (r' : Run σ) : Prop where
  /-- No line that is done ends the run. -/
  goesOn : ∀ earlier line later, before = earlier ++ line :: later →
    ¬ Stops c (c.after r.compiler (sends earlier)) line
  /-- What comes of them is printed, and one more prompt. -/
  output : r'.output = r.output ++ (spoken c o r.compiler before ++ o.prompt)
  /-- Either there is no other line, or it asks for the end, and then the compiler is asked to quit,
  once and after all that was sent; or the next line finds the session over, and then it is not. -/
  ending :
    ((∀ line ∈ after.head?, Quits line) ∧
      r'.commands = r.commands ++ (sends before ++ [Analysis.quitCommand]) ∧
      r'.compiler = (c.quit (c.after r.compiler (sends before)) Analysis.quitCommand).2 ∧
      r'.fault =
        (c.quit (c.after r.compiler (sends before)) Analysis.quitCommand).1.map .compiler) ∨
    ∃ line unread command cause, after = line :: unread ∧
      Loses c (c.after r.compiler (sends before)) line command cause ∧
      r'.commands = r.commands ++ (sends before ++ [command]) ∧
      r'.compiler = (c.execute (c.after r.compiler (sends before)) command).2 ∧
      r'.fault = some (.compiler cause)

theorem Course.cons {c : Compiler σ} {o : Options} {r r₁ r' : Run σ} {before after : List Bytes}
    (hgoesOn : ¬ Stops c r.compiler line) (hline : Advances c o (r.print o.prompt) line r₁)
    (h : Course c o r₁ before after r') : Course c o r (line :: before) after r' := by
  have hcompiler : r₁.compiler = c.after r.compiler (sent? line).toList := hline.compiler
  have hcommands : r₁.commands = r.commands ++ (sent? line).toList := hline.commands
  have hstate (lines : List Bytes) :
      c.after r₁.compiler (sends lines) = c.after r.compiler (sends (line :: lines)) := by
    rw [hcompiler, ← Compiler.after_append, sends_cons]
  refine ⟨?_, ?_, ?_⟩
  · intro earlier l later heq
    cases earlier with
    | nil =>
        obtain ⟨rfl, -⟩ := List.cons.inj heq
        exact hgoesOn
    | cons first earlier =>
        obtain ⟨rfl, hrest⟩ := List.cons.inj heq
        rw [← hstate]
        exact h.goesOn earlier l later hrest
  · rw [h.output, hline.output, hcompiler]
    simp [spoken]
  · have hending := h.ending
    rw [hstate, hcommands] at hending
    rw [sends_cons] at hending ⊢
    simpa only [List.append_assoc] using hending

/-- **The lines of a run.** -/
theorem course_runLines (c : Compiler σ) {o : Options} (hlive : o.canceled = false) (r : Run σ)
    (lines : List Bytes) :
    ∃ before after, lines = before ++ after ∧
      Course c o r before after (runLines c o false r lines) := by
  induction lines generalizing r with
  | nil =>
      refine ⟨[], [], rfl, by simp, ?_, .inl ?_⟩
      · simp [runLines, finish, hlive, spoken]
      · simp [runLines, finish, hlive, sends, Compiler.after]
  | cons line lines ih =>
      rw [runLines]
      by_cases hstops : Stops c (r.print o.prompt).compiler line
      · rcases hstops with hquits | ⟨command, cause, hloses⟩
        · rw [handle_of_quits c o _ hquits]
          refine ⟨[], line :: lines, rfl, by simp, ?_, .inl ⟨?_, ?_⟩⟩
          · simp [spoken]
          · simpa using hquits
          · simp [sends, Compiler.after]
        · rw [handle_of_loses o hloses]
          refine ⟨[], line :: lines, rfl, by simp, ?_, .inr ?_⟩
          · show (Run.execute c (r.print o.prompt) command).2.output = _
            simp [spoken]
          · refine ⟨line, lines, command, cause, rfl, hloses, ?_, rfl, rfl⟩
            show (Run.execute c (r.print o.prompt) command).2.commands = _
            simp [sends]
      · obtain ⟨r₁, hhandle, hadvances⟩ := exists_handle hlive hstops
        obtain ⟨before, after, rfl, hcourse⟩ := ih r₁
        rw [hhandle]
        exact ⟨line :: before, after, rfl, hcourse.cons hstops hadvances⟩

/-- **A run takes its lines in order and quits at most once.**  Take any compiler, whatever it
answers, and any input of which no line is as long as the limit; nobody tells the console to stop.
A blank line does nothing.  The lines of the input fall into those that are done and those that are
not.  None of the lines that are done asks for the end or finds the session over.  What each of them
sends, one command or none, is given to the compiler in order, and what comes of each of them,
answer or error, is printed.  If no line is left, or the next one asks for the end, the compiler is
asked to quit, once and after that, and the run ends with what it says to it.  Otherwise the command
of the next line fails because the session is over; the run ends with this failure, and the compiler
is neither asked to quit nor given anything else. -/
theorem run_in_order {σ : Type} (c : Compiler σ) (o : Options) (start : σ) (input : Bytes)
    (hlive : o.canceled = false)
    (hshort : ∀ line ∈ Bytes.split [Bytes.newline] input, line.length < lineLimit) :
    (∀ line, Blank.isBlank line = true → ∀ s,
      sent? line = none ∧ ¬ Stops c s line ∧ reply c o.cwd s line = .ok []) ∧
    ∃ before after, Lines.ofText input = before ++ after ∧
      Course c o { compiler := start } before after (run c o start input) := by
  refine ⟨fun line hblank s => nothing_of_blank hblank c o.cwd s, ?_⟩
  have hrun : run c o start input =
      runLines c o false { compiler := start } (Lines.ofText input) := by
    rw [run, Lines.scan_of_short hshort]
  rw [hrun]
  exact course_runLines c hlive { compiler := start } (Lines.ofText input)

/-- A compiler that gives answers in order, and empty ones when none are left. -/
def Compiler.scripted : Compiler (List (Except Repl.Failure Bytes)) where
  execute answers _ := (answers.headD (.ok []), answers.tail)
  quit answers _ := (none, answers)

/-- It happens: a command takes too long, which is told, a place is named wrongly, which is told as
well, and the next command finds the session over.  What stands behind it is not looked at. -/
theorem run_in_order_timeout :
    let input := utf8 "(a)\n\n:hover x 0 0\n (b)\t\n:quit\n"
    let answers := [.error (.plain .timeout), .error (.terminated (.plain .timeout))]
    let r := run .scripted {} answers input
    (∃ before after, Lines.ofText input = before ++ after ∧
      Course .scripted {} { compiler := answers } before after r) ∧
    r.commands = [utf8 "(a)", utf8 "(b)"] ∧
    r.output = utf8 "error: repl command timed out\nerror: :hover: invalid line \"0\"\n" ∧
    r.fault = some (.compiler (.terminated (.plain .timeout))) := by
  intro input answers r
  refine ⟨(run_in_order .scripted {} answers input rfl ?_).2, ?_, ?_, ?_⟩
  all_goals decide

end ReplBridge.Console
