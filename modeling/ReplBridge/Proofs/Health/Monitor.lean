import ReplBridge.Health.Monitor
import ReplBridge.Proofs.Repl.Session.Watch

/-!
**A monitor tells whether the session is ready.**

A monitor that watches a session knows of it only what it was told, and it tells others the last of
that.  Since the last news of a session is its state, the monitor is right about the session
whenever no news is left, for the whole program and for the named service.  Once it was stopped, it
tells of no service any more, whatever it hears.

Main definitions:

* `Health.Monitor.hear`, `Health.Monitor.hearAll` — a monitor is told of states;
* `Health.Agrees` — what was told of a session, and what a monitor makes of it, fits the session.

Main results:

* `Health.Monitor.hearAll_stop` — a monitor that was stopped hears nothing;
* `Health.agrees_of_fair` — **when no news is left, all of it fits the session**;
* `Health.observers_agree_with_session` — **states in one direction, and observers that agree**.
-/

set_option autoImplicit false

namespace ReplBridge.Health

open Repl (Failure Options Session State Watch states)

/-! ### What is asked of a register -/

variable {S : Type} {v : Services S} {Open : S → Prop}

/-- **What a register of services does**: while it is open, a service has the status that was set
last; shutting it down ends the services that are known, and nothing is set after that. -/
structure Services.Lawful (v : Services S) (Open : S → Prop) : Prop where
  /-- A register is open at the beginning. -/
  open_fresh : Open v.fresh
  /-- It stays open when something is set. -/
  open_set : ∀ {s}, Open s → ∀ name status, Open (v.set s name status)
  /-- What is set is told, and nothing else changes. -/
  check_set : ∀ {s}, Open s → ∀ name status other, v.check (v.set s name status) other =
    if other = name then some status else v.check s other
  /-- Once shut down it is not open. -/
  shut : ∀ s, ¬ Open (v.shutdown s)
  /-- The services that are known have ended. -/
  check_shutdown : ∀ s name, v.check (v.shutdown s) name =
    (v.check s name).map fun _ => .notServing
  /-- What is set later is ignored. -/
  set_shut : ∀ {s}, ¬ Open s → ∀ name status, v.set s name status = s

theorem lookup_filter_ne {name other : Bytes} (h : other ≠ name)
    (entries : List (Bytes × Status)) :
    (entries.filter (·.1 != name)).lookup other = entries.lookup other := by
  induction entries with
  | nil => rfl
  | cons e entries ih =>
      obtain ⟨key, status⟩ := e
      by_cases hkey : key = name
      · subst hkey
        have hne : (other == key) = false := by simpa using h
        simpa [List.lookup_cons, hne] using ih
      · have hkept : ((key, status).1 != name) = true := by simpa using hkey
        rw [List.filter_cons, if_pos hkept, List.lookup_cons, List.lookup_cons, ih]

theorem lookup_map_notServing (name : Bytes) (entries : List (Bytes × Status)) :
    (entries.map fun e => (e.1, Status.notServing)).lookup name =
      (entries.lookup name).map fun _ => .notServing := by
  induction entries with
  | nil => rfl
  | cons e entries ih =>
      rw [List.map_cons, List.lookup_cons, List.lookup_cons, ih]
      cases name == e.1 <;> rfl

/-- **Tables are such registers.** -/
theorem lawful_tables : tables.Lawful fun t => t.shut = false where
  open_fresh := rfl
  open_set h name status := by simp [tables, h]
  check_set h name status other := by
    simp only [tables, h, Bool.false_eq_true, if_false]
    by_cases hother : other = name
    · simp [hother]
    · have hne : (other == name) = false := by simpa using hother
      rw [List.lookup_cons, hne, if_neg hother]
      exact lookup_filter_ne hother _
  shut t := by simp [tables]
  check_shutdown t name := lookup_map_notServing name t.entries
  set_shut h name status := by simp [tables, h]

namespace Monitor

/-! ### What a monitor makes of what it hears -/

/-- A monitor is told that the session has entered a state. -/
def hear (v : Services S) (m : Monitor S) (state : State) : Monitor S :=
  m.observe v (some state.phase)

/-- A monitor is told of states one after the other. -/
def hearAll (v : Services S) (m : Monitor S) (told : List State) : Monitor S :=
  told.foldl (hear v) m

@[simp] theorem hearAll_nil (m : Monitor S) : m.hearAll v [] = m := rfl

@[simp] theorem hearAll_append (m : Monitor S) (told more : List State) :
    m.hearAll v (told ++ more) = (m.hearAll v told).hearAll v more :=
  List.foldl_append

@[simp] theorem hearAll_cons (m : Monitor S) (state : State) (told : List State) :
    m.hearAll v (state :: told) = (m.hear v state).hearAll v told := rfl

/-- What is told about the whole program and about the service. -/
def Tells (v : Services S) (m : Monitor S) (status : Status) : Prop :=
  m.status? v [] = some status ∧ m.status? v m.name = some status

/-- **While its register is open, a monitor tells of both services alike.** -/
theorem tells_tell (hv : v.Lawful Open) {m : Monitor S} (h : Open m.services) (status : Status) :
    (m.tell v status).Tells v status := by
  have hfirst := hv.open_set h [] status
  refine ⟨?_, ?_⟩
  · simp only [status?, tell, hv.check_set hfirst, hv.check_set h, if_true]
    split <;> rfl
  · simp [status?, tell, hv.check_set hfirst]

theorem open_tell (hv : v.Lawful Open) {m : Monitor S} (h : Open m.services) (status : Status) :
    Open (m.tell v status).services :=
  hv.open_set (hv.open_set h _ _) _ _

theorem open_new (hv : v.Lawful Open) (service : Bytes) : Open (new v service).services :=
  open_tell hv hv.open_fresh _

theorem tells_new (hv : v.Lawful Open) (service : Bytes) : (new v service).Tells v .notServing :=
  tells_tell hv hv.open_fresh _

theorem open_hearAll (hv : v.Lawful Open) {m : Monitor S} (h : Open m.services)
    (told : List State) : Open (m.hearAll v told).services := by
  induction told generalizing m with
  | nil => exact h
  | cons state told ih => exact ih (open_tell hv h _)

theorem tells_hearAll (hv : v.Lawful Open) {m : Monitor S} (h : Open m.services) {status : Status}
    (htells : m.Tells v status) (told : List State) :
    ∃ status, (m.hearAll v told).Tells v status := by
  induction told generalizing m status with
  | nil => exact ⟨status, htells⟩
  | cons state told ih => exact ih (open_tell hv h _) (tells_tell hv h _)

/-- **A monitor that was stopped hears nothing.** -/
theorem hearAll_stop (hv : v.Lawful Open) (m : Monitor S) (told : List State) :
    (m.stop v).hearAll v told = m.stop v := by
  have hignored (state : State) : (m.stop v).hear v state = m.stop v := by
    simp only [hear, observe, tell, stop, hv.set_shut (hv.shut m.services)]
  induction told with
  | nil => rfl
  | cons state told ih => rw [hearAll_cons, hignored, ih]

/-- A monitor that is stopped tells that there is no service. -/
theorem tells_stop (hv : v.Lawful Open) {m : Monitor S} {status : Status} (h : m.Tells v status) :
    (m.stop v).Tells v .notServing := by
  have hwhole : v.check m.services [] = some status := h.1
  have hname : v.check m.services m.name = some status := h.2
  exact ⟨by simp [status?, stop, hv.check_shutdown, hwhole],
    by simp [status?, stop, hv.check_shutdown, hname]⟩

end Monitor

/-- There is a service in the phase in which commands are taken, and in no other. -/
theorem Status.ofPhase_eq_serving_iff (state : State) :
    Status.ofPhase (some state.phase) = .serving ↔ state = .ready := by
  cases state <;> simp [Status.ofPhase, State.phase]

/-! ### Agreement -/

/-- **What was told of a session fits it**, and so does what a monitor tells that was told so. -/
structure Agrees (v : Services S) (service : Bytes) (s : Session) (told : List State) : Prop where
  /-- Phases were told in their order, each at most once. -/
  rising : (told.map State.rank).Pairwise (· < ·)
  /-- Of an idle session nothing was told. -/
  idle : s.state = .idle → told = []
  /-- Of any other, its state was told last. -/
  current : s.state ≠ .idle → told.getLast? = some s.state
  /-- The end was told once, with the reason, if the session is over, and else never. -/
  ended : (told.filter fun state => state.phase = .terminated) =
    (s.reason?.map State.terminated).toList
  /-- A monitor tells that there is a service just when the session is ready. -/
  serving : let m := (Monitor.new v service).hearAll v told
    (m.status? v [] = some .serving ↔ s.state = .ready) ∧
      (m.status? v m.name = some .serving ↔ s.state = .ready)
  /-- A monitor that was stopped on the way tells that there is none. -/
  stopped : ∀ before after, told = before ++ after →
    let m := (((Monitor.new v service).hearAll v before).stop v).hearAll v after
    m.status? v [] = some .notServing ∧ m.status? v m.name = some .notServing

theorem tells_of_fair (hv : v.Lawful Open) {w : Watch} (h : w.Fair) (hquiet : w.Quiet)
    (service : Bytes) : ((Monitor.new v service).hearAll v w.told).Tells v
      (.ofPhase (some w.session.state.phase)) := by
  by_cases hidle : w.session.state = .idle
  · rw [h.told_of_idle hidle, hidle]
    exact Monitor.tells_new hv service
  · obtain ⟨before, htold, -⟩ := h.last hquiet hidle
    rw [htold, Monitor.hearAll_append]
    exact Monitor.tells_tell hv (Monitor.open_hearAll hv (Monitor.open_new hv service) before) _

/-- **When no news is left, what was told fits the session.** -/
theorem agrees_of_fair (hv : v.Lawful Open) {w : Watch} (h : w.Fair) (hquiet : w.Quiet)
    (service : Bytes) : Agrees v service w.session w.told where
  rising := h.told_rising
  idle := h.told_of_idle
  current hidle := by
    obtain ⟨before, htold, -⟩ := h.last hquiet hidle
    rw [htold, List.getLast?_concat]
  ended := h.ended hquiet
  serving := by
    obtain ⟨hwhole, hname⟩ := tells_of_fair hv h hquiet service
    simp only [hwhole, hname, Option.some.injEq, Status.ofPhase_eq_serving_iff, and_self]
  stopped before after _ := by
    obtain ⟨status, htells⟩ := Monitor.tells_hearAll hv (Monitor.open_new hv service)
      (Monitor.tells_new hv service) before
    rw [Monitor.hearAll_stop hv]
    exact Monitor.tells_stop hv htells

/-- **States in one direction, and observers that agree.**  Along every play the session goes from
idle over starting and ready to terminated and never back; it has a reason just when it is
terminated, and the reason stays.  Its end is announced only when it is terminated and never taken
back, and whenever nothing can move it was announced just when the session is terminated.  The
states it enters, as its log shows them, fit it at every moment, and so does what a monitor tells
that hears of them, whatever register of services it keeps.

Nothing of this depends on when news is told.  Let the steps of the session be mixed with those of
telling the news in any order, where news is told one piece at a time and dropped if it no longer
holds.  Then the session goes in the same direction and its end is announced in the same way, what
is told rises from phase to phase, the end is told with the reason of the session, and whenever no
news is left all that was told fits the session. -/
theorem observers_agree_with_session {S : Type} {v : Services S} {Open : S → Prop}
    (hv : v.Lawful Open) (options : Options) (service : Bytes) :
    (∀ acts more,
      let s := (Session.new options).play acts
      s.state.rank ≤ (s.play more).state.rank ∧
      (s.reason?.isSome = true ↔ s.state.phase = .terminated) ∧
      (∀ r, s.reason? = some r → (s.play more).reason? = some r) ∧
      (s.done = true → s.state.phase = .terminated ∧ (s.play more).done = true) ∧
      (s.move? = none → (s.done = true ↔ s.state.phase = .terminated)) ∧
      Agrees v service s (states s.log) ∧
      (Watch.prompt (.new options)).Reaches (.prompt s)) ∧
    ∀ w, (Watch.prompt (.new options)).Reaches w →
      (∀ w', w.Reaches w' → w.session.state.rank ≤ w'.session.state.rank ∧
        (∀ r, w.session.reason? = some r → w'.session.reason? = some r) ∧
        (w.session.done = true → w'.session.done = true) ∧ w.told <+: w'.told) ∧
      (w.session.done = true → w.session.state.phase = .terminated) ∧
      (w.session.move? = none → (w.session.done = true ↔ w.session.state.phase = .terminated)) ∧
      (w.told.map State.rank).Pairwise (· < ·) ∧
      (∀ r, .terminated r ∈ w.told → w.session.reason? = some r) ∧
      (w.Quiet → Agrees v service w.session w.told) := by
  have hfair {w : Watch} (hreaches : (Watch.prompt (.new options)).Reaches w) : w.Fair :=
    Watch.fair_of_reaches (Watch.fair_new options) hreaches
  refine ⟨?_, ?_⟩
  · intro acts more s
    have htidy : s.Tidy := Session.tidy_play (Session.tidy_new options) acts
    have hwatched := Watch.prompt_play options acts
    exact ⟨Session.rank_play htidy more, s.reason?_isSome_iff,
      fun r hr => Session.reason?_play htidy hr more,
      fun hdone => ⟨htidy.staged.terminated hdone, Session.done_play htidy hdone more⟩,
      Session.done_iff_of_quiet htidy.staged,
      agrees_of_fair hv (hfair hwatched) (Watch.prompt_quiet s) service, hwatched⟩
  · intro w hreaches
    have hw := hfair hreaches
    exact ⟨fun w' hlater => hw.onward hlater, hw.staged.terminated,
      Session.done_iff_of_quiet hw.staged, hw.told_rising, fun r hr => hw.reason?_of_told hr,
      fun hquiet => agrees_of_fair hv hw hquiet service⟩

/-- It happens, with a register that is a table: a session becomes ready and is closed.  For a
moment its end has come and was not announced; at rest it was. -/
theorem observers_agree_on_close :
    let options : Options := { sentinel := [62], launcher := .spawns {} }
    let s := (Session.new options).play
      [.event .start, .event .launch, .event (.output [62]), .pump, .worker]
    let t := (Session.new options).play
      [.event .start, .event .launch, .event (.output [62]), .pump, .worker, .event .close]
    let u := (Session.new options).play
      [.event .start, .event .launch, .event (.output [62]), .pump, .worker, .event .close,
        .announce, .worker, .client 0, .complaints, .pump, .pump, .client 0]
    s.state = .ready ∧
    ((Monitor.new tables []).hearAll tables (states s.log)).status? tables [] = some .serving ∧
    t.state.phase = .terminated ∧ t.done = false ∧ u.move? = none ∧ u.done = true ∧
    (states u.log).getLast? = some u.state := by
  obtain ⟨hplays, -⟩ := observers_agree_with_session lawful_tables
    { sentinel := [62], launcher := .spawns {} } []
  obtain ⟨-, -, -, -, -, hready, -⟩ := hplays
    [.event .start, .event .launch, .event (.output [62]), .pump, .worker] []
  obtain ⟨-, -, -, -, hdone, hlast, -⟩ := hplays
    [.event .start, .event .launch, .event (.output [62]), .pump, .worker, .event .close,
      .announce, .worker, .client 0, .complaints, .pump, .pump, .client 0] []
  exact ⟨by decide, hready.serving.1.2 (by decide), by decide, by decide, by decide,
    (hdone (by decide)).2 (by decide), hlast.current (by decide)⟩

end ReplBridge.Health
