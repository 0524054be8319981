import ReplBridge.Proofs.Repl.Session.Acts

/-!
**The ledger of calls.**

The list of calls is a ledger: entries are added at its end and never leave it, and what an entry
says is never taken back.  This module says what the ledger shows of queue and worker, and proves it
for every play: accepted calls are numbered from 1 without gaps and stand before all that were
turned away; a call without an outcome is queued or in flight, and nowhere else.

Main definitions:

* `Repl.Call.Grows` — what may become of an entry;
* `Session.Numbered` — how entries are numbered;
* `Session.Placed` — where a call without an outcome is;
* `Session.Ends` — how a call may get its outcome.

Main results:

* `Session.play_calls`, `Session.outcome?_play` — entries stay, and an outcome is final;
* `Session.reason?_play` — a reason is final;
* `Session.Change.ends` — **a call ends in one of the known ways**;
* `Session.ledger_induction`, `Session.numbered_play`, `Session.placed_play` — **the ledger is in
  order all along every play**.
-/

set_option autoImplicit false

namespace ReplBridge.Repl

variable {c c' : Call} {calls : List Call} {i call : Nat} {o : Outcome}

/-! ### Entries only grow -/

/-- **What may become of a call.** -/
structure Call.Grows (c c' : Call) : Prop where
  /-- Its number stays. -/
  seq : c'.seq = c.seq
  command : c'.command = c.command
  /-- It stays the command that ends the session, or one that does not. -/
  last : c'.last = c.last
  /-- A caller who gave up does not come back. -/
  abandoned : c.abandoned = true → c'.abandoned = true
  outcome : ∀ o, c.outcome = some o → c'.outcome = some o

namespace Call.Grows

theorem refl (c : Call) : c.Grows c := ⟨rfl, rfl, rfl, id, fun _ => id⟩

theorem trans {c c' c'' : Call} (h : c.Grows c') (h' : c'.Grows c'') : c.Grows c'' :=
  ⟨h'.seq.trans h.seq, h'.command.trans h.command, h'.last.trans h.last,
    fun ha => h'.abandoned (h.abandoned ha), fun o ho => h'.outcome o (h.outcome o ho)⟩

theorem finish (o : Outcome) (c : Call) : c.Grows (c.finish o) := by
  refine ⟨by simp, by simp, by simp, by simp, ?_⟩
  intro p hp
  rw [Call.finish_of_some hp, hp]

theorem giveUp (c : Call) : c.Grows { c with abandoned := true } :=
  ⟨rfl, rfl, rfl, fun _ => rfl, fun _ => id⟩

end Call.Grows

/-- Every entry of a ledger is still there, and has grown at most. -/
def Kept (calls calls' : List Call) : Prop :=
  ∀ (i : Nat) (c : Call), calls[i]? = some c → ∃ c', calls'[i]? = some c' ∧ c.Grows c'

namespace Kept

theorem refl (calls : List Call) : Kept calls calls := fun _ c hc => ⟨c, hc, .refl c⟩

theorem trans {calls calls' calls'' : List Call} (h : Kept calls calls')
    (h' : Kept calls' calls'') : Kept calls calls'' := by
  intro i c hc
  obtain ⟨c', hc', hgrows⟩ := h i c hc
  obtain ⟨c'', hc'', hgrows'⟩ := h' i c' hc'
  exact ⟨c'', hc'', hgrows.trans hgrows'⟩

theorem append (calls more : List Call) : Kept calls (calls ++ more) := by
  intro i c hc
  refine ⟨c, ?_, .refl c⟩
  rw [List.getElem?_append_left (List.getElem?_eq_some_iff.1 hc).1, hc]

theorem modify (calls : List Call) (call : Nat) {f : Call → Call} (hf : ∀ c, Call.Grows c (f c)) :
    Kept calls (calls.modify call f) := by
  intro i c hc
  rw [List.getElem?_modify, hc]
  by_cases hi : call = i
  · exact ⟨f c, by simp [hi], hf c⟩
  · exact ⟨c, by simp [hi], .refl c⟩

theorem finishAll (o : Outcome) (queue : List Nat) (calls : List Call) :
    Kept calls (finishAll o queue calls) := by
  intro i c hc
  rw [getElem?_finishAll, hc]
  by_cases hi : i ∈ queue
  · exact ⟨c.finish o, by simp [hi], .finish o c⟩
  · exact ⟨c, by simp [hi], .refl c⟩

/-- Where no entry is added, every entry was there before. -/
theorem back {calls calls' : List Call} (h : Kept calls calls')
    (hlen : calls'.length = calls.length) (hc' : calls'[i]? = some c') :
    ∃ c : Call, calls[i]? = some c ∧ c.Grows c' := by
  have hlt := hlen ▸ (List.getElem?_eq_some_iff.1 hc').1
  obtain ⟨c'', hc'', hgrows⟩ := h i _ (List.getElem?_eq_getElem hlt)
  rw [hc'] at hc''
  cases hc''
  exact ⟨_, List.getElem?_eq_getElem hlt, hgrows⟩

end Kept

/-! ### Being told that the session is over -/

/-- Whoever is told that a session is over can tell so. -/
theorem Failure.wraps_ofTermination (r : Failure) :
    (Failure.ofTermination r).wraps .terminated = true := by
  unfold Failure.ofTermination
  split <;> rfl

theorem Failure.ofTermination_ne {cause : Failure} (h : cause.wraps .terminated = false)
    (r : Failure) : Failure.ofTermination r ≠ cause := by
  rintro rfl
  rw [wraps_ofTermination] at h
  cases h

namespace Session

variable {s s' : Session} {l : Label}

/-- **Entries stay.** -/
theorem Change.kept (h : s.Change l s') : Kept s.calls s'.calls := by
  cases h with
  | aside | ticked | printed | starting | stranded | launched | announced | greeted | overtaken
  | wrote | stopped | read | dropped | drained | departed => exact .refl _
  | accepted | rejected => exact .append _ _
  | gaveUp call => exact .modify _ _ .giveUp
  | ended | refused => exact .finishAll _ _ _
  | skipped | answered | outlived | failed | expired => exact .modify _ _ (.finish _)
  | parted => exact (Kept.finishAll _ _ _).trans (.modify _ _ (.finish _))

/-- An entry has grown into the one that is in its place. -/
theorem Change.grown (h : s.Change l s') (hc : s.calls[i]? = some c) (hc' : s'.calls[i]? = some c')
    : c.Grows c' := by
  obtain ⟨c₁, hc₁, hgrows⟩ := h.kept i c hc
  rw [hc'] at hc₁
  cases hc₁
  exact hgrows

/-- Every entry is still there after a play. -/
theorem play_calls (ht : s.Tidy) (acts : List Act) : Kept s.calls (s.play acts).calls :=
  (play_induction (P := fun _ t => Kept s.calls t.calls)
    (fun _ h hc => h.trans hc.kept) [] ht (.refl _) acts).2

theorem outcome?_eq (s : Session) (i : Nat) : s.outcome? i = s.calls[i]?.bind Call.outcome := by
  unfold outcome?
  cases s.calls[i]? <;> rfl

theorem outcome?_of_call (h : s.calls[i]? = some c) : s.outcome? i = c.outcome := by
  simp [outcome?_eq, h]

theorem call_of_outcome? (h : s.outcome? i = some o) :
    ∃ c, s.calls[i]? = some c ∧ c.outcome = some o := by
  rw [outcome?_eq] at h
  exact Option.bind_eq_some_iff.1 h

theorem outcome?_of_kept (h : Kept s.calls s'.calls) (ho : s.outcome? i = some o) :
    s'.outcome? i = some o := by
  obtain ⟨c, hc, hco⟩ := call_of_outcome? ho
  obtain ⟨c', hc', hgrows⟩ := h i c hc
  rw [outcome?_of_call hc', hgrows.outcome o hco]

theorem Change.outcome? (h : s.Change l s') (ho : s.outcome? i = some o) : s'.outcome? i = some o :=
  outcome?_of_kept h.kept ho

theorem outcome?_play (ht : s.Tidy) (ho : s.outcome? i = some o) (acts : List Act) :
    (s.play acts).outcome? i = some o :=
  outcome?_of_kept (play_calls ht acts) ho

theorem Change.reason? (h : s.Change l s') {r : Failure} (hr : s.reason? = some r) :
    s'.reason? = some r := by
  cases h with
  | aside | ticked | printed | stranded | launched | announced | overtaken | rejected | gaveUp
  | skipped | wrote | answered | outlived | failed | expired | stopped | read | dropped | drained
  | departed => exact hr
  | starting hidle => simp [Session.reason?, hidle] at hr
  | accepted _ _ hopen | ended _ hopen => rw [hopen] at hr; cases hr
  | greeted _ hopen | refused _ hopen | parted _ hopen =>
      rw [hopen] at hr
      cases hr

theorem reason?_play (ht : s.Tidy) {r : Failure} (hr : s.reason? = some r) (acts : List Act) :
    (s.play acts).reason? = some r :=
  (play_induction (P := fun _ t => t.reason? = some r)
    (fun _ h hc => hc.reason? h) [] ht hr acts).2

/-- A launcher that has returned is not called again in any play. -/
theorem returned_play (ht : s.Tidy) (hreturned : s.Returned) (acts : List Act) :
    (s.play acts).Returned :=
  (play_induction (P := fun _ t => t.Returned) (fun _ h hc => hc.returned h) [] ht hreturned
    acts).2

theorem options_play (ht : s.Tidy) (acts : List Act) : (s.play acts).options = s.options := by
  have hstep {t t' : Session} {l : Label} (h : t.Change l t') : t'.options = t.options := by
    cases h <;> rfl
  exact (play_induction (P := fun _ t => t.options = s.options)
    (fun _ h hc => (hstep hc).trans h) [] ht rfl acts).2

/-! ### Numbers -/

/-- **How calls are numbered.** -/
structure Numbered (s : Session) : Prop where
  /-- Accepted calls are among the submitted ones. -/
  bound : s.accepted ≤ s.calls.length
  /-- No call is turned away before the session is over. -/
  opened : s.reason? = none → s.calls.length = s.accepted
  /-- Accepted calls come first and are counted from 1. -/
  accepted : ∀ i c, s.calls[i]? = some c → i < s.accepted → c.seq = i + 1
  /-- The others have no number, and were told at once why the session is over. -/
  rejected : ∀ i c, s.calls[i]? = some c → s.accepted ≤ i →
    c.seq = 0 ∧ ∃ r, s.reason? = some r ∧ c.outcome = some (.failed (.ofTermination r))

theorem numbered_new (options : Options) : (new options).Numbered :=
  ⟨Nat.le_refl _, fun _ => rfl, by simp [new], by simp [new]⟩

/-- Where no call is added, the numbers stay in order. -/
theorem Numbered.keep (h : s.Numbered) (hkept : Kept s.calls s'.calls)
    (hlen : s'.calls.length = s.calls.length) (haccepted : s'.accepted = s.accepted)
    (hreason : ∀ r, s.reason? = some r → s'.reason? = some r) : s'.Numbered := by
  refine ⟨by rw [haccepted, hlen]; exact h.bound, ?_, ?_, ?_⟩
  · intro hopen
    rw [hlen, haccepted]
    refine h.opened ?_
    cases hr : s.reason? with
    | none => rfl
    | some r => rw [hreason r hr] at hopen; cases hopen
  · intro i c' hc' hi
    obtain ⟨c, hc, hgrows⟩ := hkept.back hlen hc'
    rw [hgrows.seq]
    exact h.accepted i c hc (haccepted ▸ hi)
  · intro i c' hc' hi
    obtain ⟨c, hc, hgrows⟩ := hkept.back hlen hc'
    obtain ⟨hseq, r, hr, ho⟩ := h.rejected i c hc (haccepted ▸ hi)
    exact ⟨hgrows.seq.trans hseq, r, hreason r hr, hgrows.outcome _ ho⟩

/-- A call that is added stands behind all others. -/
theorem getElem?_append_singleton_cases (h : (calls ++ [c])[i]? = some c') :
    calls[i]? = some c' ∧ i < calls.length ∨ i = calls.length ∧ c' = c := by
  rcases Nat.lt_trichotomy i calls.length with hlt | rfl | hgt
  · rw [List.getElem?_append_left hlt] at h
    exact .inl ⟨h, hlt⟩
  · rw [List.getElem?_concat_length] at h
    exact .inr ⟨rfl, (Option.some.inj h).symm⟩
  · rw [List.getElem?_eq_none (by simp; omega)] at h
    cases h

/-- **Changes keep the numbers in order.** -/
theorem Numbered.change (h : s.Numbered) (hc : s.Change l s') : s'.Numbered := by
  have hkept := hc.kept
  have hreason : ∀ r, s.reason? = some r → s'.reason? = some r := fun r hr => hc.reason? hr
  cases hc with
  | aside | ticked | printed | starting | stranded | launched | announced | greeted | overtaken
  | wrote | stopped | read | dropped | drained | departed => exact h.keep hkept rfl rfl hreason
  | gaveUp | ended | skipped | refused | answered | parted | outlived | failed | expired =>
      exact h.keep hkept (by simp) rfl hreason
  | accepted command last hopen =>
      have hlen := h.opened hopen
      refine ⟨by simp [hlen], fun _ => by simp [hlen], ?_, ?_⟩
      · intro i c hc hi
        rcases getElem?_append_singleton_cases hc with ⟨hc, hlt⟩ | ⟨rfl, rfl⟩
        · exact h.accepted i c hc (by omega)
        · exact congrArg (· + 1) hlen.symm
      · intro i c hc hi
        have hlt := (List.getElem?_eq_some_iff.1 hc).1
        simp at hlt hi
        omega
  | rejected command last hover =>
      refine ⟨Nat.le_trans h.bound (by simp), ?_, ?_, ?_⟩
      · intro hopen
        rw [show s.reason? = none from hopen] at hover
        cases hover
      · intro i c hc hi
        rcases getElem?_append_singleton_cases hc with ⟨hc, hlt⟩ | ⟨rfl, rfl⟩
        · exact h.accepted i c hc hi
        · exact absurd h.bound (Nat.not_le.2 hi)
      · intro i c hc hi
        rcases getElem?_append_singleton_cases hc with ⟨hc, hlt⟩ | ⟨rfl, rfl⟩
        · exact h.rejected i c hc hi
        · exact ⟨rfl, _, hover, rfl⟩

/-! ### Places -/

/-- A call waits: to be written, or for its frame. -/
def Waits (s : Session) (i : Nat) : Prop :=
  i ∈ s.queue ∨ ∃ deadline, s.worker = .awaiting i deadline

/-- **Where a call without an outcome is.** -/
structure Placed (s : Session) : Prop where
  /-- Before the launcher has returned there is no subprocess. -/
  early : s.state = .idle ∨ s.launching = true → s.launched = none
  /-- Without a subprocess nobody writes. -/
  off : s.launched = none → s.worker = .off
  /-- With one, the worker stops only when the session is over. -/
  working : s.launched ≠ none → s.reason? = none → s.worker ≠ .off
  /-- The calls without an outcome are those that wait. -/
  undone : ∀ i c, s.calls[i]? = some c → (c.outcome = none ↔ s.Waits i)

theorem placed_new (options : Options) : (new options).Placed :=
  ⟨fun _ => rfl, fun _ => rfl, by simp [new], by simp [new]⟩

theorem waits_iff_queued (h : ∀ call deadline, s.worker ≠ .awaiting call deadline) (i : Nat) :
    s.Waits i ↔ i ∈ s.queue := by
  simp [Waits, h]

theorem waits_of_awaiting {deadline : Option Nat} (h : s.worker = .awaiting call deadline) (i : Nat)
    :
    s.Waits i ↔ i ∈ s.queue ∨ i = call := by
  simp [Waits, h, eq_comm]

theorem Tidy.call_of_waits (h : s.Tidy) (hw : s.Waits i) : ∃ c, s.calls[i]? = some c := by
  rcases hw with hq | ⟨deadline, hworker⟩
  · exact ⟨_, List.getElem?_eq_getElem (h.queued i hq)⟩
  · exact ⟨_, List.getElem?_eq_getElem (h.awaited i deadline hworker).1⟩

theorem Tidy.awaited_not_queued (h : s.Tidy) {deadline : Option Nat}
    (hworker : s.worker = .awaiting call deadline) : call ∉ s.queue :=
  fun hq => Nat.lt_irrefl _ ((h.awaited call deadline hworker).2 call hq)

theorem Tidy.head_not_queued (h : s.Tidy) {rest : List Nat} (hqueue : s.queue = call :: rest) :
    call ∉ rest := by
  have hsorted := h.sorted
  rw [hqueue] at hsorted
  exact fun hq => Nat.lt_irrefl _ ((List.pairwise_cons.1 hsorted).1 call hq)

theorem getElem?_modify_finish_cases (h : (calls.modify call (Call.finish o))[i]? = some c') :
    ∃ c, calls[i]? = some c ∧
      (i = call ∧ c' = c.finish o ∨ i ≠ call ∧ c' = c) := by
  rw [List.getElem?_modify] at h
  obtain ⟨c, hc, rfl⟩ := Option.map_eq_some_iff.1 h
  refine ⟨c, hc, ?_⟩
  by_cases hi : call = i
  · exact .inl ⟨hi.symm, by simp [hi]⟩
  · exact .inr ⟨Ne.symm hi, by simp [hi]⟩

/-- The calls after those of a queue were finished. -/
theorem getElem?_finishAll_cases {queue : List Nat} (h : (finishAll o queue calls)[i]? = some c') :
    ∃ c, calls[i]? = some c ∧
      (i ∈ queue ∧ c' = c.finish o ∨ i ∉ queue ∧ c' = c) := by
  rw [getElem?_finishAll] at h
  obtain ⟨c, hc, rfl⟩ := Option.map_eq_some_iff.1 h
  refine ⟨c, hc, ?_⟩
  by_cases hi : i ∈ queue
  · exact .inl ⟨hi, by simp [hi]⟩
  · exact .inr ⟨hi, by simp [hi]⟩

theorem outcome_of_giveUp
    (h : (calls.modify call fun c => { c with abandoned := true })[i]? = some c') :
    ∃ c, calls[i]? = some c ∧ c'.outcome = c.outcome := by
  rw [List.getElem?_modify] at h
  obtain ⟨c, hc, rfl⟩ := Option.map_eq_some_iff.1 h
  exact ⟨c, hc, by split <;> rfl⟩

theorem finish_outcome_ne_none (o : Outcome) (c : Call) : (c.finish o).outcome ≠ none := by
  cases h : c.outcome with
  | none => simp [Call.finish_of_none h]
  | some p => simp [Call.finish_of_some h, h]

/-- Where the calls that stop waiting are those that get an outcome, all others are where they
were. -/
theorem Placed.undone_of_finished (h : s.Placed) {P : Nat → Prop}
    (hcalls : ∀ i c', s'.calls[i]? = some c' →
      ∃ c, s.calls[i]? = some c ∧ (P i ∧ c' = c.finish o ∨ ¬ P i ∧ c' = c))
    (hwaits : ∀ i, s'.Waits i ↔ s.Waits i ∧ ¬ P i) :
    ∀ i c, s'.calls[i]? = some c → (c.outcome = none ↔ s'.Waits i) := by
  intro i c' hc'
  obtain ⟨c, hc, ⟨hgone, rfl⟩ | ⟨hstays, rfl⟩⟩ := hcalls i c' hc'
  · simp [hwaits, hgone, finish_outcome_ne_none]
  · simp [hwaits, hstays, h.undone i _ hc]

theorem Placed.undone_of_landed (h : s.Placed) {deadline : Option Nat}
    (hworker : s.worker = .awaiting call deadline) (hout : call ∉ s.queue)
    (hcalls : s'.calls = s.calls.modify call (Call.finish o)) (hqueue : s'.queue = s.queue)
    (hlanded : ∀ i d, s'.worker ≠ .awaiting i d) :
    ∀ i c, s'.calls[i]? = some c → (c.outcome = none ↔ s'.Waits i) := by
  refine h.undone_of_finished (fun i c' hc' => getElem?_modify_finish_cases (hcalls ▸ hc')) ?_
  intro i
  rw [waits_iff_queued hlanded, waits_of_awaiting hworker, hqueue]
  grind

/-- The queued calls get their outcome, and the session is over. -/
theorem Placed.ended (h : s.Placed) (ht : s.Tidy) (reason : Failure) (log : List Effect) :
    Placed { s with
      state := .terminated reason, queue := []
      calls := finishAll (.failed (.ofTermination reason)) s.queue s.calls, log } := by
  refine ⟨fun hearly => h.early (.inr (by simpa using hearly)), h.off, by simp [reason?], ?_⟩
  refine h.undone_of_finished (P := (· ∈ s.queue)) (fun i c' => getElem?_finishAll_cases) ?_
  intro i
  by_cases hw : ∃ deadline, s.worker = .awaiting i deadline
  · obtain ⟨deadline, hw⟩ := hw
    simp [Waits, hw, ht.awaited_not_queued hw]
  · simp [Waits, hw]

/-- **Changes keep every call in its place.** -/
theorem Placed.change (h : s.Placed) (ht : s.Tidy) (hc : s.Change l s') : s'.Placed := by
  cases hc with
  | aside | ticked | printed | announced | read | dropped | drained | departed =>
      exact ⟨h.early, h.off, h.working, h.undone⟩
  | starting hidle =>
      have hnone := h.early (.inl hidle)
      exact ⟨fun _ => hnone, h.off, fun hl => absurd hnone hl, h.undone⟩
  | stranded hlaunching =>
      have hnone := h.early (.inr hlaunching)
      exact ⟨fun _ => hnone, h.off, h.working, h.undone⟩
  | launched manner complaints hlaunching =>
      have hoff := ht.staged.off (.inr hlaunching)
      have hbegun := ht.staged.begun hlaunching
      refine ⟨by simp [hbegun], by simp, by simp, ?_⟩
      intro i c hc
      rw [waits_iff_queued (by simp)]
      exact (h.undone i c hc).trans (waits_iff_queued (by simp [hoff]) i)
  | accepted command last hopen =>
      refine ⟨h.early, h.off, h.working, ?_⟩
      intro i c hc
      rcases getElem?_append_singleton_cases hc with ⟨hc, hlt⟩ | ⟨rfl, rfl⟩
      · rw [h.undone i c hc]
        simp [Waits, Nat.ne_of_lt hlt]
      · simp [Waits]
  | rejected command last hr =>
      have hnil := ht.emptied (by simp [hr])
      refine ⟨h.early, h.off, h.working, ?_⟩
      intro i c hc
      rcases getElem?_append_singleton_cases hc with ⟨hc, hlt⟩ | ⟨rfl, rfl⟩
      · exact h.undone i c hc
      · refine ⟨by simp, ?_⟩
        rintro (hq | ⟨deadline, hw⟩)
        · exact absurd (hnil ▸ hq) (by simp)
        · exact absurd (ht.awaited _ deadline hw).1 (Nat.lt_irrefl _)
  | gaveUp call =>
      refine ⟨h.early, h.off, h.working, ?_⟩
      intro i c' hc'
      obtain ⟨c, hc, hsame⟩ := outcome_of_giveUp hc'
      rw [hsame]
      exact h.undone i c hc
  | ended reason hopen => exact h.ended ht reason _
  | greeted hworker hopen hpump =>
      refine ⟨by simp [(ht.staged.working (by simp [hworker])).2], ?_, by simp, ?_⟩
      · intro hl
        rw [h.off hl] at hworker
        cases hworker
      · intro i c hc
        rw [waits_iff_queued (by simp)]
        exact (h.undone i c hc).trans (waits_iff_queued (by simp [hworker]) i)
  | overtaken hworker hover hunheard hpump =>
      refine ⟨h.early, fun _ => rfl, fun _ hopen => absurd hopen hover, ?_⟩
      intro i c hc
      rw [waits_iff_queued (by simp)]
      exact (h.undone i c hc).trans (waits_iff_queued (by simp [hworker]) i)
  | skipped hworker hqueue hcall hgone =>
      refine ⟨h.early, h.off, h.working, ?_⟩
      refine h.undone_of_finished (fun i c' => getElem?_modify_finish_cases) ?_
      intro i
      rw [waits_iff_queued (by simp [hworker]), waits_iff_queued (by simp [hworker]), hqueue]
      have hout := ht.head_not_queued hqueue
      grind
  | wrote hworker hqueue hcall hwaits hfree =>
      refine ⟨h.early, ?_, by simp, ?_⟩
      · intro hl
        rw [h.off hl] at hworker
        cases hworker
      · intro i c hc
        rw [h.undone i c hc, waits_iff_queued (s := s) (by simp [hworker]), hqueue,
          waits_of_awaiting rfl]
        simp [or_comm]
  | refused hworker hopen hqueue hcall hwaits hfail =>
      refine ⟨by simp [(ht.staged.working (by simp [hworker])).2], fun _ => rfl,
        by simp [reason?], ?_⟩
      refine h.undone_of_finished (P := (· ∈ s.queue)) (fun i c' => getElem?_finishAll_cases) ?_
      intro i
      simp [Waits, hworker]
  | answered hworker hunheard hpump hcall =>
      refine ⟨h.early, ?_, by simp, ?_⟩
      · intro hl
        rw [h.off hl] at hworker
        cases hworker
      · exact h.undone_of_landed hworker (ht.awaited_not_queued hworker) rfl rfl (by simp)
  | parted hworker hopen hpump hcall hlast =>
      refine ⟨by simp [(ht.staged.working (by simp [hworker])).2], fun _ => rfl,
        by simp [reason?], ?_⟩
      exact (h.ended ht (.plain .quit) s.log).undone_of_landed hworker (by simp) rfl rfl (by simp)
  | failed _ hworker hr | expired hworker hr | outlived hworker hr =>
      refine ⟨h.early, fun _ => rfl, fun _ hopen => absurd hopen hr, ?_⟩
      exact h.undone_of_landed hworker (ht.awaited_not_queued hworker) rfl rfl (by simp)
  | stopped hworker hr =>
      refine ⟨h.early, fun _ => rfl, fun _ hopen => absurd hopen hr, ?_⟩
      have hresting : ∀ call deadline, s.worker ≠ .awaiting call deadline := by
        rcases hworker with hw | hw <;> simp [hw]
      intro i c hc
      rw [waits_iff_queued (by simp)]
      exact (h.undone i c hc).trans (waits_iff_queued hresting i)

theorem Numbered.waiting (h : s.Numbered) (hp : s.Placed) (hc : s.calls[i]? = some c)
    (hw : s.Waits i) : i < s.accepted ∧ c.seq = i + 1 := by
  have hnone := (hp.undone i c hc).2 hw
  have hlt : i < s.accepted := by
    refine Nat.lt_of_not_le fun hle => ?_
    obtain ⟨-, r, -, ho⟩ := h.rejected i c hc hle
    rw [hnone] at ho
    cases ho
  exact ⟨hlt, h.accepted i c hc hlt⟩

/-! ### How calls end -/

/-- **How a call may get its outcome in an elementary change** from `s` to `s'`: it was in flight
and a frame was received for it, or its time was up; it was its turn and its caller had given up; or
the session is over. -/
inductive Ends (s s' : Session) (l : Label) (i : Nat) (c : Call) : Outcome → Prop where
  | answered {deadline : Option Nat} {text : Bytes} (hworker : s.worker = .awaiting i deadline)
      (hlog : answers s'.log = answers s.log ++ [(c.seq, text)]) :
      Ends s s' l i c (.answered (classify text))
  | canceled {rest : List Nat} (hgone : c.abandoned = true) (hqueue : s.queue = i :: rest)
      (hlog : s'.log = s.log) : Ends s s' l i c (.failed (.plain .canceled))
  | timedOut {deadline : Option Nat} (hlabel : l = .expired i)
      (hworker : s.worker = .awaiting i deadline) (hover : s.reason? ≠ none)
      (hoff : s'.worker = .off) :
      Ends s s' l i c (.failed (.timedOut s.options.commandTimeout c.command))
  | terminated (reason : Failure) : Ends s s' l i c (.failed (.ofTermination reason))

/-- Whoever is canceled had given up. -/
theorem Ends.of_canceled (h : s.Ends s' l i c (.failed (.plain .canceled))) :
    c.abandoned = true ∧ i ∈ s.queue ∧ s'.log = s.log := by
  generalize hcause : Failure.plain .canceled = cause at h
  cases h with
  | canceled hgone hqueue hlog => exact ⟨hgone, by simp [hqueue], hlog⟩
  | timedOut => cases hcause
  | terminated r => exact absurd hcause.symm (Failure.ofTermination_ne rfl r)

/-- Whoever times out was in flight, and stops the worker. -/
theorem Ends.of_timedOut {after : Duration} {command : Bytes}
    (h : s.Ends s' l i c (.failed (.timedOut after command))) :
    l = .expired i ∧ (∃ deadline, s.worker = .awaiting i deadline) ∧ s.reason? ≠ none ∧
      s'.worker = .off ∧ after = s.options.commandTimeout ∧ command = c.command := by
  generalize hcause : Failure.timedOut after command = cause at h
  cases h with
  | canceled => cases hcause
  | timedOut hlabel hworker hover hoff =>
      cases hcause
      exact ⟨hlabel, ⟨_, hworker⟩, hover, hoff, rfl, rfl⟩
  | terminated r => exact absurd hcause.symm (Failure.ofTermination_ne rfl r)

/-- A call that was finished has the outcome it had, or the new one. -/
theorem outcome_finish_cases {o o' : Outcome} (h : (c.finish o).outcome = some o') :
    c.outcome = some o' ∨ o' = o := by
  cases ho : c.outcome with
  | none =>
      rw [Call.finish_of_none ho] at h
      exact .inr (Option.some.inj h).symm
  | some p =>
      rw [Call.finish_of_some ho, ho] at h
      exact .inl h

theorem outcome_modify_cases {o o' : Outcome}
    (hc' : (calls.modify call (Call.finish o))[i]? = some c') (ho : c'.outcome = some o') :
    (∃ c, calls[i]? = some c ∧ c.outcome = some o') ∨
      i = call ∧ o' = o ∧ ∃ c, calls[i]? = some c ∧ c' = c.finish o := by
  obtain ⟨c, hc, ⟨hi, rfl⟩ | ⟨-, rfl⟩⟩ := getElem?_modify_finish_cases hc'
  · rcases outcome_finish_cases ho with hold | rfl
    · exact .inl ⟨c, hc, hold⟩
    · exact .inr ⟨hi, rfl, c, hc, rfl⟩
  · exact .inl ⟨c', hc, ho⟩

theorem outcome_finishAll_cases {queue : List Nat} {o o' : Outcome}
    (hc' : (finishAll o queue calls)[i]? = some c') (ho : c'.outcome = some o') :
    (∃ c, calls[i]? = some c ∧ c.outcome = some o') ∨ o' = o := by
  obtain ⟨c, hc, ⟨-, rfl⟩ | ⟨-, rfl⟩⟩ := getElem?_finishAll_cases hc'
  · rcases outcome_finish_cases ho with hold | hnew
    · exact .inl ⟨c, hc, hold⟩
    · exact .inr hnew
  · exact .inl ⟨c', hc, ho⟩

/-- **A call has the outcome it had, or gets one in one of the known ways.** -/
theorem Change.ends (h : s.Change l s') (hc' : s'.calls[i]? = some c') (ho : c'.outcome = some o) :
    (∃ c, s.calls[i]? = some c ∧ c.outcome = some o) ∨ s.Ends s' l i c' o := by
  cases h with
  | aside | ticked | printed | starting | stranded | launched | announced | greeted | overtaken
  | wrote | stopped | read | dropped | drained | departed => exact .inl ⟨c', hc', ho⟩
  | accepted command last =>
      rcases getElem?_append_singleton_cases hc' with ⟨hc, -⟩ | ⟨-, rfl⟩
      · exact .inl ⟨c', hc, ho⟩
      · cases ho
  | rejected command last =>
      rcases getElem?_append_singleton_cases hc' with ⟨hc, -⟩ | ⟨-, rfl⟩
      · exact .inl ⟨c', hc, ho⟩
      · cases ho
        exact .inr (.terminated _)
  | gaveUp call =>
      obtain ⟨c, hc, hsame⟩ := outcome_of_giveUp hc'
      exact .inl ⟨c, hc, hsame ▸ ho⟩
  | ended | refused =>
      rcases outcome_finishAll_cases hc' ho with hold | rfl
      · exact .inl hold
      · exact .inr (.terminated _)
  | @skipped call rest c hworker hqueue hcall hgone =>
      rcases outcome_modify_cases hc' ho with hold | ⟨rfl, rfl, c₁, hc, rfl⟩
      · exact .inl hold
      · rw [hcall] at hc
        cases hc
        exact .inr (.canceled (by simpa using hgone) hqueue rfl)
  | @answered call deadline c _ _ _ _ hworker hunheard hpump hcall =>
      rcases outcome_modify_cases hc' ho with hold | ⟨rfl, rfl, c₁, hc, rfl⟩
      · exact .inl hold
      · rw [hcall] at hc
        cases hc
        exact .inr (.answered hworker (by simp))
  | @parted call deadline c _ _ hworker hopen hpump hcall =>
      rcases outcome_modify_cases hc' ho with ⟨c₁, hc, hold⟩ | ⟨rfl, rfl, c₁, hc, rfl⟩
      · rcases outcome_finishAll_cases hc hold with hold | rfl
        · exact .inl hold
        · exact .inr (.terminated _)
      · obtain ⟨c₂, hc₂, ⟨-, rfl⟩ | ⟨-, rfl⟩⟩ := getElem?_finishAll_cases hc
        all_goals
          rw [hcall] at hc₂
          cases hc₂
          exact .inr (.answered hworker (by simp))
  | @outlived call deadline c _ _ hworker hover hunheard hpump hcall =>
      rcases outcome_modify_cases hc' ho with hold | ⟨rfl, rfl, c₁, hc, rfl⟩
      · exact .inl hold
      · rw [hcall] at hc
        cases hc
        exact .inr (.answered hworker (by simp))
  | failed reason =>
      rcases outcome_modify_cases hc' ho with hold | ⟨-, rfl, -⟩
      · exact .inl hold
      · exact .inr (.terminated reason)
  | @expired call deadline c hworker hover hcall =>
      rcases outcome_modify_cases hc' ho with hold | ⟨rfl, rfl, c₁, hc, rfl⟩
      · exact .inl hold
      · rw [hcall] at hc
        cases hc
        refine .inr ?_
        simpa using Ends.timedOut (c := c.finish _) rfl hworker hover rfl

/-! ### Every play -/

/-- **Induction along a play**, over a ledger in order. -/
theorem ledger_induction {P : List Bytes → Session → Prop}
    (hstep : ∀ {chunks : List Bytes} {s s' : Session} {l : Label},
      s.Tidy → s.Numbered → s.Placed → P chunks s → s.Change l s' → P (chunks ++ l.chunks) s')
    (options : Options) (h : P [] (new options)) (acts : List Act) :
    P ((new options).printed acts) ((new options).play acts) :=
  (play_induction (P := fun chunks t => t.Numbered ∧ t.Placed ∧ P chunks t)
    (fun ht h hc => ⟨h.1.change hc, h.2.1.change ht hc, hstep ht h.1 h.2.1 h.2.2 hc⟩) []
    (tidy_new options) ⟨numbered_new options, placed_new options, h⟩ acts).2.2.2

/-- Calls are numbered in order after every play. -/
theorem numbered_play (options : Options) (acts : List Act) : ((new options).play acts).Numbered :=
  ledger_induction (P := fun _ t => t.Numbered) (fun _ _ _ h hc => h.change hc) options
    (numbered_new options) acts

theorem placed_play (options : Options) (acts : List Act) : ((new options).play acts).Placed :=
  ledger_induction (P := fun _ t => t.Placed) (fun ht _ _ h hc => h.change ht hc) options
    (placed_new options) acts

end Session

end ReplBridge.Repl
