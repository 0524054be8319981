import ReplBridge.Editor.Intake
import ReplBridge.Proofs.Editor.Moves

/-!
**The reading of an editor's bytes comes to an end.**

The reading is given a number of steps for each portion of bytes.  A byte that is taken up makes
three steps at most: it goes into a block, from there into a line or a body, and a header may go
over into a body with it.  So the steps suffice whatever arrives, and each portion is read up to the
point where more bytes are needed or nothing more is read.  If the editor asks for the end, the
reading is not left open: the stream is over with the last event of that very portion.

Main definitions:

* `Intake.size` — the steps that are left, at most;
* `Intake.Steps`, `Intake.Reads` — what a step of the reading comes to, and what a portion does.

Main results:

* `Intake.step_steps` — each step makes the size smaller;
* `Intake.feed_reads` — **a portion is read to its end**.
-/

set_option autoImplicit false

namespace ReplBridge

theorem Bytes.cut?_go_shorter {pat passed s before rest : Bytes} (hpat : pat ≠ [])
    (h : Bytes.cut?.go pat passed s = some (before, rest)) : rest.length < s.length := by
  have hpos : 0 < pat.length := List.length_pos_iff.2 hpat
  induction s generalizing passed with
  | nil => simp [Bytes.cut?.go, hpat] at h
  | cons b s ih =>
      rw [Bytes.cut?.go] at h
      split at h
      · obtain ⟨-, rfl⟩ := Prod.mk.inj (Option.some.inj h)
        rw [List.length_drop, List.length_cons]
        omega
      · exact Nat.lt_succ_of_lt (ih h)

/-- What stands behind a mark is shorter than the whole. -/
theorem Bytes.cut?_shorter {pat s before rest : Bytes} (hpat : pat ≠ [])
    (h : Bytes.cut? pat s = some (before, rest)) : rest.length < s.length :=
  Bytes.cut?_go_shorter hpat h

theorem Bytes.length_pos_of_not_isEmpty {s : Bytes} (h : ¬ s.isEmpty = true) : 0 < s.length :=
  List.length_pos_iff.2 (by simpa using h)

namespace Editor

namespace Event

/-- Whether an event brings the request that asks for the end. -/
def isExit : Event → Bool
  | .request r => r.isExit
  | _ => false

/-- Whether an event brings a request. -/
def isRequest : Event → Bool
  | .request _ => true
  | _ => false

theorem not_closes_of_isRequest {e : Event} (h : e.isRequest = true) : e.closes = false := by
  cases e with
  | request => rfl
  | _ => cases h

end Event

namespace Intake

/-! ### One step -/

/-- **The steps that are left**, at most, before more bytes are needed. -/
def size (i : Intake) (source : Bytes) : Nat :=
  3 * source.length + 2 * i.block.length +
    match i.stage with
    | .header _ _ => 0
    | .body _ _ => 1

theorem size_header {i : Intake} {length : Option Nat} {line : Bytes} (source : Bytes)
    (h : i.stage = .header length line) :
    i.size source = 3 * source.length + 2 * i.block.length := by
  simp [size, h]

theorem size_body {i : Intake} {missing : Nat} {data : Bytes} (source : Bytes)
    (h : i.stage = .body missing data) :
    i.size source = 3 * source.length + 2 * i.block.length + 1 := by
  simp [size, h]

theorem size_le (i : Intake) (source : Bytes) :
    i.size source ≤ 3 * source.length + 2 * i.block.length + 1 := by
  unfold size
  split <;> omega

/-- **What a step of the reading comes to.**  If it goes on, fewer steps are left; the events are
requests, and with one that asks for the end nothing more is taken up. -/
inductive Steps (i : Intake) (source : Bytes) : Step → Prop where
  | waits : Steps i source .waits
  | ends {e : Event} (hcloses : e.closes = true) : Steps i source (.ends e)
  | goesOn {event : Option Event} {i' : Intake} {source' : Bytes}
      (hstopped : i'.stopped = i.stopped) (hclosed : i.closed = true → i'.closed = true)
      (hevent : ∀ e ∈ event, e.isRequest = true ∧ (e.isExit = true → i'.closed = true))
      (hsize : i'.size source' < i.size source) : Steps i source (.goesOn event i' source')

theorem line_steps {i : Intake} {length : Option Nat} {before now rest : Bytes} (source : Bytes)
    (hstage : i.stage = .header length before)
    (hcut : Bytes.cut? [0x0A] i.block = some (now, rest)) :
    i.Steps source ({ i with block := rest }.line length (before ++ now) source) := by
  have hshorter := Bytes.cut?_shorter (by simp) hcut
  have hsize := size_header source hstage
  have hgoes (stage : Stage) :
      i.Steps source (.goesOn none { i with block := rest, stage := stage } source) := by
    refine .goesOn rfl id (by simp) ?_
    have hle := size_le { i with block := rest, stage := stage } source
    dsimp only at hle
    omega
  unfold line
  split
  · split
    · exact hgoes _
    · exact .ends rfl
  · exact hgoes _
  · exact hgoes _
  · exact .ends rfl

theorem body_steps {i : Intake} {missing : Nat} {data : Bytes} (source : Bytes)
    (hstage : i.stage = .body missing data) : i.Steps source (i.body data source) := by
  have hsize := size_body source hstage
  unfold body
  dsimp only
  split
  · exact .ends rfl
  · exact .ends rfl
  · refine .goesOn rfl id (by simp) ?_
    rw [size_header source rfl]
    dsimp only
    omega
  · split
    · -- What was not taken up is dropped.
      refine .goesOn rfl (fun _ => rfl) (by simp [Event.isRequest]) ?_
      rw [size_header [] rfl]
      dsimp only [List.length_nil]
      omega
    · rename_i r hexit
      refine .goesOn rfl id ?_ ?_
      · rintro e he
        obtain rfl := Option.mem_some_iff.1 he
        exact ⟨rfl, fun h => absurd h hexit⟩
      · rw [size_header source rfl]
        dsimp only
        omega

/-- **Each step of the reading makes the size smaller.** -/
theorem step_steps (i : Intake) (source : Bytes) : i.Steps source (i.step source) := by
  unfold step
  split
  · rename_i length before hstage
    have hsize := size_header source hstage
    split
    · rename_i now rest hcut
      exact line_steps source hstage hcut
    · split
      · exact .waits
      have hsource : 0 < source.length := Bytes.length_pos_of_not_isEmpty ‹_›
      split
      · -- A full block goes into the line.
        have hfull : 0 < i.block.length := Nat.lt_of_lt_of_le (by decide) ‹blockSize ≤ _›
        refine .goesOn rfl id (by simp) ?_
        rw [size_header source rfl]
        dsimp only [List.length_nil]
        omega
      · refine .goesOn rfl id (by simp) ?_
        rw [size_header _ (by exact hstage)]
        dsimp only
        rw [List.length_append, List.length_take, List.length_drop]
        omega
  · rename_i missing data hstage
    have hsize := size_body source hstage
    split
    · exact body_steps source hstage
    split
    · have hblock : 0 < i.block.length := by
        refine Bytes.length_pos_of_not_isEmpty ?_
        rwa [Bool.not_eq_true, ← Bool.not_eq_true']
      refine .goesOn rfl id (by simp) ?_
      rw [size_body source rfl]
      dsimp only
      rw [List.length_drop]
      omega
    split
    · exact .waits
    have hsource : 0 < source.length := Bytes.length_pos_of_not_isEmpty ‹_›
    split
    · refine .goesOn rfl id (by simp) ?_
      rw [size_body _ rfl]
      dsimp only
      rw [List.length_drop]
      omega
    · have hsize' : 0 < blockSize := by decide
      refine .goesOn rfl id (by simp) ?_
      rw [size_body _ (by exact hstage)]
      dsimp only
      rw [List.length_take, List.length_drop]
      omega

/-! ### A portion -/

/-- **What a portion comes to.**  Either the reading waits for more, and all events are requests,
none of which asks for the end; or the stream is over with the last event, after requests, and
nothing more is read. -/
inductive Reads : List Event × Intake → Prop where
  | waits {events : List Event} {i : Intake} (hstopped : i.stopped = false)
      (hevents : ∀ e ∈ events, e.isRequest = true ∧ e.isExit = false) : Reads (events, i)
  | stops (front : List Event) {last : Event} {i : Intake} (hstopped : i.stopped = true)
      (hfront : ∀ e ∈ front, e.isRequest = true) (hlast : last.closes = true) :
      Reads (front ++ [last], i)

/-- A request before the others, which asks for the end only if the reading comes to its end. -/
theorem Reads.cons {events : List Event} {i : Intake} {e : Event} (h : Reads (events, i))
    (hrequest : e.isRequest = true) (hexit : e.isExit = true → i.stopped = true) :
    Reads (e :: events, i) := by
  cases h with
  | waits hstopped hevents =>
      refine .waits hstopped ?_
      intro e' he'
      rcases List.mem_cons.1 he' with rfl | he'
      · exact ⟨hrequest, by simpa [hstopped] using hexit⟩
      · exact hevents e' he'
  | @stops front last _ hstopped hfront hlast =>
      refine .stops (e :: front) hstopped ?_ hlast
      intro e' he'
      rcases List.mem_cons.1 he' with rfl | he'
      · exact hrequest
      · exact hfront e' he'

/-- One portion after another. -/
theorem Reads.append {events more : List Event} {i i' : Intake} (h : Reads (events, i))
    (hopen : i.stopped = false) (h' : Reads (more, i')) : Reads (events ++ more, i') := by
  cases h with
  | stops _ hstopped => simp [hstopped] at hopen
  | waits _ hevents =>
      induction events with
      | nil => exact h'
      | cons e events ih =>
          obtain ⟨hrequest, hexit⟩ := hevents e (by simp)
          exact (ih fun e' he' => hevents e' (by simp [he'])).cons hrequest (by simp [hexit])

/-- The stream is over with the last event, and with no other. -/
theorem Reads.closes_last {before after : List Event} {i : Intake} (h : Reads (before ++ after, i))
    {e : Event} (he : e ∈ before) (hcloses : e.closes = true) : after = [] := by
  generalize hall : before ++ after = events at h
  cases h with
  | waits _ hevents =>
      have hrequest := (hevents e (hall ▸ List.mem_append_left _ he)).1
      simp [Event.not_closes_of_isRequest hrequest] at hcloses
  | @stops front last _ _ hfront =>
      rcases List.append_eq_append_iff.1 hall with ⟨mid, rfl, -⟩ | ⟨mid, rfl, hlast⟩
      · have hrequest := hfront e (List.mem_append_left _ he)
        simp [Event.not_closes_of_isRequest hrequest] at hcloses
      · rcases List.append_eq_singleton_iff.1 hlast.symm with ⟨rfl, -⟩ | ⟨-, hnil⟩
        · have hrequest := hfront e (by simpa using he)
          simp [Event.not_closes_of_isRequest hrequest] at hcloses
        · exact hnil

theorem Reads.request_or_closes {events : List Event} {i : Intake} (h : Reads (events, i))
    {e : Event} (he : e ∈ events) : e.isRequest = true ∨ e.closes = true := by
  cases h with
  | waits _ hevents => exact .inl (hevents e he).1
  | stops _ _ hfront hlast =>
      rcases List.mem_append.1 he with he | he
      · exact .inl (hfront e he)
      · exact .inr (List.mem_singleton.1 he ▸ hlast)

/-- Once nothing more is read, the stream is over with some event. -/
theorem Reads.closed {events : List Event} {i : Intake} (h : Reads (events, i))
    (hstopped : i.stopped = true) : ∃ e ∈ events, e.closes = true := by
  cases h with
  | waits hopen => simp [hopen] at hstopped
  | @stops front last _ _ _ hlast => exact ⟨last, by simp, hlast⟩

theorem Reads.stopped_of_isExit {events : List Event} {i : Intake} (h : Reads (events, i))
    {e : Event} (he : e ∈ events) (hexit : e.isExit = true) : i.stopped = true := by
  cases h with
  | waits _ hevents => simp [(hevents e he).2] at hexit
  | stops _ hstopped => exact hstopped

/-- The steps suffice, and a reading that takes nothing more up comes to its end. -/
theorem run_reads (fuel : Nat) (i : Intake) (source : Bytes) (hfuel : i.size source < fuel)
    (hstopped : i.stopped = false) :
    Reads (run fuel i source) ∧ (i.closed = true → (run fuel i source).2.stopped = true) := by
  induction fuel generalizing i source with
  | zero => omega
  | succ fuel ih =>
      have hstep := step_steps i source
      unfold run
      generalize i.step source = step at hstep
      cases hstep with
      | waits =>
          cases hclosed : i.closed with
          | true => exact ⟨.stops [] rfl (by simp) rfl, fun _ => rfl⟩
          | false => exact ⟨.waits hstopped (by simp), by simp⟩
      | ends hcloses => exact ⟨.stops [] rfl (by simp) hcloses, fun _ => rfl⟩
      | @goesOn event i' source' hsame hclosed hevent hsize =>
          obtain ⟨hreads, hends⟩ := ih i' source' (by omega) (hsame.trans hstopped)
          refine ⟨?_, fun h => hends (hclosed h)⟩
          cases event with
          | none => exact hreads
          | some e =>
              obtain ⟨hrequest, hexit⟩ := hevent e rfl
              exact hreads.cons hrequest fun h => hends (hexit h)

/-- **A portion is read to its end.** -/
theorem feed_reads {i : Intake} (h : i.stopped = false) (source : Bytes) :
    Reads (i.feed source) := by
  rw [feed, if_neg (by simp [h])]
  refine (run_reads _ i source ?_ h).1
  have hle := size_le i source
  omega

theorem feed_of_stopped {i : Intake} (h : i.stopped = true) (source : Bytes) :
    i.feed source = ([], i) := by
  rw [feed, if_pos h]

theorem finish_closes (i : Intake) : i.finish.closes = true := by
  unfold finish
  split <;> rfl

end Intake

end Editor

end ReplBridge
