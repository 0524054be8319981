import Mathlib.Data.List.TakeDrop
import ReplBridge.Terminal.Sanitizer

/-!
**What stripping does to the length of a text.**

Stripping only leaves bytes out, and what a sanitizer keeps back it has not passed on.  So for each
chunk, what is passed on and what is kept back are together no longer than what came in and what was
kept back before.

Main results:

* `Terminal.length_strip_le` — stripping does not make a text longer;
* `Terminal.Sanitizer.length_write_le` — **a sanitizer makes no bytes**.
-/

set_option autoImplicit false

namespace ReplBridge

theorem Bytes.length_cutLast? {p : UInt8 → Bool} {s before body : Bytes}
    (h : Bytes.cutLast? p s = some (before, body)) :
    before.length + (body.length + 1) = s.length := by
  have hall : ((s.reverse.span fun b => !p b).1 ++ (s.reverse.span fun b => !p b).2).length =
      s.length := by
    rw [List.span_eq_takeWhile_dropWhile, List.takeWhile_append_dropWhile, List.length_reverse]
  unfold Bytes.cutLast? at h
  split at h
  · cases h
  · rename_i after b rest hspan
    obtain ⟨rfl, rfl⟩ := Prod.mk.inj (Option.some.inj h)
    rw [hspan] at hall
    simp only [List.length_append, List.length_cons, List.length_reverse] at hall ⊢
    omega

namespace Terminal

theorem length_run_le (kept : Bytes) (q : State) (s : Bytes) :
    (run kept q s).1.length ≤ kept.length + s.length := by
  induction s generalizing kept q with
  | nil => simp [run]
  | cons b s ih =>
      rw [run, List.length_cons]
      split
      · rename_i q' hstep
        have := ih (b :: kept) q'
        rw [List.length_cons] at this
        omega
      · rename_i q' hstep
        have := ih kept q'
        omega

/-- Stripping does not make a text longer. -/
theorem length_strip_le (s : Bytes) : (strip s).length ≤ s.length := by
  simpa [strip] using length_run_le [] .ground s

theorem length_beforeOpenEscape (s : Bytes) :
    (beforeOpenEscape s).1.length + (beforeOpenEscape s).2.length = s.length := by
  unfold beforeOpenEscape
  split
  · rfl
  · rename_i before body hcut
    split
    · rfl
    · simpa using Bytes.length_cutLast? hcut

/-- A text divides into what can be stripped now and what has to wait. -/
theorem length_ready (s : Bytes) : (ready s).1.length + (ready s).2.length = s.length := by
  have hcut := length_beforeOpenEscape s
  simp only [ready, List.length_reverse, List.length_append, List.length_drop, List.length_take]
  omega

/-- **A sanitizer makes no bytes.** -/
theorem Sanitizer.length_write_le (s : Sanitizer) (chunk : Bytes) :
    (s.write chunk).1.held.length + (s.write chunk).2.length ≤ s.held.length + chunk.length := by
  have hready := length_ready (s.held ++ chunk)
  have hstrip := length_strip_le (ready (s.held ++ chunk)).1
  rw [List.length_append] at hready
  simp only [Sanitizer.write]
  omega

end Terminal

end ReplBridge
