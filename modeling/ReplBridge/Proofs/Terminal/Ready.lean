import Mathlib.Data.List.Induction
import Mathlib.Data.List.TakeWhile
import ReplBridge.Proofs.Terminal.Sanitizer
import ReplBridge.Proofs.Text.Split
import ReplBridge.Proofs.Text.Utf8

/-!
**What is kept back does not depend on how a text came.**

A sanitizer divides what it has into a part that can be stripped now and an end that has to wait.
When more comes, only the end that waited is looked at again.  This is enough: the whole text would
be divided at the same place, whatever its bytes are.

Three facts carry this.  An escape sequence that has reached its end stays a whole one however the
text goes on, and one that is too long to be waited for stays so.  An encoding that is kept back
begins with a byte that no look back goes beyond.  And where nothing is kept back, no later byte
makes the end of the text the beginning of an encoding.

Main results:

* `Terminal.beforeOpenEscape_resume`, `Terminal.openScalar_resume` — the two looks back;
* `Terminal.ready_append` — **a text is divided alike whether it comes at once or in two parts**.
-/

set_option autoImplicit false

namespace ReplBridge.Terminal

/-! ### Looking back for an escape sequence -/

/-- A whole escape sequence stays whole. -/
theorem escapeComplete_append {s : Bytes} (h : escapeComplete s = true) (more : Bytes) :
    escapeComplete (s ++ more) = true := by
  cases s with
  | nil => cases h
  | cons kind body =>
      simp only [escapeComplete, List.cons_append] at h ⊢
      split
      · rename_i hkind
        simp only [hkind, if_true] at h
        rw [List.any_append, h, Bool.true_or]
      split
      · rename_i hcontrol hkind
        simp only [hcontrol, hkind, if_true, Bool.false_eq_true, if_false] at h
        simp only [Bool.or_eq_true, List.contains_iff_mem] at h ⊢
        rcases h with hbel | hterminator
        · exact .inl (List.mem_append_left _ hbel)
        · rw [Bytes.occurs_iff (by simp)] at hterminator ⊢
          exact .inr (hterminator.trans (List.prefix_append _ _).isInfix)
      split
      · rename_i hcontrol hstring hkind
        simp only [hcontrol, hstring, hkind, if_true, Bool.false_eq_true, if_false] at h
        rw [List.any_append, h, Bool.true_or]
      · rfl

/-- A sequence that is not waited for: it is too long, or whole. -/
def Past (body : Bytes) : Prop := maxHeld < body.length + 1 ∨ escapeComplete body = true

theorem Past.append {body : Bytes} (h : Past body) (more : Bytes) : Past (body ++ more) := by
  rcases h with hlong | hwhole
  · exact .inl (by rw [List.length_append]; omega)
  · exact .inr (escapeComplete_append hwhole more)

theorem beforeOpenEscape_of_free {s : Bytes} (h : esc ∉ s) : beforeOpenEscape s = (s, []) := by
  have hfree : ∀ b ∈ s, (b == esc) = false := by
    intro b hb
    rw [beq_eq_false_iff_ne]
    rintro rfl
    exact h hb
  unfold beforeOpenEscape
  rw [Bytes.cutLast?_of_free hfree]

theorem cutLast?_esc (before : Bytes) {body : Bytes} (h : esc ∉ body) :
    Bytes.cutLast? (· == esc) (before ++ esc :: body) = some (before, body) := by
  refine Bytes.cutLast?_append before (by simp) ?_
  intro b hb
  rw [beq_eq_false_iff_ne]
  rintro rfl
  exact h hb

theorem beforeOpenEscape_of_past (before : Bytes) {body : Bytes} (h : esc ∉ body)
    (hpast : Past body) :
    beforeOpenEscape (before ++ esc :: body) = (before ++ esc :: body, []) := by
  unfold beforeOpenEscape
  rw [cutLast?_esc before h]
  rcases hpast with hlong | hwhole
  · simp [hlong]
  · simp [hwhole]

theorem beforeOpenEscape_of_open (before : Bytes) {body : Bytes} (h : esc ∉ body)
    (hopen : ¬ Past body) : beforeOpenEscape (before ++ esc :: body) = (before, esc :: body) := by
  obtain ⟨hshort, hunfinished⟩ := not_or.1 hopen
  unfold beforeOpenEscape
  rw [cutLast?_esc before h]
  simp [hshort, hunfinished]

theorem beforeOpenEscape_cases (s : Bytes) :
    (esc ∉ s ∧ beforeOpenEscape s = (s, [])) ∨
      ∃ before body, s = before ++ esc :: body ∧ esc ∉ body ∧
        (Past body ∧ beforeOpenEscape s = (s, []) ∨
          ¬ Past body ∧ beforeOpenEscape s = (before, esc :: body)) := by
  rcases Bytes.free_or_last (· == esc) s with hfree | ⟨before, b, body, rfl, hb, hbody⟩
  · have hs : esc ∉ s := fun hmem => by simpa using hfree esc hmem
    exact .inl ⟨hs, beforeOpenEscape_of_free hs⟩
  · obtain rfl : b = esc := by simpa using hb
    have hrest : esc ∉ body := fun hmem => by simpa using hbody esc hmem
    refine .inr ⟨before, body, rfl, hrest, ?_⟩
    by_cases hpast : Past body
    · exact .inl ⟨hpast, beforeOpenEscape_of_past before hrest hpast⟩
    · exact .inr ⟨hpast, beforeOpenEscape_of_open before hrest hpast⟩

theorem beforeOpenEscape_join (s : Bytes) :
    (beforeOpenEscape s).1 ++ (beforeOpenEscape s).2 = s := by
  rcases beforeOpenEscape_cases s with ⟨-, heq⟩ | ⟨before, body, hs, -, ⟨-, heq⟩ | ⟨-, heq⟩⟩
  · simp [heq]
  · simp [heq]
  · rw [heq, hs]

/-- **The look back for an escape sequence** goes no further than to the end that waited, which may
have some bytes before its escape byte. -/
theorem beforeOpenEscape_resume (x y : Bytes) {a f : Bytes}
    (hcut : (beforeOpenEscape x).1 = a ++ f) (hf : esc ∉ f) :
    ∃ z e, beforeOpenEscape (x ++ y) = (a ++ f ++ z, e) ∧
      beforeOpenEscape (f ++ (beforeOpenEscape x).2 ++ y) = (f ++ z, e) := by
  have hjoin : a ++ f ++ (beforeOpenEscape x).2 = x := by rw [← hcut, beforeOpenEscape_join]
  rcases beforeOpenEscape_cases y with ⟨hy, -⟩ | ⟨y₁, y₂, rfl, hy₂, -⟩
  · -- What has come holds no escape byte, so the last one is where it was.
    rcases beforeOpenEscape_cases x with ⟨hx, heq⟩ |
      ⟨before, body, hx, hbody, ⟨hpast, heq⟩ | ⟨hopen, heq⟩⟩
    · rw [heq] at hjoin ⊢
      simp only [List.append_nil] at hjoin ⊢
      refine ⟨y, [], ?_, beforeOpenEscape_of_free (by simp [hf, hy])⟩
      rw [hjoin]
      exact beforeOpenEscape_of_free (by simp [hx, hy])
    · rw [heq] at hjoin ⊢
      simp only [List.append_nil] at hjoin ⊢
      refine ⟨y, [], ?_, beforeOpenEscape_of_free (by simp [hf, hy])⟩
      have hlast : x ++ y = before ++ esc :: (body ++ y) := by simp [hx]
      rw [hjoin, hlast]
      exact beforeOpenEscape_of_past before (by simp [hbody, hy]) (hpast.append y)
    · rw [heq] at hcut ⊢
      dsimp only at hcut ⊢
      subst hcut hx
      have hfree : esc ∉ body ++ y := by simp [hbody, hy]
      by_cases hpast : Past (body ++ y)
      · refine ⟨esc :: (body ++ y), [], ?_, ?_⟩
        · simpa using beforeOpenEscape_of_past (a ++ f) hfree hpast
        · simpa using beforeOpenEscape_of_past f hfree hpast
      · refine ⟨[], esc :: (body ++ y), ?_, ?_⟩
        · simpa using beforeOpenEscape_of_open (a ++ f) hfree hpast
        · simpa using beforeOpenEscape_of_open f hfree hpast
  · have hwhole : x ++ (y₁ ++ esc :: y₂) =
        (a ++ f ++ (beforeOpenEscape x).2 ++ y₁) ++ esc :: y₂ := by
      rw [hjoin, List.append_assoc]
    rw [hwhole]
    by_cases hpast : Past y₂
    · refine ⟨(beforeOpenEscape x).2 ++ (y₁ ++ esc :: y₂), [], ?_, ?_⟩
      · rw [beforeOpenEscape_of_past _ hy₂ hpast]
        simp
      · rw [← List.append_assoc _ y₁, beforeOpenEscape_of_past _ hy₂ hpast]
        simp
    · refine ⟨(beforeOpenEscape x).2 ++ y₁, esc :: y₂, ?_, ?_⟩
      · rw [beforeOpenEscape_of_open _ hy₂ hpast]
        simp
      · rw [← List.append_assoc _ y₁, beforeOpenEscape_of_open _ hy₂ hpast]
        simp

/-! ### Looking back for an encoding -/

/-- The beginning of an encoding is found. -/
theorem openScalar_of_incomplete {lead : UInt8} {tails : Bytes} (hlead : Utf8.isTail lead = false)
    (htails : ∀ t ∈ tails, Utf8.isTail t = true)
    (h : Utf8.incomplete (lead :: tails.reverse) = true) (back : Bytes) :
    openScalar (tails ++ lead :: back) = tails.length + 1 := by
  match tails with
  | [] =>
      simp only [List.reverse_nil] at h
      simp [openScalar, hlead, h]
  | [t] =>
      have ht := htails t (by simp)
      simp only [List.reverse_singleton] at h
      simp [openScalar, hlead, ht, h]
  | [t, u] =>
      have ht := htails t (by simp)
      have hu := htails u (by simp)
      have hrev : lead :: [t, u].reverse = [lead, u, t] := rfl
      rw [hrev] at h
      simp [openScalar, hlead, ht, hu, h]
  | t :: u :: v :: tails =>
      -- No encoding of more than three bytes is unfinished.
      cases hrev : (t :: u :: v :: tails).reverse with
      | nil => simp at hrev
      | cons a rest =>
          have hlen := congrArg List.length hrev
          rw [hrev] at h
          match rest with
          | [] => simp at hlen
          | [b] => simp at hlen
          | b :: c :: rest => simp [Utf8.incomplete] at h

/-- What is found is the beginning of an encoding. -/
theorem exists_of_openScalar {back : Bytes} (h : openScalar back ≠ 0) :
    ∃ tails lead rest, back = tails ++ lead :: rest ∧ Utf8.isTail lead = false ∧
      (∀ t ∈ tails, Utf8.isTail t = true) ∧ Utf8.incomplete (lead :: tails.reverse) = true := by
  unfold openScalar at h
  split at h
  · exact absurd rfl h
  rename_i a rest
  cases ha : Utf8.isTail a with
  | false =>
      refine ⟨[], a, rest, rfl, ha, by simp, ?_⟩
      simpa [ha] using h
  | true =>
      simp only [ha, Bool.not_true, Bool.false_eq_true, if_false] at h
      split at h
      · exact absurd rfl h
      rename_i b rest
      cases hb : Utf8.isTail b with
      | false =>
          refine ⟨[a], b, rest, rfl, hb, by simpa using ha, ?_⟩
          simpa [hb] using h
      | true =>
          simp only [hb, Bool.not_true, Bool.false_eq_true, if_false] at h
          split at h
          · exact absurd rfl h
          rename_i c rest
          cases hc : Utf8.isTail c with
          | false =>
              refine ⟨[a, b], c, rest, rfl, hc, by simp [ha, hb], ?_⟩
              simpa [hc] using h
          | true => simp [hc] at h

/-- What begins an encoding begins it at any length. -/
theorem incomplete_of_longer (lead : UInt8) (tails : Bytes) {more : Bytes}
    (h : Utf8.incomplete (lead :: tails ++ more) = true) :
    Utf8.incomplete (lead :: tails) = true := by
  induction more using List.reverseRecOn with
  | nil => simpa using h
  | append_singleton more t ih =>
      rw [← List.append_assoc] at h
      exact ih (Utf8.incomplete_of_append h)

/-- A text whose end begins no encoding does not become the beginning of one. -/
theorem openScalar_append {back : Bytes} (h : openScalar back = 0) (r : Bytes) :
    openScalar (r ++ back) = openScalar r := by
  by_cases hr : openScalar r = 0
  · rw [hr]
    by_contra hne
    obtain ⟨tails, lead, rest, heq, hlead, htails, hopen⟩ := exists_of_openScalar hne
    rcases List.append_eq_append_iff.1 heq with ⟨tails', rfl, hback⟩ | ⟨r', hr', hback⟩
    · -- The leading byte was there before, and began an encoding already.
      rw [List.reverse_append, ← List.cons_append] at hopen
      have hbefore := openScalar_of_incomplete hlead
        (fun t ht => htails t (List.mem_append_right r ht)) (incomplete_of_longer lead _ hopen) rest
      rw [← hback] at hbefore
      omega
    · cases r' with
      | nil =>
          rw [List.nil_append] at hback
          have hfirst : Utf8.incomplete [lead] = true := incomplete_of_longer lead [] hopen
          simp [← hback, openScalar, hlead, hfirst] at h
      | cons b r' =>
          obtain ⟨rfl, -⟩ := List.cons.inj hback
          rw [hr', openScalar_of_incomplete hlead htails hopen] at hr
          cases hr
  · obtain ⟨tails, lead, rest, rfl, hlead, htails, hopen⟩ := exists_of_openScalar hr
    rw [List.append_assoc, List.cons_append, openScalar_of_incomplete hlead htails hopen,
      openScalar_of_incomplete hlead htails hopen]

/-- The look back ends at a byte that is no continuation byte, or after three bytes. -/
theorem openScalar_stop {a : UInt8} (h : Utf8.isTail a = false) (r back : Bytes) :
    openScalar (r ++ a :: back) = openScalar (r ++ [a]) := by
  match r with
  | [] => simp [openScalar, h]
  | [b] => simp [openScalar, h]
  | [b, c] => simp [openScalar, h]
  | b :: c :: d :: r => simp [openScalar]

/-- **The look back for an encoding** goes no further than to the end that waited. -/
theorem openScalar_resume (r back : Bytes) :
    openScalar (r ++ back) = openScalar (r ++ back.take (openScalar back)) := by
  by_cases h : openScalar back = 0
  · rw [h, openScalar_append h, List.take_zero, List.append_nil]
  · obtain ⟨tails, lead, rest, rfl, hlead, htails, hopen⟩ := exists_of_openScalar h
    rw [openScalar_of_incomplete hlead htails hopen]
    have htake : (tails ++ lead :: rest).take (tails.length + 1) = tails ++ [lead] := by
      simp [List.take_append]
    rw [htake, ← List.append_assoc, ← List.append_assoc, openScalar_stop hlead]

/-- No escape byte is part of an encoding that waits. -/
theorem esc_not_mem_take_openScalar (back : Bytes) : esc ∉ back.take (openScalar back) := by
  by_cases h : openScalar back = 0
  · simp [h]
  · obtain ⟨tails, lead, rest, rfl, hlead, htails, hopen⟩ := exists_of_openScalar h
    rw [openScalar_of_incomplete hlead htails hopen]
    have htake : (tails ++ lead :: rest).take (tails.length + 1) = tails ++ [lead] := by
      simp [List.take_append]
    have hfirst : Utf8.incomplete [lead] = true := incomplete_of_longer lead [] hopen
    rw [htake]
    intro hmem
    rcases List.mem_append.1 hmem with hmem | hmem
    · have := htails esc hmem
      simp [Utf8.isTail, Bytes.within, esc] at this
    · rw [← List.mem_singleton.1 hmem] at hfirst
      simp [Utf8.incomplete, Utf8.lead?, Bytes.within, esc] at hfirst

/-! ### Dividing a text -/

theorem ready_eq (s : Bytes) :
    ∃ a f, (beforeOpenEscape s).1 = a ++ f ∧
      f = ((beforeOpenEscape s).1.reverse.take (openScalar (beforeOpenEscape s).1.reverse)).reverse ∧
      ready s = (a, f ++ (beforeOpenEscape s).2) := by
  refine ⟨((beforeOpenEscape s).1.reverse.drop
    (openScalar (beforeOpenEscape s).1.reverse)).reverse, _, ?_, rfl, rfl⟩
  rw [← List.reverse_append, List.take_append_drop, List.reverse_reverse]

theorem ready_join (s : Bytes) : (ready s).1 ++ (ready s).2 = s := by
  obtain ⟨a, f, hcut, -, hready⟩ := ready_eq s
  rw [hready]
  dsimp only
  rw [← List.append_assoc, ← hcut, beforeOpenEscape_join]

/-- **A text is divided alike whether it comes at once or in two parts**, of which the second is
joined to the end that waited. -/
theorem ready_append (x y : Bytes) :
    ready (x ++ y) = ((ready x).1 ++ (ready ((ready x).2 ++ y)).1, (ready ((ready x).2 ++ y)).2) := by
  obtain ⟨a, f, hcut, hf, hready⟩ := ready_eq x
  have hfree : esc ∉ f := by
    rw [hf, List.mem_reverse]
    exact esc_not_mem_take_openScalar _
  obtain ⟨z, e, hwhole, hrest⟩ := beforeOpenEscape_resume x y hcut hfree
  -- Both looks back for an encoding find the same bytes.
  have hscalar : openScalar (a ++ f ++ z).reverse = openScalar (f ++ z).reverse := by
    have hf' : f.reverse = (a ++ f).reverse.take (openScalar (a ++ f).reverse) := by
      rw [← hcut, hf, List.reverse_reverse]
    have hback : (a ++ f ++ z).reverse = z.reverse ++ (a ++ f).reverse := List.reverse_append
    rw [hback, openScalar_resume, ← hf', List.reverse_append]
  have hshort : openScalar (f ++ z).reverse ≤ (f ++ z).reverse.length := by
    by_cases h : openScalar (f ++ z).reverse = 0
    · omega
    · obtain ⟨tails, lead, rest, heq, hlead, htails, hopen⟩ := exists_of_openScalar h
      rw [heq, openScalar_of_incomplete hlead htails hopen]
      simp
  rw [hready]
  simp only [ready, hwhole, hrest, hscalar]
  have hback : (a ++ f ++ z).reverse = (f ++ z).reverse ++ a.reverse := by simp
  rw [hback, List.drop_append_of_le_length hshort, List.take_append_of_le_length hshort]
  simp

end ReplBridge.Terminal
