import ReplBridge.Proofs.Text.Split
import ReplBridge.Repl.Framer

/-!
**The framer cuts its text as if it had come in one piece.**

The framer sees its text in chunks.  With each chunk it searches its buffer from the first place
where a sentinel would reach into the chunk, cuts a frame, and goes on from there.  The same frames
come from a machine that takes one byte at a time and compares the end of its buffer with the
sentinel: what is kept never holds a whole sentinel, so a new one can only end with the byte just
read.  How a text is divided into chunks plays no part for that machine.  In terms of `Bytes.Cuts`:
the frames given so far and the text kept are always the leftmost cutting of the text fed so far.

Main definitions:

* `Repl.Framer.push`, `Repl.Framer.pushAll` — the machine that takes one byte at a time;
* `Repl.Framer.feedAll` — several texts, one after the other, and the frames each of them gives.

Main results:

* `Repl.Framer.cutAll_cuts` — the search finds every sentinel of the buffer;
* `Repl.Framer.feed_eq_pushAll` — **a chunk gives what its bytes give one by one**;
* `Repl.Framer.push_cuts`, `Repl.Framer.feed_cuts` — the invariant for one byte and for one feed;
* `Repl.Framer.feedAll_eq_split` — **the frames and the pending text are the leftmost split of the
  whole text, and every frame is given by the feed that ends its sentinel**.
-/

set_option autoImplicit false

namespace ReplBridge.Repl.Framer

variable {f : Framer} {sentinel : Bytes}

@[simp] theorem pending_nil (sentinel : Bytes) : pending { sentinel } = [] := rfl

/-! ### One byte at a time -/

/-- One byte; the frame it completes, if it is the last byte of a sentinel. -/
def push (f : Framer) (b : UInt8) : Framer × Option Bytes :=
  let text := f.buffer ++ [b]
  if f.sentinel.isSuffixOf text then
    ({ f with buffer := [] }, some (text.take (text.length - f.sentinel.length)))
  else ({ f with buffer := text }, none)

/-- The bytes of a text one by one, and the frames they complete. -/
def pushAll (f : Framer) : Bytes → Framer × List Bytes
  | [] => (f, [])
  | b :: rest =>
    let (f', frame) := f.push b
    let (f'', frames) := f'.pushAll rest
    (f'', frame.toList ++ frames)

theorem push_sentinel (f : Framer) (b : UInt8) : (f.push b).1.sentinel = f.sentinel := by
  by_cases h : f.sentinel.isSuffixOf (f.buffer ++ [b]) = true <;> simp [push, h]

theorem pushAll_sentinel (f : Framer) (s : Bytes) : (f.pushAll s).1.sentinel = f.sentinel := by
  induction s generalizing f with
  | nil => rfl
  | cons b s ih => exact (ih _).trans (push_sentinel f b)

/-- **One byte.**  The frame it gives, if any, ends the leftmost cutting of the text so far. -/
theorem push_cuts {text : Bytes} {parts : List Bytes} (hs : f.sentinel ≠ [])
    (h : Bytes.Cuts f.sentinel text parts f.pending) (b : UInt8) :
    Bytes.Cuts f.sentinel (text ++ [b]) (parts ++ (f.push b).2.toList) (f.push b).1.pending := by
  refine h.append ?_
  unfold push
  by_cases hsuffix : f.sentinel.isSuffixOf (f.buffer ++ [b]) = true
  · -- the byte ends a sentinel: the frame is what was kept before that sentinel
    rw [if_pos hsuffix]
    obtain ⟨before, hbefore⟩ := List.isSuffixOf_iff_suffix.1 hsuffix
    have hframe : (f.buffer ++ [b]).take ((f.buffer ++ [b]).length - f.sentinel.length) =
        before := by
      rw [← hbefore, List.length_append, Nat.add_sub_cancel, List.take_left]
    have hkeep : before ++ f.sentinel.dropLast = f.buffer := by
      rw [← List.dropLast_append_of_ne_nil hs, hbefore, List.dropLast_concat]
    simp only [hframe, Option.toList_some]
    refine ⟨?_, ?_, by simpa [pending] using hs⟩
    · simp [pending, hbefore]
    · intro part hpart
      obtain rfl := List.mem_singleton.1 hpart
      rw [hkeep]
      exact h.rest_free
  · -- the byte ends no sentinel, and no sentinel ended before it
    rw [if_neg hsuffix]
    refine ⟨rfl, by simp, ?_⟩
    intro hin
    rcases List.infix_concat_iff.1 hin with hsuf | hin
    · exact hsuffix (List.isSuffixOf_iff_suffix.2 hsuf)
    · exact h.rest_free hin

theorem pushAll_cuts {text : Bytes} {parts : List Bytes} (hs : f.sentinel ≠ [])
    (h : Bytes.Cuts f.sentinel text parts f.pending) (s : Bytes) :
    Bytes.Cuts f.sentinel (text ++ s) (parts ++ (f.pushAll s).2) (f.pushAll s).1.pending := by
  induction s generalizing f text parts with
  | nil => simpa [pushAll] using h
  | cons b s ih =>
      have hb := push_cuts hs h b
      rw [← push_sentinel f b] at hb hs
      have hrest := ih hs hb
      rw [push_sentinel] at hrest
      simpa [pushAll] using hrest

/-! ### One chunk -/

theorem cutAll_of_none {sentinel buffer : Bytes} {start : Nat}
    (h : Bytes.cut? sentinel (buffer.drop start) = none) (rounds : Nat) :
    cutAll sentinel (rounds + 1) start buffer = (buffer, []) := by
  rw [cutAll, h]

theorem cutAll_of_some {sentinel buffer before rest : Bytes} {start : Nat}
    (h : Bytes.cut? sentinel (buffer.drop start) = some (before, rest)) (rounds : Nat) :
    cutAll sentinel (rounds + 1) start buffer =
      ((cutAll sentinel rounds 0 rest).1,
        (buffer.take start ++ before) :: (cutAll sentinel rounds 0 rest).2) := by
  rw [cutAll, h]

/-- If no sentinel begins before `start` and none is found from there on, there is none. -/
theorem free_of_cut?_eq_none {sentinel buffer : Bytes} {start : Nat} (hs : sentinel ≠ [])
    (hstart : ∀ i < start, ¬ sentinel <+: buffer.drop i)
    (hcut : Bytes.cut? sentinel (buffer.drop start) = none) : ¬ sentinel <:+: buffer := by
  rintro ⟨before, after, hbuffer⟩
  have hbegins : sentinel <+: buffer.drop before.length := by
    rw [← hbuffer, List.append_assoc, List.drop_left]
    exact List.prefix_append _ _
  rcases Nat.lt_or_ge before.length start with hlt | hge
  · exact hstart _ hlt hbegins
  · refine Bytes.cut?_eq_none hs hcut (hbegins.isInfix.trans ?_)
    rw [← Nat.add_sub_cancel' hge, ← List.drop_drop]
    exact (List.drop_suffix _ _).isInfix

/-- If no sentinel begins before `start`, the one found from there on is the first. -/
theorem first_of_cut?_eq_some {sentinel buffer before rest : Bytes} {start : Nat}
    (hs : sentinel ≠ []) (hstart : ∀ i < start, ¬ sentinel <+: buffer.drop i)
    (hcut : Bytes.cut? sentinel (buffer.drop start) = some (before, rest)) :
    buffer = (buffer.take start ++ before) ++ (sentinel ++ rest) ∧
      ¬ sentinel <:+: (buffer.take start ++ before) ++ sentinel.dropLast := by
  obtain ⟨hdrop, hnone⟩ := Bytes.cut?_eq_some hs hcut
  have hbuffer : buffer = (buffer.take start ++ before) ++ (sentinel ++ rest) := by
    rw [List.append_assoc, ← hdrop, List.take_append_drop]
  have hbegins : ∀ i < (buffer.take start ++ before).length,
      ¬ sentinel <+: ((buffer.take start ++ before) ++ (sentinel ++ rest)).drop i := by
    intro i hi
    rw [← hbuffer]
    rcases Nat.lt_or_ge i start with hlt | hge
    · exact hstart i hlt
    · rw [List.length_append, List.length_take] at hi
      rw [← Nat.add_sub_cancel' hge, ← List.drop_drop]
      exact hnone (i - start) (by omega)
  exact ⟨hbuffer, Bytes.first_of_none_begins hs hbegins⟩

/-- **The search.**  If no sentinel begins before `start`, and none ends before the last `rounds`
bytes of the buffer, then every sentinel of the buffer is found. -/
theorem cutAll_cuts (hs : sentinel ≠ []) (rounds start : Nat) (buffer : Bytes)
    (hstart : ∀ i < start, ¬ sentinel <+: buffer.drop i)
    (hrounds : ¬ sentinel <:+: buffer.take (buffer.length - rounds)) :
    Bytes.Cuts sentinel buffer (cutAll sentinel rounds start buffer).2
      (cutAll sentinel rounds start buffer).1 := by
  induction rounds generalizing start buffer with
  | zero => exact ⟨rfl, by simp [cutAll], by simpa [cutAll] using hrounds⟩
  | succ rounds ih =>
      cases hcut : Bytes.cut? sentinel (buffer.drop start) with
      | none =>
          rw [cutAll_of_none hcut]
          exact ⟨rfl, by simp, free_of_cut?_eq_none hs hstart hcut⟩
      | some found =>
          obtain ⟨before, rest⟩ := found
          obtain ⟨hbuffer, hfirst⟩ := first_of_cut?_eq_some hs hstart hcut
          -- the sentinel just found ends in the last `rounds + 1` bytes, so fewer are left
          have hshort : rest.length ≤ rounds := by
            by_contra hlong
            refine hrounds (List.IsInfix.trans ⟨buffer.take start ++ before, [], rfl⟩ ?_)
            rw [List.append_nil]
            have hlength := congrArg List.length hbuffer
            simp only [List.length_append] at hlength
            refine (List.prefix_of_prefix_length_le ⟨rest, ?_⟩ (List.take_prefix _ _) ?_).isInfix
            · rw [List.append_assoc]
              exact hbuffer.symm
            · simp only [List.length_append]
              rw [List.length_take_of_le (Nat.sub_le _ _)]
              omega
          have hrest := ih 0 rest (by simp) (by simpa [Nat.sub_eq_zero_of_le hshort] using hs)
          rw [cutAll_of_some hcut]
          refine ⟨?_, List.forall_mem_cons.2 ⟨hfirst, hrest.first⟩, hrest.rest_free⟩
          dsimp only
          rw [Bytes.spell_cons, List.append_assoc _ _ (cutAll ..).1,
            List.append_assoc sentinel, hrest.spelled]
          exact hbuffer.symm

theorem buffer_feed_cuts (hs : f.sentinel ≠ []) (hfree : ¬ f.sentinel <:+: f.buffer) (chunk : Bytes)
    :
    Bytes.Cuts f.sentinel (f.buffer ++ chunk) (f.feed chunk).2 (f.feed chunk).1.pending := by
  refine cutAll_cuts hs _ _ _ ?_ (by simpa using hfree)
  intro i hi hbegins
  -- a sentinel that begins so early would lie in what was kept
  have hpos := List.length_pos_iff.2 hs
  rw [List.drop_append_of_le_length (by omega)] at hbegins
  have hkept : f.sentinel <+: f.buffer.drop i := by
    refine List.prefix_of_prefix_length_le hbegins (List.prefix_append _ _) ?_
    rw [List.length_drop]
    omega
  exact hfree (hkept.isInfix.trans (List.drop_suffix _ _).isInfix)

/-- **A chunk gives what its bytes give one by one**, if the buffer holds no sentinel. -/
theorem feed_eq_pushAll (hs : f.sentinel ≠ []) (hfree : ¬ f.sentinel <:+: f.buffer) (chunk : Bytes)
    : f.feed chunk = f.pushAll chunk := by
  have hkept : Bytes.Cuts f.sentinel f.buffer [] f.pending := ⟨rfl, by simp, hfree⟩
  obtain ⟨hframes, hbuffer⟩ :=
    (buffer_feed_cuts hs hfree chunk).unique hs (pushAll_cuts hs hkept chunk)
  have hframer : (f.feed chunk).1 = (f.pushAll chunk).1 := by
    rw [Framer.mk.injEq]
    exact ⟨(pushAll_sentinel f chunk).symm, hbuffer⟩
  exact Prod.ext hframer hframes

@[simp] theorem feed_nil (f : Framer) : f.feed [] = (f, []) := by
  simp [feed, cutAll]

theorem feed_sentinel (f : Framer) (s : Bytes) : (f.feed s).1.sentinel = f.sentinel := rfl

theorem length_cutAll_le (sentinel : Bytes) (rounds start : Nat) (buffer : Bytes) :
    (cutAll sentinel rounds start buffer).2.length ≤ rounds := by
  induction rounds generalizing start buffer with
  | zero => exact Nat.le_refl _
  | succ rounds ih =>
      rw [cutAll]
      split
      · exact Nat.zero_le _
      · rename_i before rest _
        exact Nat.succ_le_succ (ih 0 rest)

/-- A byte ends at most one frame. -/
theorem length_feed_le (f : Framer) (s : Bytes) : (f.feed s).2.length ≤ s.length :=
  length_cutAll_le ..

/-- **One feed.**  Its frames carry on the leftmost cutting of the text so far. -/
theorem feed_cuts {text : Bytes} {parts : List Bytes} (hs : f.sentinel ≠ [])
    (h : Bytes.Cuts f.sentinel text parts f.pending) (s : Bytes) :
    Bytes.Cuts f.sentinel (text ++ s) (parts ++ (f.feed s).2) (f.feed s).1.pending := by
  rw [feed_eq_pushAll hs h.rest_free]
  exact pushAll_cuts hs h s

/-! ### Several feeds -/

/-- Several texts, one after the other: the framer after them, and the frames that each gave. -/
def feedAll (f : Framer) : List Bytes → Framer × List (List Bytes)
  | [] => (f, [])
  | text :: texts =>
    let (f', frames) := f.feed text
    let (f'', more) := f'.feedAll texts
    (f'', frames :: more)

@[simp] theorem feedAll_nil (f : Framer) : f.feedAll [] = (f, []) := rfl

@[simp] theorem feedAll_cons (f : Framer) (text : Bytes) (texts : List Bytes) :
    f.feedAll (text :: texts) =
      (((f.feed text).1.feedAll texts).1, (f.feed text).2 :: ((f.feed text).1.feedAll texts).2) :=
  rfl

/-- What the first feeds give does not depend on those after them. -/
theorem feedAll_take (f : Framer) (texts : List Bytes) (i : Nat) :
    (f.feedAll (texts.take i)).2 = (f.feedAll texts).2.take i := by
  induction texts generalizing f i with
  | nil => simp
  | cons text texts ih =>
      cases i with
      | zero => simp
      | succ i => simp [ih]

theorem feedAll_cuts {text : Bytes} {parts : List Bytes} (hs : f.sentinel ≠ [])
    (h : Bytes.Cuts f.sentinel text parts f.pending) (texts : List Bytes) :
    Bytes.Cuts f.sentinel (text ++ texts.flatten) (parts ++ (f.feedAll texts).2.flatten)
      (f.feedAll texts).1.pending := by
  induction texts generalizing f text parts with
  | nil => simpa using h
  | cons first texts ih =>
      have hfirst := feed_cuts hs h first
      rw [← feed_sentinel f first] at hfirst hs
      have hrest := ih hs hfirst
      rw [feed_sentinel] at hrest
      simpa using hrest

/-- A fresh framer has cut the empty text. -/
theorem fresh_cuts (hs : sentinel ≠ []) : Bytes.Cuts sentinel [] [] [] :=
  ⟨rfl, by simp, by simpa using hs⟩

/-- The frames that a fresh framer gives are the parts of the leftmost cutting, and what it keeps is
the rest. -/
theorem fresh_feedAll_cuts (hs : sentinel ≠ []) (texts : List Bytes) :
    Bytes.Cuts sentinel texts.flatten (feedAll { sentinel } texts).2.flatten
      (feedAll { sentinel } texts).1.pending := by
  simpa using feedAll_cuts (f := { sentinel }) hs (fresh_cuts hs) texts

theorem flatten_take_add_one {α : Type} (lists : List (List α)) (i : Nat) :
    (lists.take (i + 1)).flatten = (lists.take i).flatten ++ lists[i]?.toList.flatten := by
  rw [List.take_add_one, List.flatten_append]

/-- The sentinel of a frame ends in the very feed that gives the frame. -/
theorem feed_ends_frame (hs : sentinel ≠ []) (texts : List Bytes) {i n : Nat}
    (hlow : ((feedAll { sentinel } texts).2.take i).flatten.length ≤ n)
    (hhigh : n < ((feedAll { sentinel } texts).2.take (i + 1)).flatten.length) :
    (texts.take i).flatten.length <
        (Bytes.spell sentinel ((feedAll { sentinel } texts).2.flatten.take (n + 1))).length ∧
      (Bytes.spell sentinel ((feedAll { sentinel } texts).2.flatten.take (n + 1))).length ≤
        (texts.take (i + 1)).flatten.length := by
  have hbefore := fresh_feedAll_cuts hs (texts.take i)
  have hafter := fresh_feedAll_cuts hs (texts.take (i + 1))
  rw [feedAll_take] at hbefore hafter
  generalize (feedAll { sentinel } texts).2 = returned at *
  -- frame `n` is among those that feed `i` adds to the frames before it
  obtain ⟨m, rfl⟩ := Nat.exists_eq_add_of_le hlow
  have hall : returned.flatten.take ((returned.take i).flatten.length + m + 1) =
      (returned.take i).flatten ++ returned[i]?.toList.flatten.take (m + 1) := by
    have hsplit : returned.flatten =
        (returned.take (i + 1)).flatten ++ (returned.drop (i + 1)).flatten := by
      rw [← List.flatten_append, List.take_append_drop]
    have hle : (returned.take i).flatten.length + m + 1 ≤ (returned.take (i + 1)).flatten.length :=
      hhigh
    rw [hsplit, List.take_append_of_le_length hle, flatten_take_add_one returned, Nat.add_assoc,
      List.take_length_add_append]
  rw [hall, flatten_take_add_one texts]
  rw [flatten_take_add_one returned] at hafter hhigh
  rw [flatten_take_add_one texts] at hafter
  refine hbefore.new_part_ends hafter ?_
  rw [List.length_append] at hhigh
  omega

/-- **The framer cuts a text that comes in feeds as the whole text is split.**  Its frames and the
pending text are the leftmost split at the sentinel, whatever the feeds; joined they are the text
again; none of them holds a sentinel; and frame `n`, whose sentinel ends at the length of the first
`n + 1` frames spelled out, is given by the one feed in which that place lies. -/
theorem feedAll_eq_split {sentinel : Bytes} (hs : sentinel ≠ []) (texts : List Bytes) :
    let returned := (feedAll { sentinel } texts).2
    let pending := (feedAll { sentinel } texts).1.pending
    returned.flatten ++ [pending] = Bytes.split sentinel texts.flatten ∧
      (∀ others : List Bytes, others.flatten = texts.flatten →
        (feedAll { sentinel } others).2.flatten = returned.flatten ∧
          (feedAll { sentinel } others).1.pending = pending) ∧
      Bytes.join sentinel (returned.flatten ++ [pending]) = texts.flatten ∧
      (∀ part ∈ returned.flatten ++ [pending], ¬ sentinel <:+: part) ∧
      ∀ i n, (returned.take i).flatten.length ≤ n →
        n < (returned.take (i + 1)).flatten.length →
          let ends := (Bytes.spell sentinel (returned.flatten.take (n + 1))).length
          (texts.take i).flatten.length < ends ∧ ends ≤ (texts.take (i + 1)).flatten.length := by
  have hcuts := fresh_feedAll_cuts hs texts
  refine ⟨hcuts.eq_split hs, ?_, hcuts.join, ?_, ?_⟩
  · intro others heq
    have hothers := fresh_feedAll_cuts hs others
    rw [heq] at hothers
    exact hothers.unique hs hcuts
  · intro part hp
    rcases List.mem_append.1 hp with hp | hp
    · exact hcuts.part_free hp
    · rw [List.mem_singleton.1 hp]
      exact hcuts.rest_free
  · intro i n hlow hhigh
    exact feed_ends_frame hs texts hlow hhigh

/-- A sentinel that overlaps itself, and feeds that end inside it. -/
theorem feedAll_eq_split_overlapping :
    utf8 "--" ≠ [] ∧
      let fed := feedAll { sentinel := utf8 "--" } [utf8 "a-", utf8 "--", utf8 "-b--"]
      fed.2.flatten ++ [fed.1.pending] =
        Bytes.split (utf8 "--") [utf8 "a-", utf8 "--", utf8 "-b--"].flatten ∧
      fed.2 = [[], [utf8 "a"], [[], utf8 "b"]] :=
  ⟨by decide, (feedAll_eq_split (by decide) _).1, by decide⟩

end ReplBridge.Repl.Framer
