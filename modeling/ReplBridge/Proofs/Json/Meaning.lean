import ReplBridge.Proofs.Json.Markup

/-!
**What a tree means, and how it looks when it is written.**

Trees keep the spelling of the text they were read from, and two spellings may mean the same.  What
they mean is the tree with its strings and keys resolved.  A tree that was read from a text can be
written again: its spelling is one that JSON has, before and after the characters of markup are spelled
as escapes, and what it means does not change.

The text that is written is clean: outside its strings stand only the bytes of tokens, and no
character that markup would read stands anywhere.

Main definitions:

* `Json.Meaning`, `Json.meaning` — what a tree means;
* `Json.outside`, `Json.Clean` — the bytes outside strings, and texts that are clean;
* `Json.depth` — how deep arrays and objects nest.

Main results:

* `Json.IsText.spelled`, `Json.IsText.meaning_guarded` — **a tree that was read can be written, and means
  the same**;
* `Json.clean_compact` — **what is written is clean**;
* `Json.nestsWithin_iff` — nesting, by depth.
-/

set_option autoImplicit false

namespace ReplBridge.Json

/-! ### Meaning -/

/-- **What a JSON value means**: its strings and keys are texts, and its numbers literals. -/
inductive Meaning where
  | null
  | bool (b : Bool)
  | number (literal : Bytes)
  | text (s : Bytes)
  | list (items : List Meaning)
  | record (members : List (Bytes × Meaning))

mutual

/-- **What a tree means.** -/
def meaning : Json → Meaning
  | .null => .null
  | .bool b => .bool b
  | .number literal => .number literal
  | .string raw => .text (unescape raw)
  | .array items => .list (itemsMeaning items)
  | .object members => .record (membersMeaning members)
termination_by structural j => j

/-- What the items of an array mean. -/
def itemsMeaning : List Json → List Meaning
  | [] => []
  | item :: rest => meaning item :: itemsMeaning rest
termination_by structural items => items

/-- What the members of an object mean. -/
def membersMeaning : List (Bytes × Json) → List (Bytes × Meaning)
  | [] => []
  | (key, value) :: rest => (unescape key, meaning value) :: membersMeaning rest
termination_by structural members => members

end

theorem Key.spelling {key k : Bytes} (h : Key key k) : Spelling key := by
  obtain ⟨a, b, -, -, hkey, -⟩ := h
  exact hkey

mutual

/-- A phrase can be written, and then means the same. -/
theorem phrase_guarded : (j : Json) → (t : Bytes) → Phrase j t →
    j.Spelled ∧ j.guarded.meaning = j.meaning
  | .null, _, _ => ⟨trivial, rfl⟩
  | .bool _, _, _ => ⟨trivial, rfl⟩
  | .number _, _, h => ⟨isNumber_iff.2 h.2, rfl⟩
  | .string raw, _, h => by
      refine ⟨h.2.guardMarkup, ?_⟩
      rw [guarded, meaning, meaning, unescape_guardMarkup h.2]
  | .array [], _, _ => ⟨trivial, rfl⟩
  | .array (item :: rest), _, h => by
      obtain ⟨a, t, u, -, ht, hu, -⟩ := h
      obtain ⟨hitem, hitem'⟩ := phrase_guarded item t ht
      obtain ⟨hrest, hrest'⟩ := itemsPhrase_guarded rest u hu
      refine ⟨⟨hitem, hrest⟩, ?_⟩
      rw [guarded, meaning, meaning, guardedItems, itemsMeaning, itemsMeaning, hitem', hrest']
  | .object [], _, _ => ⟨trivial, rfl⟩
  | .object ((key, value) :: rest), _, h => by
      obtain ⟨k, a, t, u, hk, -, ht, hu, -⟩ := h
      obtain ⟨hvalue, hvalue'⟩ := phrase_guarded value t ht
      obtain ⟨hrest, hrest'⟩ := membersPhrase_guarded rest u hu
      refine ⟨⟨hk.spelling.guardMarkup, hvalue, hrest⟩, ?_⟩
      rw [guarded, meaning, meaning, guardedMembers, membersMeaning, membersMeaning, hvalue', hrest',
        unescape_guardMarkup hk.spelling]
termination_by structural j => j

theorem itemsPhrase_guarded : (items : List Json) → (t : Bytes) → ItemsPhrase items t →
    ItemsSpelled items ∧ itemsMeaning (guardedItems items) = itemsMeaning items
  | [], _, _ => ⟨trivial, rfl⟩
  | item :: rest, _, h => by
      obtain ⟨a, b, t, u, -, -, ht, hu, -⟩ := h
      obtain ⟨hitem, hitem'⟩ := phrase_guarded item t ht
      obtain ⟨hrest, hrest'⟩ := itemsPhrase_guarded rest u hu
      refine ⟨⟨hitem, hrest⟩, ?_⟩
      rw [guardedItems, itemsMeaning, itemsMeaning, hitem', hrest']
termination_by structural items => items

theorem membersPhrase_guarded : (members : List (Bytes × Json)) → (t : Bytes) →
    MembersPhrase members t →
    MembersSpelled members ∧ membersMeaning (guardedMembers members) = membersMeaning members
  | [], _, _ => ⟨trivial, rfl⟩
  | (key, value) :: rest, _, h => by
      obtain ⟨a, k, b, t, u, -, hk, -, ht, hu, -⟩ := h
      obtain ⟨hvalue, hvalue'⟩ := phrase_guarded value t ht
      obtain ⟨hrest, hrest'⟩ := membersPhrase_guarded rest u hu
      refine ⟨⟨hk.spelling.guardMarkup, hvalue, hrest⟩, ?_⟩
      rw [guardedMembers, membersMeaning, membersMeaning, hvalue', hrest',
        unescape_guardMarkup hk.spelling]
termination_by structural members => members

end

/-- **A tree that was read can be written.** -/
theorem IsText.spelled {j : Json} {s : Bytes} (h : IsText j s) : j.Spelled := by
  obtain ⟨a, t, b, -, ht, -⟩ := h
  exact (phrase_guarded j t ht).1

/-- **A tree that was read means the same when it is written.** -/
theorem IsText.meaning_guarded {j : Json} {s : Bytes} (h : IsText j s) :
    j.guarded.meaning = j.meaning := by
  obtain ⟨a, t, b, -, ht, -⟩ := h
  exact (phrase_guarded j t ht).2

/-! ### Clean texts -/

/-- Where a byte stands: outside strings, inside one, or inside one after a backslash. -/
inductive Zone where
  | outside
  | inside
  | escaped
  deriving DecidableEq, Repr

/-- The bytes that stand outside strings, the quotes left out. -/
def outsideFrom : Zone → Bytes → Bytes
  | _, [] => []
  | .outside, b :: rest =>
    if b == 0x22 then outsideFrom .inside rest else b :: outsideFrom .outside rest
  | .inside, b :: rest =>
    outsideFrom (if b == 0x22 then .outside else if b == 0x5C then .escaped else .inside) rest
  | .escaped, _ :: rest => outsideFrom .inside rest

/-- **The bytes of a text that stand outside its strings**, the quotes left out. -/
def outside (s : Bytes) : Bytes := outsideFrom .outside s

/-- **A clean text**: no white space outside strings, and no character that markup would read. -/
structure Clean (s : Bytes) : Prop where
  /-- No white space stands outside strings. -/
  tight : ∀ b ∈ outside s, isSpace b = false
  /-- No character that markup would read stands anywhere. -/
  markup : MarkupFree s

/-- The bytes that a clean text may hold outside strings. -/
def isToken (b : UInt8) : Bool := !isSpace b && !isGuarded b && b != 0x22

theorem clean_nil : Clean [] := ⟨nofun, markupFree_guardMarkup []⟩

theorem Clean.append {s t : Bytes} (hs : ∀ b ∈ s, isToken b = true) (ht : Clean t) :
    Clean (s ++ t) := by
  refine ⟨?_, markupFree_append (fun b hb => ?_) ht.markup⟩
  · induction s with
    | nil => exact ht.tight
    | cons b s ih =>
        obtain ⟨hb, hs⟩ := List.forall_mem_cons.1 hs
        simp only [isToken, Bool.and_eq_true, Bool.not_eq_true', bne_iff_ne] at hb
        have hcons : outside (b :: s ++ t) = b :: outside (s ++ t) :=
          if_neg (by simpa using hb.2)
        rw [hcons]
        exact List.forall_mem_cons.2 ⟨hb.1.1, ih hs⟩
  · have hb := hs b hb
    simp only [isToken, Bool.and_eq_true, Bool.not_eq_true'] at hb
    exact hb.1.2

/-- A string ends at its closing quote. -/
theorem outsideFrom_spelling {raw : Bytes} (h : Spelling raw) (t : Bytes) :
    outsideFrom .inside (raw ++ 0x22 :: t) = outside t := by
  induction h with
  | nil => rfl
  | plain _ hquote hslash _ ih => simpa [outsideFrom, hquote, hslash] using ih
  | short _ _ ih => exact ih
  | @unicode a b c d rest hdigits _ ih =>
      have hstep {x : UInt8} (hx : (Bytes.hexValue? x).isSome = true) (s : Bytes) :
          outsideFrom .inside (x :: s) = outsideFrom .inside s := by
        have hquote : x ≠ 0x22 := by
          rintro rfl
          cases hx
        have hslash : x ≠ 0x5C := by
          rintro rfl
          cases hx
        simp [outsideFrom, hquote, hslash]
      simp only [List.forall_mem_cons] at hdigits
      obtain ⟨ha, hb, hc, hd, -⟩ := hdigits
      -- Only the byte behind the backslash is skipped; the digits are inside the string.
      have hopen : outsideFrom .inside (0x5C :: 0x75 :: a :: b :: c :: d :: rest ++ 0x22 :: t) =
          outsideFrom .inside (a :: b :: c :: d :: (rest ++ 0x22 :: t)) := rfl
      rw [hopen, hstep ha, hstep hb, hstep hc, hstep hd, ih]

theorem Clean.quoteRaw {raw t : Bytes} (h : Spelling (guardMarkup raw)) (ht : Clean t) :
    Clean (quoteRaw raw ++ t) := by
  have hbytes : Json.quoteRaw raw ++ t = [0x22] ++ (guardMarkup raw ++ 0x22 :: t) := by
    simp [Json.quoteRaw]
  have hforeign := (forall_marks (p := fun s => (0x22 : UInt8) ∉ s)).2 (by decide)
  have hquote : ∀ b ∈ ([0x22] : Bytes), isGuarded b = false := List.forall_mem_singleton.2 rfl
  rw [hbytes]
  refine ⟨?_, markupFree_append hquote ?_⟩
  · have houtside : outside ([0x22] ++ (guardMarkup raw ++ 0x22 :: t)) = outside t :=
      outsideFrom_spelling h t
    rw [houtside]
    exact ht.tight
  · -- A character cannot begin in the string and end behind its quote.
    intro c hc
    rw [Bytes.infix_append_cons (hforeign c hc), not_or]
    exact ⟨markupFree_guardMarkup raw c hc, ht.markup c hc⟩

/-- A class of bytes that all tokens may hold. -/
theorem isToken_of (p : UInt8 → Bool) (h : ∀ n < 256, p (UInt8.ofNat n) = true →
    isToken (UInt8.ofNat n) = true) {b : UInt8} (hb : p b = true) : isToken b = true := by
  have hbyte := h b.toNat b.toNat_lt
  rw [UInt8.ofNat_toNat] at hbyte
  exact hbyte hb

theorem isToken_of_after? {rest : Bytes} {part last : NumberPart}
    (h : part.after? rest = some last) : ∀ b ∈ rest, isToken b = true := by
  induction rest generalizing part with
  | nil => nofun
  | cons b rest ih =>
      obtain ⟨next, hnext, hrest⟩ := Option.bind_eq_some_iff.1 h
      refine List.forall_mem_cons.2 ⟨?_, ih hrest⟩
      -- Every part is a class of bytes, of which there are few enough to go through.
      refine isToken_of (fun b => (part.next? b).isSome) ?_ (by simp [hnext])
      cases part <;> decide +kernel

theorem IsNumber.isToken {literal : Bytes} (h : IsNumber literal) :
    ∀ b ∈ literal, Json.isToken b = true := by
  obtain ⟨hfirst, hrest, -⟩ := h
  refine List.forall_mem_cons.2 ⟨?_, isToken_of_after? hrest⟩
  exact isToken_of (fun b => (NumberPart.first? b).isSome) (by decide +kernel) (by simp [hfirst])

theorem Clean.cons {b : UInt8} {t : Bytes} (hb : isToken b = true) (ht : Clean t) :
    Clean (b :: t) :=
  ht.append (s := [b]) (by simpa using hb)

mutual

theorem clean_compactTo {tail : Bytes} (htail : Clean tail) :
    (j : Json) → j.Spelled → Clean (compactTo tail j)
  | .null, _ => by
      have hword : ∀ b ∈ utf8 "null", isToken b = true := by decide +kernel
      exact htail.append hword
  | .bool b, _ => by
      have hword : ∀ x ∈ ofBool b, isToken x = true := by
        cases b <;> decide +kernel
      exact htail.append hword
  | .number _, h => htail.append (IsNumber.isToken h)
  | .string _, h => htail.quoteRaw h
  | .array [], _ => (htail.cons rfl).cons rfl
  | .array (item :: rest), h =>
      (clean_compactTo (clean_compactItems htail rest h.2) item h.1).cons rfl
  | .object [], _ => (htail.cons rfl).cons rfl
  | .object ((_, value) :: rest), h =>
      have hvalue := clean_compactTo (clean_compactMembers htail rest h.2.2) value h.2.1
      ((hvalue.cons rfl).quoteRaw h.1).cons rfl
termination_by structural j => j

theorem clean_compactItems {tail : Bytes} (htail : Clean tail) :
    (items : List Json) → ItemsSpelled items → Clean (compactItems tail items)
  | [], _ => htail.cons rfl
  | item :: rest, h =>
      (clean_compactTo (clean_compactItems htail rest h.2) item h.1).cons rfl
termination_by structural items => items

theorem clean_compactMembers {tail : Bytes} (htail : Clean tail) :
    (members : List (Bytes × Json)) → MembersSpelled members → Clean (compactMembers tail members)
  | [], _ => htail.cons rfl
  | (_, value) :: rest, h =>
      have hvalue := clean_compactTo (clean_compactMembers htail rest h.2.2) value h.2.1
      ((hvalue.cons rfl).quoteRaw h.1).cons rfl
termination_by structural members => members

end

/-- **What is written is clean.** -/
theorem clean_compact {j : Json} (h : j.Spelled) : Clean (compact j) := clean_compactTo clean_nil j h

/-! ### Depth -/

mutual

/-- **How deep arrays and objects nest.** -/
def depth : Json → Nat
  | .array items => itemsDepth items + 1
  | .object members => membersDepth members + 1
  | .null => 0
  | .bool _ => 0
  | .number _ => 0
  | .string _ => 0
termination_by structural j => j

/-- How deep the deepest item nests. -/
def itemsDepth : List Json → Nat
  | [] => 0
  | item :: rest => max (depth item) (itemsDepth rest)
termination_by structural items => items

/-- How deep the deepest member nests. -/
def membersDepth : List (Bytes × Json) → Nat
  | [] => 0
  | (_, value) :: rest => max (depth value) (membersDepth rest)
termination_by structural members => members

end

mutual

/-- **Nesting, by depth.** -/
theorem nestsWithin_iff : (j : Json) → (n : Nat) → (nestsWithin n j = true ↔ j.depth ≤ n)
  | .null, n => by cases n <;> simp [nestsWithin, depth]
  | .bool _, n => by cases n <;> simp [nestsWithin, depth]
  | .number _, n => by cases n <;> simp [nestsWithin, depth]
  | .string _, n => by cases n <;> simp [nestsWithin, depth]
  | .array items, 0 => by simp [nestsWithin, depth]
  | .array items, n + 1 => by
      rw [nestsWithin, depth, itemsNestWithin_iff items n, Nat.add_le_add_iff_right]
  | .object members, 0 => by simp [nestsWithin, depth]
  | .object members, n + 1 => by
      rw [nestsWithin, depth, membersNestWithin_iff members n, Nat.add_le_add_iff_right]
termination_by structural j => j

theorem itemsNestWithin_iff : (items : List Json) → (n : Nat) →
    (itemsNestWithin n items = true ↔ itemsDepth items ≤ n)
  | [], n => by simp [itemsNestWithin, itemsDepth]
  | item :: rest, n => by
      rw [itemsNestWithin, itemsDepth, Bool.and_eq_true, nestsWithin_iff item n,
        itemsNestWithin_iff rest n, Nat.max_le]
termination_by structural items => items

theorem membersNestWithin_iff : (members : List (Bytes × Json)) → (n : Nat) →
    (membersNestWithin n members = true ↔ membersDepth members ≤ n)
  | [], n => by simp [membersNestWithin, membersDepth]
  | (_, value) :: rest, n => by
      rw [membersNestWithin, membersDepth, Bool.and_eq_true, nestsWithin_iff value n,
        membersNestWithin_iff rest n, Nat.max_le]
termination_by structural members => members

end

end ReplBridge.Json
