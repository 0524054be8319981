import ReplBridge.Proofs.Json.Grammar
import ReplBridge.Proofs.Text.Decimal

/-!
**What is written as JSON reads back.**

The writer puts a tree in front of whatever stands behind it, and what it puts there is one of the
phrases of the tree: the one without white space, in the spelling that is written.  The reader goes
through every phrase, so the tree reads back.

Main definitions:

* `Json.Spelled` — a tree whose strings and numbers are spelled as JSON has them;
* `Json.guarded` — the tree with the spelling that is written;
* `Json.Settled` — a tree that is written as it is.

Main results:

* `Json.phrase_compactTo` — **what is written is a phrase**;
* `Json.parse?_compact` — **a tree reads back**;
* `Json.controlless_compactTo` — a tree is written on one line.
-/

set_option autoImplicit false

namespace ReplBridge.Json

/-! ### Numbers -/

theorem after?_whole {digits : Bytes} (h : ∀ b ∈ digits, Bytes.isDigit b = true) :
    NumberPart.whole.after? digits = some .whole := by
  induction digits with
  | nil => rfl
  | cons b digits ih =>
      have hb := h b (by simp)
      simp [NumberPart.after?, NumberPart.next?, hb, ih fun d hd => h d (by simp [hd])]

/-- **A natural number is a number**: it is written without leading zeros. -/
theorem isNumber_ofNat (n : Nat) : IsNumber (Decimal.ofNat n) := by
  rcases Nat.eq_zero_or_pos n with rfl | hpos
  · have hzero : Decimal.ofNat 0 = [0x30] := by decide +kernel
    rw [hzero]
    exact .mk rfl rfl rfl
  obtain ⟨b, rest, hbytes, hzero⟩ := Decimal.ofNat_head hpos
  have hdigit {d : UInt8} (hd : d ∈ b :: rest) : Bytes.isDigit d = true :=
    Decimal.isDigit_of_mem_ofNat (hbytes ▸ hd)
  have hb : Bytes.isDigit b = true := hdigit (by simp)
  have hminus : b ≠ 0x2D := by
    rintro rfl
    cases hb
  have hfirst : NumberPart.first? b = some .whole := by
    simp [NumberPart.first?, hminus, hzero, hb]
  rw [hbytes]
  exact .mk hfirst (after?_whole fun d hd => hdigit (by simp [hd])) rfl

/-! ### Trees -/

mutual

/-- **The tree with the spelling that is written.** -/
def guarded : Json → Json
  | .string raw => .string (guardMarkup raw)
  | .array items => .array (guardedItems items)
  | .object members => .object (guardedMembers members)
  | .null => .null
  | .bool b => .bool b
  | .number literal => .number literal
termination_by structural j => j

/-- The items with the spelling that is written. -/
def guardedItems : List Json → List Json
  | [] => []
  | item :: rest => guarded item :: guardedItems rest
termination_by structural items => items

/-- The members with the spelling that is written. -/
def guardedMembers : List (Bytes × Json) → List (Bytes × Json)
  | [] => []
  | (key, value) :: rest => (guardMarkup key, guarded value) :: guardedMembers rest
termination_by structural members => members

end

mutual

/-- **A tree whose strings and numbers are spelled as JSON has them**, once they are written. -/
def Spelled : Json → Prop
  | .string raw => Spelling (guardMarkup raw)
  | .number literal => IsNumber literal
  | .array items => ItemsSpelled items
  | .object members => MembersSpelled members
  | .null => True
  | .bool _ => True
termination_by structural j => j

def ItemsSpelled : List Json → Prop
  | [] => True
  | item :: rest => Spelled item ∧ ItemsSpelled rest
termination_by structural items => items

def MembersSpelled : List (Bytes × Json) → Prop
  | [] => True
  | (key, value) :: rest => Spelling (guardMarkup key) ∧ Spelled value ∧ MembersSpelled rest
termination_by structural members => members

end

/-! ### What is written is a phrase -/

theorem key_quoteRaw {key : Bytes} (h : Spelling (guardMarkup key)) :
    Key (guardMarkup key) (quoteRaw key ++ [0x3A]) :=
  ⟨[], [], space_nil, space_nil, h, by simp [quoteRaw]⟩

mutual

/-- **What is written is a phrase**, in front of whatever stands behind it. -/
theorem phrase_compactTo (tail : Bytes) : (j : Json) → j.Spelled →
    ∃ t, Phrase j.guarded t ∧ compactTo tail j = t ++ tail
  | .null, _ => ⟨_, rfl, rfl⟩
  | .bool _, _ => ⟨_, rfl, rfl⟩
  | .number _, h => ⟨_, ⟨rfl, isNumber_iff.1 h⟩, rfl⟩
  | .string _, h => ⟨_, ⟨rfl, h⟩, by simp [compactTo, quoteRaw]⟩
  | .array [], _ => ⟨_, ⟨[], space_nil, rfl⟩, rfl⟩
  | .array (item :: rest), h => by
      obtain ⟨u, hu, hrest⟩ := phrase_compactItems tail rest h.2
      obtain ⟨t, ht, hitem⟩ := phrase_compactTo (compactItems tail rest) item h.1
      refine ⟨_, ⟨[], t, u, space_nil, ht, hu, rfl⟩, ?_⟩
      rw [compactTo, hitem, hrest]
      simp
  | .object [], _ => ⟨_, ⟨[], space_nil, rfl⟩, rfl⟩
  | .object ((key, value) :: rest), h => by
      obtain ⟨hkey, hvalue, hrest⟩ := h
      obtain ⟨u, hu, hrest⟩ := phrase_compactMembers tail rest hrest
      obtain ⟨t, ht, hvalue⟩ := phrase_compactTo (compactMembers tail rest) value hvalue
      refine ⟨_, ⟨_, [], t, u, key_quoteRaw hkey, space_nil, ht, hu, rfl⟩, ?_⟩
      rw [compactTo, hvalue, hrest]
      simp
termination_by structural j => j

theorem phrase_compactItems (tail : Bytes) : (items : List Json) → ItemsSpelled items →
    ∃ t, ItemsPhrase (guardedItems items) t ∧ compactItems tail items = t ++ tail
  | [], _ => ⟨_, ⟨[], space_nil, rfl⟩, rfl⟩
  | item :: rest, h => by
      obtain ⟨u, hu, hrest⟩ := phrase_compactItems tail rest h.2
      obtain ⟨t, ht, hitem⟩ := phrase_compactTo (compactItems tail rest) item h.1
      refine ⟨_, ⟨[], [], t, u, space_nil, space_nil, ht, hu, rfl⟩, ?_⟩
      rw [compactItems, hitem, hrest]
      simp
termination_by structural items => items

theorem phrase_compactMembers (tail : Bytes) : (members : List (Bytes × Json)) →
    MembersSpelled members →
    ∃ t, MembersPhrase (guardedMembers members) t ∧ compactMembers tail members = t ++ tail
  | [], _ => ⟨_, ⟨[], space_nil, rfl⟩, rfl⟩
  | (key, value) :: rest, h => by
      obtain ⟨hkey, hvalue, hrest⟩ := h
      obtain ⟨u, hu, hrest⟩ := phrase_compactMembers tail rest hrest
      obtain ⟨t, ht, hvalue⟩ := phrase_compactTo (compactMembers tail rest) value hvalue
      refine ⟨_, ⟨[], _, [], t, u, space_nil, key_quoteRaw hkey, space_nil, ht, hu, rfl⟩, ?_⟩
      rw [compactMembers, hvalue, hrest]
      simp
termination_by structural members => members

end

/-- A tree begins neither with white space nor with the end of an array. -/
theorem compactTo_head {j : Json} (h : j.Spelled) (tail : Bytes) :
    ∃ b rest, compactTo tail j = b :: rest ∧ isSpace b = false ∧ b ≠ 0x5D := by
  obtain ⟨t, ht, htext⟩ := phrase_compactTo tail j h
  obtain ⟨b, rest, rfl, hspace, hb⟩ := phrase_head ht
  exact ⟨b, rest ++ tail, htext, hspace, hb⟩

/-- **A tree reads back**, with the spelling that was written. -/
theorem parse?_compact {j : Json} (h : j.Spelled) : parse? (compact j) = some j.guarded := by
  obtain ⟨t, ht, htext⟩ := phrase_compactTo [] j h
  rw [parse?_eq_some_iff]
  exact ⟨[], t, [], space_nil, ht, space_nil, htext⟩

/-! ### Trees that are written as they are -/

/-- **A tree that is written as it is**: no spelling in it changes. -/
structure Settled (j : Json) : Prop where
  spelled : j.Spelled
  /-- Its spelling does not change. -/
  guarded : j.guarded = j

/-- **A tree that is written as it is reads back as it is.** -/
theorem Settled.parse? {j : Json} (h : j.Settled) : Json.parse? (compact j) = some j := by
  rw [parse?_compact h.spelled, h.guarded]

theorem settled_text (s : Bytes) : (text s).Settled := by
  have hraw := guardMarkup_rawOf s
  refine ⟨?_, by rw [text, guarded, hraw]⟩
  show Spelling (guardMarkup (rawOf s))
  rw [hraw]
  exact spelling_rawOf s

theorem settled_nat (n : Nat) : (nat n).Settled := ⟨isNumber_ofNat n, rfl⟩

/-- A record can be written if its values can and its names need no escape, and then its names
stay. -/
theorem record_guarded {members : List (String × Json)}
    (h : ∀ m ∈ members, rawOf (utf8 m.1) = utf8 m.1 ∧ m.2.Spelled) :
    (record members).Spelled ∧
      (record members).guarded = record (members.map fun m => (m.1, m.2.guarded)) := by
  suffices hmembers : MembersSpelled (members.map fun m => (utf8 m.1, m.2)) ∧
      guardedMembers (members.map fun m => (utf8 m.1, m.2)) =
        members.map fun m => (utf8 m.1, m.2.guarded) by
    refine ⟨hmembers.1, (congrArg Json.object hmembers.2).trans ?_⟩
    rw [record, List.map_map]
    rfl
  induction members with
  | nil => exact ⟨trivial, rfl⟩
  | cons m members ih =>
      obtain ⟨hname, hvalue⟩ := h m (by simp)
      obtain ⟨hspelled, hguarded⟩ := ih fun n hn => h n (by simp [hn])
      have hkey : guardMarkup (utf8 m.1) = utf8 m.1 := by
        rw [← hname, guardMarkup_rawOf]
      have hspelling : Spelling (guardMarkup (utf8 m.1)) := by
        rw [hkey, ← hname]
        exact spelling_rawOf _
      refine ⟨⟨hspelling, hvalue, hspelled⟩, ?_⟩
      rw [List.map_cons, guardedMembers, hkey, hguarded]
      rfl

/-- A record is written as it is if its names need no escape. -/
theorem settled_record {members : List (String × Json)}
    (h : ∀ m ∈ members, rawOf (utf8 m.1) = utf8 m.1 ∧ m.2.Settled) : (record members).Settled := by
  obtain ⟨hspelled, hguarded⟩ := record_guarded fun m hm => ⟨(h m hm).1, (h m hm).2.spelled⟩
  have hsame : (members.map fun m => (m.1, m.2.guarded)) = members := by
    refine (List.map_congr_left fun m hm => ?_).trans (List.map_id _)
    rw [(h m hm).2.guarded]
    rfl
  exact ⟨hspelled, by rw [hguarded, hsame]⟩

theorem itemsSpelled_of_forall {items : List Json} (h : ∀ item ∈ items, item.Spelled) :
    ItemsSpelled items := by
  induction items with
  | nil => trivial
  | cons item items ih =>
      obtain ⟨hitem, hitems⟩ := List.forall_mem_cons.1 h
      exact ⟨hitem, ih hitems⟩

theorem guardedItems_eq_map (items : List Json) : guardedItems items = items.map guarded := by
  induction items with
  | nil => rfl
  | cons item items ih => rw [guardedItems, ih, List.map_cons]

/-! ### On one line -/

/-- A text without control bytes. -/
def Controlless (s : Bytes) : Prop := ∀ b ∈ s, ¬ b < 0x20

instance (s : Bytes) : Decidable (Controlless s) := inferInstanceAs (Decidable (∀ b ∈ s, _))

theorem Controlless.cons {b : UInt8} {s : Bytes} (hb : ¬ b < 0x20) (hs : Controlless s) :
    Controlless (b :: s) := List.forall_mem_cons.2 ⟨hb, hs⟩

theorem Controlless.append {s t : Bytes} (hs : Controlless s) (ht : Controlless t) :
    Controlless (s ++ t) := List.forall_mem_append.2 ⟨hs, ht⟩

/-- A class of bytes that no control byte belongs to. -/
theorem not_control (p : UInt8 → Bool) (h : ∀ n < 32, p (UInt8.ofNat n) = false) {b : UInt8}
    (hb : p b = true) : ¬ b < 0x20 := by
  intro hlt
  have hnot := h b.toNat (UInt8.lt_iff_toNat_lt.1 hlt)
  rw [UInt8.ofNat_toNat, hb] at hnot
  cases hnot

theorem Spelling.controlless {raw : Bytes} (h : Spelling raw) : Controlless raw := by
  induction h with
  | nil => nofun
  | plain hcontrol _ _ _ ih => exact ih.cons hcontrol
  | short he _ ih => exact (ih.cons (not_control isShortEscape (by decide) he)).cons (by decide)
  | @unicode a b c d _ hdigits _ ih =>
      have hfour : Controlless [a, b, c, d] := fun x hx =>
        not_control (fun x => (Bytes.hexValue? x).isSome) (by decide) (hdigits x hx)
      exact ((hfour.append ih).cons (by decide)).cons (by decide)

theorem controlless_of_after? {rest : Bytes} {part last : NumberPart}
    (h : part.after? rest = some last) : Controlless rest := by
  induction rest generalizing part with
  | nil => nofun
  | cons b rest ih =>
      obtain ⟨next, hnext, hrest⟩ := Option.bind_eq_some_iff.1 h
      refine (ih hrest).cons (not_control (fun b => (part.next? b).isSome) ?_ (by simp [hnext]))
      cases part <;> decide

theorem IsNumber.controlless {literal : Bytes} (h : IsNumber literal) : Controlless literal := by
  obtain ⟨hfirst, hrest, -⟩ := h
  refine (controlless_of_after? hrest).cons ?_
  exact not_control (fun b => (NumberPart.first? b).isSome) (by decide) (by simp [hfirst])

theorem controlless_quoteRaw {raw : Bytes} (h : Spelling (guardMarkup raw)) :
    Controlless (quoteRaw raw) := by
  have hquote : Controlless [0x22] := by simp [Controlless]
  exact (hquote.append h.controlless).append hquote

mutual

/-- **A tree is written on one line.** -/
theorem controlless_compactTo {tail : Bytes} (htail : Controlless tail) :
    (j : Json) → j.Spelled → Controlless (compactTo tail j)
  | .null, _ => by
      have hword : Controlless (utf8 "null") := by decide +kernel
      exact hword.append htail
  | .bool b, _ => by
      have hword : Controlless (ofBool b) := by
        cases b <;> decide +kernel
      exact hword.append htail
  | .number literal, h => (IsNumber.controlless h).append htail
  | .string raw, h => (controlless_quoteRaw h).append htail
  | .array [], _ => (htail.cons (by decide)).cons (by decide)
  | .array (item :: rest), h =>
      (controlless_compactTo (controlless_compactItems htail rest h.2) item h.1).cons (by decide)
  | .object [], _ => (htail.cons (by decide)).cons (by decide)
  | .object ((_, value) :: rest), h =>
      have hvalue := controlless_compactTo (controlless_compactMembers htail rest h.2.2) value h.2.1
      ((controlless_quoteRaw h.1).append (hvalue.cons (by decide))).cons (by decide)
termination_by structural j => j

theorem controlless_compactItems {tail : Bytes} (htail : Controlless tail) :
    (items : List Json) → ItemsSpelled items → Controlless (compactItems tail items)
  | [], _ => htail.cons (by decide)
  | item :: rest, h =>
      (controlless_compactTo (controlless_compactItems htail rest h.2) item h.1).cons (by decide)
termination_by structural items => items

theorem controlless_compactMembers {tail : Bytes} (htail : Controlless tail) :
    (members : List (Bytes × Json)) → MembersSpelled members →
    Controlless (compactMembers tail members)
  | [], _ => htail.cons (by decide)
  | (_, value) :: rest, h =>
      have hvalue := controlless_compactTo (controlless_compactMembers htail rest h.2.2) value h.2.1
      ((controlless_quoteRaw h.1).append (hvalue.cons (by decide))).cons (by decide)
termination_by structural members => members

end

end ReplBridge.Json
