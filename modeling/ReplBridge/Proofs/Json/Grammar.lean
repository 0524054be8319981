import ReplBridge.Proofs.Json.Numbers
import ReplBridge.Proofs.Json.Strings

/-!
**The grammar of JSON texts.**

A tree can be written in many ways, which differ in the white space between their tokens.  The
grammar says which texts these are, by recursion over the tree and without a machine.  The reader is
a machine with a stack, and what connects the two holds on top of any stack and in front of any
rest: where a value is due, the reader goes through exactly one phrase of the grammar and then stands
where that value is whole.  From left to right this is an induction over the tree, and from right to
left one over the length of the text.

Main definitions:

* `Json.Phrase` — the ways to write a tree, and `Json.IsText` — those with white space around them;
* `Json.Reader.reads` — the value that a reader makes of the text that is left.

Main results:

* `Json.reads_phrase` — **the reader goes through every phrase**;
* `Json.exists_phrase` — **the reader goes through nothing else**;
* `Json.parse?_eq_some_iff` — **what is read is what the grammar says**.
-/

set_option autoImplicit false

namespace ReplBridge.Json

variable {b : UInt8} {s : Bytes} {r : Reader} {j : Json} {stack up : List Container}

/-! ### Phrases -/

/-- White space between tokens. -/
def Space (s : Bytes) : Prop := ∀ b ∈ s, isSpace b = true

theorem space_nil : Space [] := nofun

theorem Space.cons (hb : isSpace b = true) (hs : Space s) :
    Space (b :: s) := List.forall_mem_cons.2 ⟨hb, hs⟩

/-- A key with its colon, and white space before either. -/
def Key (key s : Bytes) : Prop :=
  ∃ a b, Space a ∧ Space b ∧ Spelling key ∧ s = a ++ 0x22 :: (key ++ 0x22 :: (b ++ [0x3A]))

mutual

/-- **The ways to write a tree**, without white space around it. -/
def Phrase : Json → Bytes → Prop
  | .null, s => s = utf8 "null"
  | .bool b, s => s = ofBool b
  | .number literal, s => s = literal ∧ Literal literal
  | .string raw, s => s = 0x22 :: (raw ++ [0x22]) ∧ Spelling raw
  | .array [], s => ∃ a, Space a ∧ s = 0x5B :: (a ++ [0x5D])
  | .array (item :: rest), s =>
    ∃ a t u, Space a ∧ Phrase item t ∧ ItemsPhrase rest u ∧ s = 0x5B :: (a ++ (t ++ u))
  | .object [], s => ∃ a, Space a ∧ s = 0x7B :: (a ++ [0x7D])
  | .object ((key, value) :: rest), s =>
    ∃ k a t u, Key key k ∧ Space a ∧ Phrase value t ∧ MembersPhrase rest u ∧
      s = 0x7B :: (k ++ (a ++ (t ++ u)))
termination_by structural j => j

/-- The ways to write the items after the first and the end of the array. -/
def ItemsPhrase : List Json → Bytes → Prop
  | [], s => ∃ a, Space a ∧ s = a ++ [0x5D]
  | item :: rest, s =>
    ∃ a b t u, Space a ∧ Space b ∧ Phrase item t ∧ ItemsPhrase rest u ∧
      s = a ++ 0x2C :: (b ++ (t ++ u))
termination_by structural items => items

/-- The ways to write the members after the first and the end of the object. -/
def MembersPhrase : List (Bytes × Json) → Bytes → Prop
  | [], s => ∃ a, Space a ∧ s = a ++ [0x7D]
  | (key, value) :: rest, s =>
    ∃ a k b t u, Space a ∧ Key key k ∧ Space b ∧ Phrase value t ∧ MembersPhrase rest u ∧
      s = a ++ 0x2C :: (k ++ (b ++ (t ++ u)))
termination_by structural members => members

end

/-- **The texts of a tree**, white space around it allowed. -/
def IsText (j : Json) (s : Bytes) : Prop :=
  ∃ a t b, Space a ∧ Phrase j t ∧ Space b ∧ s = a ++ (t ++ b)

theorem itemsPhrase_cons_space (hb : isSpace b = true) {items : List Json} (h : ItemsPhrase items s)
    : ItemsPhrase items (b :: s) := by
  cases items with
  | nil =>
      obtain ⟨a, ha, rfl⟩ := h
      exact ⟨b :: a, ha.cons hb, rfl⟩
  | cons item rest =>
      obtain ⟨a, c, t, u, ha, hc, ht, hu, rfl⟩ := h
      exact ⟨b :: a, c, t, u, ha.cons hb, hc, ht, hu, rfl⟩

theorem membersPhrase_cons_space (hb : isSpace b = true) {members : List (Bytes × Json)}
    (h : MembersPhrase members s) : MembersPhrase members (b :: s) := by
  cases members with
  | nil =>
      obtain ⟨a, ha, rfl⟩ := h
      exact ⟨b :: a, ha.cons hb, rfl⟩
  | cons member rest =>
      obtain ⟨a, k, c, t, u, ha, hk, hc, ht, hu, rfl⟩ := h
      exact ⟨b :: a, k, c, t, u, ha.cons hb, hk, hc, ht, hu, rfl⟩

theorem Key.cons_space (hb : isSpace b = true) {key s : Bytes} (h : Key key s) :
    Key key (b :: s) := by
  obtain ⟨a, c, ha, hc, hkey, rfl⟩ := h
  exact ⟨b :: a, c, ha.cons hb, hc, hkey, rfl⟩

/-! ### The rest of a text -/

/-- The value that the reader makes of the text that is left. -/
def Reader.reads (r : Reader) (s : Bytes) : Option Json := (r.run s).bind Reader.value?

namespace Reader

theorem reads_nil (r : Reader) : r.reads [] = r.value? := rfl

theorem reads_cons (r : Reader) (b : UInt8) (s : Bytes) :
    r.reads (b :: s) = (r.step b).bind (·.reads s) := by
  unfold reads
  rw [run]
  cases r.step b <;> rfl

theorem reads_congr {r r' : Reader} {s s' : Bytes} (h : r.run s = r'.run s') :
    r.reads s = r'.reads s' := by
  rw [reads, reads, h]

end Reader

theorem parse?_eq_reads (s : Bytes) : parse? s = Reader.reads {} s := by
  unfold parse? Reader.reads
  cases Reader.run {} s <;> rfl

/-- Whether white space makes no difference. -/
def Mode.waits : Mode → Bool
  | .string _ _ _ | .literal _ _ | .number _ _ => false
  | _ => true

theorem step_space (hr : r.mode.waits = true) (hb : isSpace b = true) : r.step b = some r := by
  obtain ⟨stack, mode⟩ := r
  cases mode <;> simp_all [Mode.waits, Reader.step, Reader.afterValue]

theorem reads_space (hr : r.mode.waits = true) {a : Bytes} (ha : Space a) (s : Bytes) :
    r.reads (a ++ s) = r.reads s := by
  induction a with
  | nil => rfl
  | cons b a ih =>
      rw [List.cons_append, Reader.reads_cons, step_space hr (ha b (by simp)), Option.bind_some,
        ih fun c hc => ha c (by simp [hc])]

/-! ### From the grammar to the reader -/

/-- A string up to its closing quote. -/
theorem reads_spelling {raw : Bytes} (h : Spelling raw) (stack : List Container) (isKey : Bool)
    (rest : Bytes) :
    Reader.reads ⟨stack, .string isKey [] .outside⟩ (raw ++ 0x22 :: rest) =
      (Reader.finishString stack isKey raw).bind (·.reads rest) := by
  rw [Reader.reads_congr (run_spelling h stack isKey [] (0x22 :: rest)), Reader.reads_cons]
  simp [Reader.step, Reader.stepString]

theorem reads_literal {left : Bytes} (hleft : left ≠ []) (meaning : Json) (stack : List Container)
    (rest : Bytes) :
    Reader.reads ⟨stack, .literal left meaning⟩ (left ++ rest) =
      Reader.reads (Reader.finish meaning stack) rest := by
  induction left with
  | nil => exact absurd rfl hleft
  | cons b left ih =>
      rw [List.cons_append, Reader.reads_cons]
      cases left with
      | nil => simp [Reader.step]
      | cons c left =>
          rw [← ih (by simp)]
          simp [Reader.step]

/-- The bytes that stand behind a value inside an array or object. -/
def isDelimiter (b : UInt8) : Bool := b == 0x2C || b == 0x5D || b == 0x7D

/-- A text that begins with nothing a number could go on with. -/
def Stops (s : Bytes) : Prop := ∀ b ∈ s.head?, isSpace b = true ∨ isDelimiter b = true

theorem stops_space {a : Bytes} (ha : Space a) : Stops a := by
  intro b hb
  exact .inl (ha b (List.mem_of_mem_head? hb))

theorem stops_append_cons {a : Bytes} (ha : Space a) (hb : isDelimiter b = true) (s : Bytes) :
    Stops (a ++ b :: s) := by
  cases a with
  | nil =>
      intro c hc
      cases hc
      exact .inr hb
  | cons d a =>
      intro c hc
      cases hc
      exact .inl (ha d (by simp))

theorem stops_items {items : List Json} (h : ItemsPhrase items s) (rest : Bytes) :
    Stops (s ++ rest) := by
  cases items with
  | nil =>
      obtain ⟨a, ha, rfl⟩ := h
      rw [List.append_assoc]
      exact stops_append_cons ha rfl rest
  | cons item items =>
      obtain ⟨a, b, t, u, ha, -, -, -, rfl⟩ := h
      rw [List.append_assoc]
      exact stops_append_cons ha rfl _

theorem stops_members {members : List (Bytes × Json)} (h : MembersPhrase members s) (rest : Bytes) :
    Stops (s ++ rest) := by
  cases members with
  | nil =>
      obtain ⟨a, ha, rfl⟩ := h
      rw [List.append_assoc]
      exact stops_append_cons ha rfl rest
  | cons member members =>
      obtain ⟨a, k, b, t, u, ha, -, -, -, -, rfl⟩ := h
      rw [List.append_assoc]
      exact stops_append_cons ha rfl _

theorem next?_of_stop (h : isSpace b = true ∨ isDelimiter b = true) (part : NumberPart) :
    part.next? b = none := by
  simp only [isSpace, isDelimiter, Bool.or_eq_true, beq_iff_eq] at h
  rcases h with (((rfl | rfl) | rfl) | rfl) | (rfl | rfl) | rfl <;> cases part <;> rfl

theorem afterNumber_eq (stack : List Container) (raw : Bytes) (b : UInt8) :
    Reader.afterNumber stack raw b = (Reader.finish (.number raw.reverse) stack).step b := by
  cases stack with
  | nil => rfl
  | cons container up => cases container <;> rfl

/-- A number that may end is whole where it cannot go on. -/
theorem reads_number_end {part : NumberPart} (hend : part.isEnd = true) (raw : Bytes)
    (stack : List Container) {rest : Bytes} (hrest : ∀ b ∈ rest.head?, part.next? b = none) :
    Reader.reads ⟨stack, .number part raw⟩ rest =
      Reader.reads (Reader.finish (.number raw.reverse) stack) rest := by
  cases rest with
  | nil =>
      -- The end of the text is the end of the number, unless an array or object is open.
      cases stack with
      | nil => simp [Reader.reads_nil, Reader.value?, Reader.finish, hend]
      | cons container up => cases container <;> rfl
  | cons b rest =>
      have hstep : Reader.step ⟨stack, .number part raw⟩ b =
          (Reader.finish (.number raw.reverse) stack).step b := by
        rw [← afterNumber_eq]
        simp [Reader.step, hrest b rfl, hend]
      rw [Reader.reads_cons, Reader.reads_cons, hstep]

theorem reads_number {literal : Bytes} (h : Literal literal) (stack : List Container)
    {rest : Bytes} (hrest : Stops rest) :
    Reader.reads ⟨stack, .value⟩ (literal ++ rest) =
      Reader.reads (Reader.finish (.number literal) stack) rest := by
  obtain ⟨last, hend, hrun⟩ := run_isNumber (isNumber_iff.2 h) stack rest
  have hstop := reads_number_end hend literal.reverse stack fun b hb => next?_of_stop (hrest b hb) last
  rw [Reader.reads_congr hrun, hstop, List.reverse_reverse]

theorem reads_key {key k : Bytes} (h : Key key k) (members : List (Bytes × Json)) (before : Bytes)
    (up : List Container) (rest : Bytes) :
    Reader.reads ⟨.object members before :: up, .key⟩ (k ++ rest) =
      Reader.reads ⟨.object members key :: up, .value⟩ rest := by
  obtain ⟨a, b, ha, hb, hkey, rfl⟩ := h
  have hquote : Reader.step ⟨.object members before :: up, .key⟩ 0x22 =
      some ⟨.object members before :: up, .string true [] .outside⟩ := rfl
  have hcolon : Reader.step ⟨.object members key :: up, .colon⟩ 0x3A =
      some ⟨.object members key :: up, .value⟩ := rfl
  have hassoc : a ++ 0x22 :: (key ++ 0x22 :: (b ++ [0x3A])) ++ rest =
      a ++ 0x22 :: (key ++ 0x22 :: (b ++ 0x3A :: rest)) := by simp
  rw [hassoc, reads_space rfl ha, Reader.reads_cons, hquote, Option.bind_some,
    reads_spelling hkey]
  show Reader.reads ⟨.object members key :: up, .colon⟩ (b ++ 0x3A :: rest) = _
  rw [reads_space rfl hb, Reader.reads_cons, hcolon, Option.bind_some]

/-- The first key of an object is read like the others. -/
theorem reads_firstKey {key k : Bytes} (h : Key key k) (members : List (Bytes × Json))
    (before : Bytes) (up : List Container) (rest : Bytes) :
    Reader.reads ⟨.object members before :: up, .firstKey⟩ (k ++ rest) =
      Reader.reads ⟨.object members before :: up, .key⟩ (k ++ rest) := by
  obtain ⟨a, b, ha, -, -, rfl⟩ := h
  rw [List.append_assoc, reads_space rfl ha, reads_space rfl ha, List.cons_append,
    Reader.reads_cons, Reader.reads_cons]
  rfl

/-- A phrase begins neither with white space nor with the end of an array. -/
theorem phrase_head {t : Bytes} (h : Phrase j t) :
    ∃ b rest, t = b :: rest ∧ isSpace b = false ∧ b ≠ 0x5D := by
  cases j with
  | null => exact ⟨0x6E, _, h, rfl, by decide⟩
  | bool b =>
      cases b with
      | true => exact ⟨0x74, _, h, rfl, by decide⟩
      | false => exact ⟨0x66, _, h, rfl, by decide⟩
  | number literal =>
      obtain ⟨rfl, hliteral⟩ := h
      obtain ⟨hfirst, -, -⟩ := isNumber_iff.2 hliteral
      refine ⟨_, _, rfl, not_isSpace_of_first? hfirst, ?_⟩
      rintro rfl
      cases hfirst
  | string raw => exact ⟨0x22, _, h.1, rfl, by decide⟩
  | array items =>
      cases items with
      | nil =>
          obtain ⟨a, -, rfl⟩ := h
          exact ⟨0x5B, _, rfl, rfl, by decide⟩
      | cons item rest =>
          obtain ⟨a, t, u, -, -, -, rfl⟩ := h
          exact ⟨0x5B, _, rfl, rfl, by decide⟩
  | object members =>
      cases members with
      | nil =>
          obtain ⟨a, -, rfl⟩ := h
          exact ⟨0x7B, _, rfl, rfl, by decide⟩
      | cons member rest =>
          obtain ⟨k, a, t, u, -, -, -, -, rfl⟩ := h
          exact ⟨0x7B, _, rfl, rfl, by decide⟩

/-- The first item of an array is read like the others. -/
theorem reads_firstItem {t : Bytes} (h : Phrase j t) (stack : List Container) (rest : Bytes) :
    Reader.reads ⟨stack, .firstItem⟩ (t ++ rest) = Reader.reads ⟨stack, .value⟩ (t ++ rest) := by
  obtain ⟨b, more, rfl, hspace, hb⟩ := phrase_head h
  rw [List.cons_append, Reader.reads_cons, Reader.reads_cons]
  simp [Reader.step, hspace, hb]

mutual

/-- **The reader goes through every phrase**, on top of any stack and in front of any rest that a
number does not go on with. -/
theorem reads_phrase (stack : List Container) : (j : Json) → (t rest : Bytes) → Phrase j t →
    Stops rest →
    Reader.reads ⟨stack, .value⟩ (t ++ rest) = Reader.reads (Reader.finish j stack) rest
  | .null, t, rest, h, _ => by
      have hword : t = 0x6E :: [0x75, 0x6C, 0x6C] := h
      rw [hword, List.cons_append, Reader.reads_cons]
      exact reads_literal (by simp) .null stack rest
  | .bool true, t, rest, h, _ => by
      have hword : t = 0x74 :: [0x72, 0x75, 0x65] := h
      rw [hword, List.cons_append, Reader.reads_cons]
      exact reads_literal (by simp) (.bool true) stack rest
  | .bool false, t, rest, h, _ => by
      have hword : t = 0x66 :: [0x61, 0x6C, 0x73, 0x65] := h
      rw [hword, List.cons_append, Reader.reads_cons]
      exact reads_literal (by simp) (.bool false) stack rest
  | .number literal, t, rest, h, hrest => by
      obtain ⟨rfl, hliteral⟩ := h
      exact reads_number hliteral stack hrest
  | .string raw, t, rest, h, _ => by
      obtain ⟨rfl, hraw⟩ := h
      rw [List.cons_append, List.append_assoc, Reader.reads_cons]
      exact reads_spelling hraw stack false rest
  | .array [], t, rest, h, _ => by
      obtain ⟨a, ha, rfl⟩ := h
      have hopen : Reader.step ⟨stack, .value⟩ 0x5B = some ⟨.array [] :: stack, .firstItem⟩ := rfl
      rw [List.cons_append, List.append_assoc, Reader.reads_cons, hopen, Option.bind_some,
        reads_space rfl ha, List.singleton_append, Reader.reads_cons]
      rfl
  | .array (item :: items), t, rest, h, _ => by
      obtain ⟨a, t, u, ha, ht, hu, rfl⟩ := h
      have hopen : Reader.step ⟨stack, .value⟩ 0x5B = some ⟨.array [] :: stack, .firstItem⟩ := rfl
      rw [List.cons_append, List.append_assoc, List.append_assoc, Reader.reads_cons, hopen,
        Option.bind_some, reads_space rfl ha, reads_firstItem ht,
        reads_phrase (.array [] :: stack) item t (u ++ rest) ht (stops_items hu rest)]
      exact reads_items [item] stack items u rest hu
  | .object [], t, rest, h, _ => by
      obtain ⟨a, ha, rfl⟩ := h
      have hopen : Reader.step ⟨stack, .value⟩ 0x7B = some ⟨.object [] [] :: stack, .firstKey⟩ := rfl
      rw [List.cons_append, List.append_assoc, Reader.reads_cons, hopen, Option.bind_some,
        reads_space rfl ha, List.singleton_append, Reader.reads_cons]
      rfl
  | .object ((key, value) :: members), t, rest, h, _ => by
      obtain ⟨k, a, t, u, hk, ha, ht, hu, rfl⟩ := h
      have hopen : Reader.step ⟨stack, .value⟩ 0x7B = some ⟨.object [] [] :: stack, .firstKey⟩ := rfl
      rw [List.cons_append, List.append_assoc, List.append_assoc, List.append_assoc,
        Reader.reads_cons, hopen, Option.bind_some, reads_firstKey hk, reads_key hk,
        reads_space rfl ha,
        reads_phrase (.object [] key :: stack) value t (u ++ rest) ht (stops_members hu rest)]
      exact reads_members [(key, value)] stack members u rest hu
termination_by structural j => j

theorem reads_items (done : List Json) (up : List Container) : (items : List Json) →
    (t rest : Bytes) → ItemsPhrase items t →
    Reader.reads ⟨.array done :: up, .next⟩ (t ++ rest) =
      Reader.reads (Reader.finish (.array (done.reverse ++ items)) up) rest
  | [], t, rest, h => by
      obtain ⟨a, ha, rfl⟩ := h
      rw [List.append_assoc, reads_space rfl ha, List.singleton_append, Reader.reads_cons,
        List.append_nil]
      rfl
  | item :: items, t, rest, h => by
      obtain ⟨a, b, t, u, ha, hb, ht, hu, rfl⟩ := h
      have hcomma : Reader.step ⟨.array done :: up, .next⟩ 0x2C =
          some ⟨.array done :: up, .value⟩ := rfl
      rw [List.append_assoc, reads_space rfl ha, List.cons_append, Reader.reads_cons, hcomma,
        Option.bind_some, List.append_assoc, List.append_assoc, reads_space rfl hb,
        reads_phrase (.array done :: up) item t (u ++ rest) ht (stops_items hu rest)]
      -- Items that are done are kept the last one first.
      have hnext := reads_items (item :: done) up items u rest hu
      rw [List.reverse_cons, List.append_assoc] at hnext
      exact hnext
termination_by structural items => items

theorem reads_members (done : List (Bytes × Json)) (up : List Container) :
    (members : List (Bytes × Json)) → (t rest : Bytes) → MembersPhrase members t →
    Reader.reads ⟨.object done [] :: up, .next⟩ (t ++ rest) =
      Reader.reads (Reader.finish (.object (done.reverse ++ members)) up) rest
  | [], t, rest, h => by
      obtain ⟨a, ha, rfl⟩ := h
      rw [List.append_assoc, reads_space rfl ha, List.singleton_append, Reader.reads_cons,
        List.append_nil]
      rfl
  | (key, value) :: members, t, rest, h => by
      obtain ⟨a, k, b, t, u, ha, hk, hb, ht, hu, rfl⟩ := h
      have hcomma : Reader.step ⟨.object done [] :: up, .next⟩ 0x2C =
          some ⟨.object done [] :: up, .key⟩ := rfl
      rw [List.append_assoc, reads_space rfl ha, List.cons_append, Reader.reads_cons, hcomma,
        Option.bind_some, List.append_assoc, List.append_assoc, List.append_assoc, reads_key hk,
        reads_space rfl hb,
        reads_phrase (.object done key :: up) value t (u ++ rest) ht (stops_members hu rest)]
      have hnext := reads_members ((key, value) :: done) up members u rest hu
      rw [List.reverse_cons, List.append_assoc] at hnext
      exact hnext
termination_by structural members => members

end

/-! ### From the reader to the grammar -/

theorem exists_step (h : r.reads (b :: s) = some j) :
    ∃ r', r.step b = some r' ∧ r'.reads s = some j := by
  rw [Reader.reads_cons] at h
  exact Option.bind_eq_some_iff.1 h

/-- What is still owed after one more hexadecimal digit. -/
def Escape.paid : Nat → Escape
  | 0 => .outside
  | n + 1 => .digits n

theorem exists_hex {isKey : Bool} {acc s : Bytes} {owed : Nat}
    (h : Reader.reads ⟨stack, .string isKey acc (.digits owed)⟩ s = some j) :
    ∃ d rest, (Bytes.hexValue? d).isSome = true ∧ s = d :: rest ∧
      Reader.reads ⟨stack, .string isKey (d :: acc) (.paid owed)⟩ rest = some j := by
  cases s with
  | nil => cases stack <;> cases h
  | cons d rest =>
      obtain ⟨r, hstep, hrest⟩ := exists_step h
      simp only [Reader.step, Reader.stepString] at hstep
      split at hstep
      · rename_i hd
        cases hstep
        refine ⟨d, rest, hd, rfl, ?_⟩
        cases owed <;> exact hrest
      · cases hstep

theorem exists_escape {isKey : Bool} {acc s : Bytes}
    (h : Reader.reads ⟨stack, .string isKey acc .begun⟩ s = some j) :
    ∃ escape rest, (∀ raw, Spelling raw → Spelling (0x5C :: (escape ++ raw))) ∧ s = escape ++ rest ∧
      Reader.reads ⟨stack, .string isKey (escape.reverse ++ acc) .outside⟩ rest = some j := by
  cases s with
  | nil => cases stack <;> cases h
  | cons e s =>
      obtain ⟨r, hstep, hrest⟩ := exists_step h
      simp only [Reader.step, Reader.stepString] at hstep
      split at hstep
      · rename_i he
        cases hstep
        exact ⟨[e], s, fun raw hraw => .short he hraw, rfl, hrest⟩
      split at hstep
      · rename_i hu
        cases hstep
        obtain rfl := beq_iff_eq.1 hu
        obtain ⟨a, t₁, ha, rfl, h₁⟩ := exists_hex hrest
        obtain ⟨b, t₂, hb, rfl, h₂⟩ := exists_hex h₁
        obtain ⟨c, t₃, hc, rfl, h₃⟩ := exists_hex h₂
        obtain ⟨d, t₄, hd, rfl, h₄⟩ := exists_hex h₃
        refine ⟨[0x75, a, b, c, d], t₄, fun raw hraw => .unicode ?_ hraw, rfl, h₄⟩
        simp [ha, hb, hc, hd]
      · cases hstep

/-- A string up to its closing quote. -/
theorem exists_spelling {isKey : Bool} {acc s : Bytes}
    (h : Reader.reads ⟨stack, .string isKey acc .outside⟩ s = some j) :
    ∃ raw rest, Spelling raw ∧ s = raw ++ 0x22 :: rest ∧
      (Reader.finishString stack isKey (acc.reverse ++ raw)).bind (·.reads rest) = some j := by
  -- On the length of the text, since an escape is several bytes long.
  induction hn : s.length using Nat.strongRecOn generalizing acc s with
  | ind n ih =>
      cases s with
      | nil => cases stack <;> cases h
      | cons b s =>
          rw [List.length_cons] at hn
          obtain ⟨r, hstep, hrest⟩ := exists_step h
          simp only [Reader.step, Reader.stepString] at hstep
          split at hstep
          · rename_i hquote
            obtain rfl := beq_iff_eq.1 hquote
            refine ⟨[], s, .nil, rfl, ?_⟩
            rw [List.append_nil, hstep]
            exact hrest
          split at hstep
          · cases hstep
          rename_i hquote hcontrol
          cases hstep
          by_cases hslash : b = 0x5C
          · subst hslash
            obtain ⟨escape, t, hescape, rfl, hafter⟩ := exists_escape hrest
            have hshorter : t.length < n := by
              rw [List.length_append] at hn
              omega
            obtain ⟨raw, rest, hraw, rfl, hend⟩ := ih t.length hshorter hafter rfl
            refine ⟨0x5C :: (escape ++ raw), rest, hescape raw hraw, by simp, ?_⟩
            rw [← hend]
            simp
          · have houtside : (b == 0x5C) = false := beq_eq_false_iff_ne.2 hslash
            rw [houtside] at hrest
            obtain ⟨raw, rest, hraw, rfl, hend⟩ := ih s.length (by omega) hrest rfl
            refine ⟨b :: raw, rest, .plain hcontrol (by simpa using hquote) hslash hraw, rfl, ?_⟩
            rw [← hend]
            simp

theorem exists_literal {left s : Bytes} {meaning j : Json}
    (h : Reader.reads ⟨stack, .literal left meaning⟩ s = some j) :
    ∃ rest, s = left ++ rest ∧ Reader.reads (Reader.finish meaning stack) rest = some j := by
  induction left generalizing s with
  | nil =>
      cases s with
      | nil => cases stack <;> cases h
      | cons b s =>
          obtain ⟨r, hstep, -⟩ := exists_step h
          cases hstep
  | cons c left ih =>
      cases s with
      | nil => cases stack <;> cases h
      | cons b s =>
          obtain ⟨r, hstep, hrest⟩ := exists_step h
          cases left with
          | nil =>
              simp only [Reader.step] at hstep
              split at hstep
              · rename_i hb
                cases hstep
                exact ⟨s, by simp [beq_iff_eq.1 hb], hrest⟩
              · cases hstep
          | cons d left =>
              simp only [Reader.step] at hstep
              split at hstep
              · rename_i hb
                cases hstep
                obtain ⟨rest, rfl, hend⟩ := ih hrest
                exact ⟨rest, by simp [beq_iff_eq.1 hb], hend⟩
              · cases hstep

theorem exists_number {part : NumberPart} {acc s : Bytes}
    (h : Reader.reads ⟨stack, .number part acc⟩ s = some j) :
    ∃ more rest last, part.after? more = some last ∧ last.isEnd = true ∧ s = more ++ rest ∧
      Reader.reads (Reader.finish (.number (acc.reverse ++ more)) stack) rest = some j := by
  induction s generalizing part acc with
  | nil =>
      cases stack with
      | cons container up => cases h
      | nil =>
          rw [Reader.reads_nil] at h
          simp only [Reader.value?] at h
          split at h
          · rename_i hend
            cases h
            exact ⟨[], [], part, rfl, hend, rfl, by simp [Reader.finish, Reader.reads_nil,
              Reader.value?]⟩
          · cases h
  | cons b s ih =>
      obtain ⟨r, hstep, hrest⟩ := exists_step h
      simp only [Reader.step] at hstep
      split at hstep
      · rename_i next hnext
        cases hstep
        obtain ⟨more, rest, last, hafter, hend, rfl, hdone⟩ := ih hrest
        refine ⟨b :: more, rest, last, ?_, hend, rfl, ?_⟩
        · simp [NumberPart.after?, hnext, hafter]
        · rw [← hdone]
          simp
      · split at hstep
        · rename_i hend
          refine ⟨[], b :: s, part, rfl, hend, rfl, ?_⟩
          rw [List.append_nil, Reader.reads_cons, ← afterNumber_eq, hstep]
          exact hrest
        · cases hstep

theorem exists_colon (h : Reader.reads ⟨stack, .colon⟩ s = some j) :
    ∃ a rest, Space a ∧ s = a ++ 0x3A :: rest ∧ Reader.reads ⟨stack, .value⟩ rest = some j := by
  induction s with
  | nil => cases stack <;> cases h
  | cons b s ih =>
      obtain ⟨r, hstep, hrest⟩ := exists_step h
      simp only [Reader.step] at hstep
      split at hstep
      · rename_i hspace
        cases hstep
        obtain ⟨a, rest, ha, rfl, hvalue⟩ := ih hrest
        exact ⟨b :: a, rest, ha.cons hspace, rfl, hvalue⟩
      split at hstep
      · rename_i hcolon
        cases hstep
        obtain rfl := beq_iff_eq.1 hcolon
        exact ⟨[], s, space_nil, rfl, hrest⟩
      · cases hstep

theorem exists_key {members : List (Bytes × Json)} {before s : Bytes}
    (h : Reader.reads ⟨.object members before :: up, .key⟩ s = some j) :
    ∃ key k rest, Key key k ∧ s = k ++ rest ∧
      Reader.reads ⟨.object members key :: up, .value⟩ rest = some j := by
  induction s with
  | nil => cases h
  | cons b s ih =>
      obtain ⟨r, hstep, hrest⟩ := exists_step h
      simp only [Reader.step] at hstep
      split at hstep
      · rename_i hspace
        cases hstep
        obtain ⟨key, k, rest, hk, rfl, hvalue⟩ := ih hrest
        exact ⟨key, b :: k, rest, hk.cons_space hspace, rfl, hvalue⟩
      split at hstep
      · rename_i hquote
        cases hstep
        obtain rfl := beq_iff_eq.1 hquote
        obtain ⟨key, t, hkey, rfl, hcolon⟩ := exists_spelling hrest
        obtain ⟨a, rest, ha, rfl, hvalue⟩ := exists_colon hcolon
        refine ⟨key, 0x22 :: (key ++ 0x22 :: (a ++ [0x3A])), rest,
          ⟨[], a, space_nil, ha, hkey, rfl⟩, by simp, hvalue⟩
      · cases hstep

/-- After the opening bracket the array may end; otherwise an item is read like any value. -/
theorem exists_firstItem (h : Reader.reads ⟨.array [] :: up, .firstItem⟩ s = some j) :
    (∃ a rest, Space a ∧ s = a ++ 0x5D :: rest ∧
      Reader.reads (Reader.finish (.array []) up) rest = some j) ∨
    Reader.reads ⟨.array [] :: up, .value⟩ s = some j := by
  induction s with
  | nil => cases h
  | cons b s ih =>
      obtain ⟨r, hstep, hrest⟩ := exists_step h
      rw [Reader.reads_cons]
      simp only [Reader.step] at hstep ⊢
      split at hstep
      · rename_i hspace
        cases hstep
        rcases ih hrest with ⟨a, rest, ha, rfl, hend⟩ | hvalue
        · exact .inl ⟨b :: a, rest, ha.cons hspace, rfl, hend⟩
        · exact .inr (by simpa [hspace] using hvalue)
      split at hstep
      · rename_i hclose
        obtain rfl := beq_iff_eq.1 hclose
        cases hstep
        exact .inl ⟨[], s, space_nil, rfl, hrest⟩
      · rename_i hspace _
        refine .inr ?_
        rw [if_neg hspace, hstep]
        exact hrest

/-- After the opening brace the object may end; otherwise a key is read like any other. -/
theorem exists_firstKey (h : Reader.reads ⟨.object [] [] :: up, .firstKey⟩ s = some j) :
    (∃ a rest, Space a ∧ s = a ++ 0x7D :: rest ∧
      Reader.reads (Reader.finish (.object []) up) rest = some j) ∨
    Reader.reads ⟨.object [] [] :: up, .key⟩ s = some j := by
  induction s with
  | nil => cases h
  | cons b s ih =>
      obtain ⟨r, hstep, hrest⟩ := exists_step h
      rw [Reader.reads_cons]
      simp only [Reader.step] at hstep ⊢
      split at hstep
      · rename_i hspace
        cases hstep
        rcases ih hrest with ⟨a, rest, ha, rfl, hend⟩ | hkey
        · exact .inl ⟨b :: a, rest, ha.cons hspace, rfl, hend⟩
        · exact .inr (by simpa [hspace] using hkey)
      split at hstep
      · rename_i hspace hquote
        refine .inr ?_
        rw [if_neg hspace, if_pos hquote, hstep]
        exact hrest
      · simp only [Reader.close] at hstep
        split at hstep
        · rename_i hclose
          obtain rfl := beq_iff_eq.1 hclose
          cases hstep
          exact .inl ⟨[], s, space_nil, rfl, hrest⟩
        · cases hstep

/-- Where a value is due, a phrase stands, and behind it the value is whole. -/
def Due (s : Bytes) : Prop :=
  ∀ (stack : List Container) (j : Json), Reader.reads ⟨stack, .value⟩ s = some j →
    ∃ a v t rest, Space a ∧ Phrase v t ∧ s = a ++ (t ++ rest) ∧
      Reader.reads (Reader.finish v stack) rest = some j

/-- The items after the first, if values are phrases in all shorter texts. -/
theorem exists_items (hdue : ∀ t, t.length < s.length → Due t) {done : List Json}
    (h : Reader.reads ⟨.array done :: up, .next⟩ s = some j) :
    ∃ items t rest, ItemsPhrase items t ∧ s = t ++ rest ∧
      Reader.reads (Reader.finish (.array (done.reverse ++ items)) up) rest = some j := by
  induction hn : s.length using Nat.strongRecOn generalizing s done with
  | ind n ih =>
      cases s with
      | nil => cases h
      | cons b s =>
          rw [List.length_cons] at hn
          obtain ⟨r, hstep, hrest⟩ := exists_step h
          simp only [Reader.step, Reader.afterValue] at hstep
          have hshorter : ∀ u : Bytes, u.length ≤ s.length → ∀ t, t.length < u.length → Due t := by
            intro u hu t ht
            exact hdue t (by rw [List.length_cons]; omega)
          -- White space, then the comma of another item, or else the bracket.
          split at hstep
          · rename_i hspace
            cases hstep
            obtain ⟨items, t, rest, ht, rfl, hend⟩ :=
              ih s.length (by omega) (hshorter s (Nat.le_refl _)) hrest rfl
            exact ⟨items, b :: t, rest, itemsPhrase_cons_space hspace ht, rfl, hend⟩
          split at hstep
          · rename_i hcomma
            cases hstep
            obtain rfl := beq_iff_eq.1 hcomma
            obtain ⟨a, v, t, later, ha, ht, rfl, hnext⟩ := hdue s (by simp) _ _ hrest
            have hlen : later.length ≤ (a ++ (t ++ later)).length := by
              simp only [List.length_append]
              omega
            obtain ⟨items, u, rest, hu, rfl, hend⟩ :=
              ih later.length (by omega) (hshorter later hlen) hnext rfl
            refine ⟨v :: items, 0x2C :: (a ++ (t ++ u)), rest,
              ⟨[], a, t, u, space_nil, ha, ht, hu, rfl⟩, by simp, ?_⟩
            rw [← hend]
            simp
          · simp only [Reader.close] at hstep
            split at hstep
            · rename_i hclose
              obtain rfl := beq_iff_eq.1 hclose
              cases hstep
              refine ⟨[], [0x5D], s, ⟨[], space_nil, rfl⟩, rfl, ?_⟩
              rw [List.append_nil]
              exact hrest
            · cases hstep

/-- The members after the first, if values are phrases in all shorter texts. -/
theorem exists_members (hdue : ∀ t, t.length < s.length → Due t) {done : List (Bytes × Json)}
    (h : Reader.reads ⟨.object done [] :: up, .next⟩ s = some j) :
    ∃ members t rest, MembersPhrase members t ∧ s = t ++ rest ∧
      Reader.reads (Reader.finish (.object (done.reverse ++ members)) up) rest = some j := by
  induction hn : s.length using Nat.strongRecOn generalizing s done with
  | ind n ih =>
      cases s with
      | nil => cases h
      | cons b s =>
          rw [List.length_cons] at hn
          obtain ⟨r, hstep, hrest⟩ := exists_step h
          simp only [Reader.step, Reader.afterValue] at hstep
          have hshorter : ∀ u : Bytes, u.length ≤ s.length → ∀ t, t.length < u.length → Due t := by
            intro u hu t ht
            exact hdue t (by rw [List.length_cons]; omega)
          -- White space, then the comma of another member, or else the brace.
          split at hstep
          · rename_i hspace
            cases hstep
            obtain ⟨members, t, rest, ht, rfl, hend⟩ :=
              ih s.length (by omega) (hshorter s (Nat.le_refl _)) hrest rfl
            exact ⟨members, b :: t, rest, membersPhrase_cons_space hspace ht, rfl, hend⟩
          split at hstep
          · rename_i hcomma
            cases hstep
            obtain rfl := beq_iff_eq.1 hcomma
            obtain ⟨key, k, t₁, hk, rfl, hvalue⟩ := exists_key hrest
            have hlen₁ : t₁.length < (0x2C :: (k ++ t₁)).length := by
              rw [List.length_cons, List.length_append]
              omega
            obtain ⟨a, v, t, later, ha, ht, rfl, hnext⟩ := hdue t₁ hlen₁ _ _ hvalue
            have hlen : later.length ≤ (k ++ (a ++ (t ++ later))).length := by
              simp only [List.length_append]
              omega
            obtain ⟨members, u, rest, hu, rfl, hend⟩ :=
              ih later.length (by omega) (hshorter later hlen) hnext rfl
            refine ⟨(key, v) :: members, 0x2C :: (k ++ (a ++ (t ++ u))), rest,
              ⟨[], k, a, t, u, space_nil, hk, ha, ht, hu, rfl⟩, by simp, ?_⟩
            rw [← hend]
            simp
          · simp only [Reader.close] at hstep
            split at hstep
            · rename_i hclose
              obtain rfl := beq_iff_eq.1 hclose
              cases hstep
              refine ⟨[], [0x7D], s, ⟨[], space_nil, rfl⟩, rfl, ?_⟩
              rw [List.append_nil]
              exact hrest
            · cases hstep

theorem exists_isNumber {first : NumberPart} (hfirst : NumberPart.first? b = some first)
    (h : Reader.reads ⟨stack, .number first [b]⟩ s = some j) :
    ∃ v t rest, Phrase v t ∧ b :: s = t ++ rest ∧
      Reader.reads (Reader.finish v stack) rest = some j := by
  obtain ⟨more, rest, last, hafter, hend, rfl, hdone⟩ := exists_number h
  exact ⟨.number (b :: more), b :: more, rest, ⟨rfl, isNumber_iff.1 (.mk hfirst hafter hend)⟩, rfl,
    hdone⟩

theorem exists_array (hdue : ∀ t, t.length ≤ s.length → Due t)
    (h : Reader.reads ⟨.array [] :: stack, .firstItem⟩ s = some j) :
    ∃ v t rest, Phrase v t ∧ 0x5B :: s = t ++ rest ∧
      Reader.reads (Reader.finish v stack) rest = some j := by
  rcases exists_firstItem h with ⟨a, rest, ha, rfl, hend⟩ | hvalue
  · exact ⟨.array [], 0x5B :: (a ++ [0x5D]), rest, ⟨a, ha, rfl⟩, by simp, hend⟩
  · obtain ⟨a, item, t, later, ha, ht, rfl, hnext⟩ := hdue s (Nat.le_refl _) _ _ hvalue
    have hlater : ∀ u, u.length < later.length → Due u := by
      intro u hu
      refine hdue u ?_
      simp only [List.length_append]
      omega
    obtain ⟨items, u, rest, hu, rfl, hend⟩ := exists_items hlater hnext
    exact ⟨.array (item :: items), 0x5B :: (a ++ (t ++ u)), rest, ⟨a, t, u, ha, ht, hu, rfl⟩,
      by simp, hend⟩

theorem exists_object (hdue : ∀ t, t.length ≤ s.length → Due t)
    (h : Reader.reads ⟨.object [] [] :: stack, .firstKey⟩ s = some j) :
    ∃ v t rest, Phrase v t ∧ 0x7B :: s = t ++ rest ∧
      Reader.reads (Reader.finish v stack) rest = some j := by
  rcases exists_firstKey h with ⟨a, rest, ha, rfl, hend⟩ | hkey
  · exact ⟨.object [], 0x7B :: (a ++ [0x7D]), rest, ⟨a, ha, rfl⟩, by simp, hend⟩
  · obtain ⟨key, k, t₁, hk, rfl, hvalue⟩ := exists_key hkey
    obtain ⟨a, value, t, later, ha, ht, rfl, hnext⟩ := hdue t₁ (by simp) _ _ hvalue
    have hlater : ∀ u, u.length < later.length → Due u := by
      intro u hu
      refine hdue u ?_
      simp only [List.length_append]
      omega
    obtain ⟨members, u, rest, hu, rfl, hend⟩ := exists_members hlater hnext
    exact ⟨.object ((key, value) :: members), 0x7B :: (k ++ (a ++ (t ++ u))), rest,
      ⟨k, a, t, u, hk, ha, ht, hu, rfl⟩, by simp, hend⟩

theorem exists_begin (hdue : ∀ t, t.length ≤ s.length → Due t)
    (hbegin : Reader.begin stack b = some r) (hrest : r.reads s = some j) :
    ∃ v t rest, Phrase v t ∧ b :: s = t ++ rest ∧
      Reader.reads (Reader.finish v stack) rest = some j := by
  have hliteral (meaning : Json) {left : Bytes} (hphrase : Phrase meaning (b :: left))
      (h : Reader.reads ⟨stack, .literal left meaning⟩ s = some j) :
      ∃ v t rest, Phrase v t ∧ b :: s = t ++ rest ∧
        Reader.reads (Reader.finish v stack) rest = some j := by
    obtain ⟨rest, rfl, hend⟩ := exists_literal h
    exact ⟨meaning, b :: left, rest, hphrase, rfl, hend⟩
  -- One byte decides which value it is.
  unfold Reader.begin at hbegin
  split at hbegin
  · rename_i hb
    obtain rfl := beq_iff_eq.1 hb
    cases hbegin
    exact exists_object hdue hrest
  split at hbegin
  · rename_i hb
    obtain rfl := beq_iff_eq.1 hb
    cases hbegin
    exact exists_array hdue hrest
  split at hbegin
  · rename_i hb
    obtain rfl := beq_iff_eq.1 hb
    cases hbegin
    obtain ⟨raw, rest, hraw, rfl, hend⟩ := exists_spelling hrest
    exact ⟨.string raw, 0x22 :: (raw ++ [0x22]), rest, ⟨rfl, hraw⟩, by simp, hend⟩
  split at hbegin
  · rename_i hb
    cases hbegin
    exact exists_isNumber (by rw [NumberPart.first?, if_pos hb]) hrest
  split at hbegin
  · rename_i hminus hb
    cases hbegin
    exact exists_isNumber (by rw [NumberPart.first?, if_neg hminus, if_pos hb]) hrest
  split at hbegin
  · rename_i hminus hzero hb
    cases hbegin
    exact exists_isNumber (by rw [NumberPart.first?, if_neg hminus, if_neg hzero, if_pos hb]) hrest
  split at hbegin
  · rename_i hb
    obtain rfl := beq_iff_eq.1 hb
    cases hbegin
    exact hliteral (.bool true) rfl hrest
  split at hbegin
  · rename_i hb
    obtain rfl := beq_iff_eq.1 hb
    cases hbegin
    exact hliteral (.bool false) rfl hrest
  split at hbegin
  · rename_i hb
    obtain rfl := beq_iff_eq.1 hb
    cases hbegin
    exact hliteral .null rfl hrest
  · cases hbegin

/-- **The reader goes through nothing but phrases.** -/
theorem exists_phrase (s : Bytes) : Due s := by
  -- On the length of the text, since what stands inside an array or object is a shorter one.
  induction hn : s.length using Nat.strongRecOn generalizing s with
  | ind n ih =>
      intro stack j h
      cases s with
      | nil => cases stack <;> cases h
      | cons b s =>
          rw [List.length_cons] at hn
          have hdue : ∀ t : Bytes, t.length ≤ s.length → Due t := by
            intro t ht
            exact ih t.length (by omega) t rfl
          obtain ⟨r, hstep, hrest⟩ := exists_step h
          simp only [Reader.step] at hstep
          split at hstep
          · rename_i hspace
            cases hstep
            obtain ⟨a, v, t, rest, ha, ht, rfl, hend⟩ := hdue s (Nat.le_refl _) _ _ hrest
            exact ⟨b :: a, v, t, rest, ha.cons hspace, ht, rfl, hend⟩
          · obtain ⟨v, t, rest, ht, hbytes, hend⟩ := exists_begin hdue hstep hrest
            exact ⟨[], v, t, rest, space_nil, ht, hbytes, hend⟩

/-! ### Whole texts -/

/-- Behind a whole value only white space may stand. -/
theorem reads_done {v j : Json} : Reader.reads ⟨[], .done v⟩ s = some j ↔ Space s ∧ v = j := by
  induction s with
  | nil => simp [Reader.reads_nil, Reader.value?, space_nil]
  | cons b s ih =>
      have hcons : Space (b :: s) ↔ isSpace b = true ∧ Space s := List.forall_mem_cons
      rw [Reader.reads_cons, hcons]
      cases hspace : isSpace b with
      | true => simpa [Reader.step, hspace] using ih
      | false => simp [Reader.step, hspace]

/-- **What is read is what the grammar says.** -/
theorem parse?_eq_some_iff : parse? s = some j ↔ IsText j s := by
  rw [parse?_eq_reads]
  constructor
  · intro h
    obtain ⟨a, v, t, rest, ha, ht, rfl, hend⟩ := exists_phrase s [] j h
    obtain ⟨hspace, rfl⟩ := reads_done.1 hend
    exact ⟨a, t, rest, ha, ht, hspace, rfl⟩
  · -- A number at the end of the text has nothing but white space behind it.
    rintro ⟨a, t, b, ha, ht, hb, rfl⟩
    rw [reads_space rfl ha, reads_phrase [] j t b ht (stops_space hb)]
    exact reads_done.2 ⟨hb, rfl⟩

end ReplBridge.Json
