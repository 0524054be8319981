import ReplBridge.Analysis.Response
import ReplBridge.Proofs.Json.Meaning
import ReplBridge.Proofs.Repl.Rendering
import ReplBridge.Proofs.Text.Blank

/-!
**Both shapes of an answer are read alike.**

Where a symbol is defined may be answered by one location or by a list of them, and what may be
written at a place by a list of items or by an object around one.  Which of two readers is used is
decided by the first byte of the text; what they make of it depends on its tree alone.  So the
question is one of trees: an object and the array that holds nothing else, and an array and the
object that holds it among its members.  White space around a text leaves the tree as it is.  What
is one level deeper has to nest within the limit too, hence the bound.

Main definitions:

* `Analysis.inBrackets`, `Analysis.inObject` — a value as the only item of a list, and a list inside
  an object.

Main results:

* `Json.Reads.list_array` — a single array is read item by item;
* `Analysis.startsArray_eq` — a text begins with a bracket exactly if it is one of an array;
* `Analysis.read_objectAround` — the items of an object are those of its list;
* `Analysis.shapes_decode_alike` — **one value or a list of it, a list or an object around it**.
-/

set_option autoImplicit false

namespace ReplBridge

namespace Json

/-! ### Texts -/

theorem Space.append {a b : Bytes} (ha : Space a) (hb : Space b) : Space (a ++ b) :=
  List.forall_mem_append.2 ⟨ha, hb⟩

theorem Space.white {a : Bytes} (h : Space a) : Blank.White a := by
  induction a with
  | nil => exact Blank.white_nil
  | cons b a ih =>
      obtain ⟨hb, ha⟩ := List.forall_mem_cons.1 h
      have hentry : [b] ∈ Blank.encodings := by
        simp only [isSpace, Bool.or_eq_true, beq_iff_eq] at hb
        rcases hb with ((rfl | rfl) | rfl) | rfl <;> decide
      exact (Blank.white_of_mem hentry).append (ih ha)

/-- White space around a text leaves it a text of the same tree. -/
theorem IsText.surround {j : Json} {s a b : Bytes} (h : IsText j s) (ha : Space a) (hb : Space b) :
    IsText j (a ++ (s ++ b)) := by
  obtain ⟨c, t, d, hc, ht, hd, rfl⟩ := h
  exact ⟨a ++ c, t, d ++ b, ha.append hc, ht, hd.append hb, by simp⟩

/-- A phrase begins with a byte that is not white space, and with a bracket exactly if it is one of
an array. -/
theorem phrase_first {j : Json} {t : Bytes} (h : Phrase j t) :
    ∃ b rest, t = b :: rest ∧ Blank.Solid [b] ∧ (b = 0x5B ↔ j.isArray = true) := by
  cases j with
  | null => exact ⟨0x6E, _, h, by decide, by decide⟩
  | bool b =>
      cases b with
      | true => exact ⟨0x74, _, h, by decide, by decide⟩
      | false => exact ⟨0x66, _, h, by decide, by decide⟩
  | number literal =>
      obtain ⟨rfl, hliteral⟩ := h
      obtain ⟨hfirst, -, -⟩ := isNumber_iff.2 hliteral
      have hblank : ∀ e ∈ Blank.encodings, e.head?.bind NumberPart.first? = none := by decide
      refine ⟨_, _, rfl, ?_, ?_⟩
      · intro b hb e he hhead
        obtain rfl := List.mem_singleton.1 hb
        have hnone := hblank e he
        rw [hhead, Option.bind_some, hfirst] at hnone
        cases hnone
      · constructor
        · rintro rfl
          cases hfirst
        · nofun
  | string raw => exact ⟨0x22, _, h.1, by decide, by simp [isArray]⟩
  | array items =>
      cases items with
      | nil =>
          obtain ⟨a, -, rfl⟩ := h
          exact ⟨0x5B, _, rfl, by decide, by simp [isArray]⟩
      | cons item rest =>
          obtain ⟨a, t, u, -, -, -, rfl⟩ := h
          exact ⟨0x5B, _, rfl, by decide, by simp [isArray]⟩
  | object members =>
      cases members with
      | nil =>
          obtain ⟨a, -, rfl⟩ := h
          exact ⟨0x7B, _, rfl, by decide, by simp [isArray]⟩
      | cons member rest =>
          obtain ⟨k, a, t, u, -, -, -, -, rfl⟩ := h
          exact ⟨0x7B, _, rfl, by decide, by simp [isArray]⟩

/-! ### Values -/

theorem decode?_of_text {α : Type} (read : Reads α) {j : Json} {s : Bytes} (h : IsText j s) :
    decode? read s = interpret? read j := by
  rw [decode?, parse?_eq_some_iff.2 h, Option.bind_some]

theorem interpret?_of_depth {α : Type} (read : Reads α) {j : Json} (h : j.depth ≤ maxDepth) :
    interpret? read j = read [j] := by
  rw [interpret?, if_pos ((nestsWithin_iff j maxDepth).2 h)]

namespace Reads

theorem layer_nil (js : List Json) : layer [] js = js.map ([·]) := by
  induction js with
  | nil => rfl
  | cons j js ih => rw [layer, ih, List.map_cons]

theorem cells_array {α : Type} (item : Reads α) (js : List Json) :
    cells item none [] [.array js] = some (some js.length, js.map ([·])) := by
  cases js with
  | nil => rfl
  | cons j js =>
      rw [cells.eq_def]
      simp [layer_nil, cells]

/-- **A single array is read item by item.** -/
theorem list_array {α : Type} (item : Reads α) (js : List Json) :
    list item [.array js] = (js.mapM fun j => item [j]).map some := by
  have hmap : (js.map ([·])).mapM item = js.mapM fun j => item [j] := List.mapM_map
  have hlist : list item [.array js] =
      ((js.map ([·])).mapM item).bind fun all => some (some (all.take js.length)) := by
    rw [list, cells_array]
    rfl
  rw [hlist, hmap]
  cases hall : js.mapM fun j => item [j] with
  | none => rfl
  | some all =>
      -- There are as many values as items, so all of them show.
      have hlength := (Repl.mapM_eq_some_iff.1 hall).length_eq
      rw [Option.bind_some, hlength, List.take_length, Option.map_some]

end Reads

end Json

namespace Analysis

open Protocol
open Json (IsText Space Reads)

/-! ### What decides between two readers -/

/-- **A text begins with a bracket exactly if it is one of an array.** -/
theorem startsArray_eq {j : Json} {s : Bytes} (h : IsText j s) : startsArray s = j.isArray := by
  obtain ⟨a, t, b, ha, ht, -, rfl⟩ := h
  obtain ⟨c, rest, rfl, hsolid, hbracket⟩ := Json.phrase_first ht
  have hstart : Blank.trimStart (a ++ (c :: rest ++ b)) = c :: (rest ++ b) := by
    rw [Blank.trimStart_append ha.white]
    exact Blank.trimStart_of_none (hsolid.start (by simp) (rest ++ b))
  have hfirst : [c] <+: Blank.trim (a ++ (c :: rest ++ b)) := by
    rw [Blank.prefix_trim hsolid, hstart]
    exact ⟨rest ++ b, rfl⟩
  obtain ⟨more, hmore⟩ := hfirst
  rw [startsArray, ← hmore, Bool.eq_iff_iff, ← hbracket]
  simp

theorem oneOrMany?_of_text {α : Type} (item : Reads α) {j : Json} {s t : Bytes} (hs : IsText j s)
    (ht : IsText j t) : oneOrMany? item s = oneOrMany? item t := by
  simp only [oneOrMany?, many?, startsArray_eq hs, startsArray_eq ht, Json.decode?_of_text _ hs,
    Json.decode?_of_text _ ht]

theorem completionItems?_of_text {j : Json} {s t : Bytes} (hs : IsText j s) (ht : IsText j t) :
    completionItems? s = completionItems? t := by
  simp only [completionItems?, many?, startsArray_eq hs, startsArray_eq ht,
    Json.decode?_of_text _ hs, Json.decode?_of_text _ ht]

theorem many?_of_array {α : Type} (item : Reads α) {items : List Json} {s : Bytes}
    (h : IsText (.array items) s) (hdepth : (Json.array items).depth ≤ Json.maxDepth) :
    many? item s = items.mapM fun j => item [j] := by
  rw [many?, Json.decode?_of_text _ h, Json.interpret?_of_depth _ hdepth, Reads.list_array,
    Option.map_map]
  exact Option.map_id'

/-! ### One value or a list -/

/-- A value as the only item of a list. -/
def inBrackets (value : Bytes) : Bytes := 0x5B :: (value ++ [0x5D])

theorem isText_inBrackets {j : Json} {s : Bytes} (h : IsText j s) :
    IsText (.array [j]) (inBrackets s) := by
  obtain ⟨a, t, b, ha, ht, hb, rfl⟩ := h
  refine ⟨[], inBrackets (a ++ (t ++ b)), [], Json.space_nil, ?_, Json.space_nil, by simp⟩
  exact ⟨a, t, b ++ [0x5D], ha, ht, ⟨b, hb, rfl⟩, by simp [inBrackets]⟩

theorem oneOrMany?_of_object {α : Type} (item : Reads α) {members : List (Bytes × Json)} {s : Bytes}
    (h : IsText (.object members) s) (hdepth : (Json.object members).depth ≤ Json.maxDepth) :
    oneOrMany? item s = (item [.object members]).map ([·]) := by
  have harray : startsArray s = false := startsArray_eq h
  rw [oneOrMany?, harray, if_neg Bool.false_ne_true, Json.decode?_of_text _ h,
    Json.interpret?_of_depth _ hdepth]

theorem oneOrMany?_inBrackets {α : Type} (item : Reads α) {j : Json} {s : Bytes} (h : IsText j s)
    (hdepth : j.depth < Json.maxDepth) : oneOrMany? item (inBrackets s) = (item [j]).map ([·]) := by
  have htext := isText_inBrackets h
  have harray : startsArray (inBrackets s) = true := startsArray_eq htext
  have hwhole : (Json.array [j]).depth ≤ Json.maxDepth := by
    simp only [Json.depth, Json.itemsDepth]
    omega
  rw [oneOrMany?, harray, if_pos rfl, many?_of_array item htext hwhole, List.mapM_cons,
    List.mapM_nil]
  cases item [j] <;> rfl

/-! ### A list or an object around it -/

/-- A list as a member of an object. -/
def inObject (incomplete : Bool) (list : Bytes) : Bytes :=
  utf8 "\x7b\"isIncomplete\":" ++
    (Json.ofBool incomplete ++ (utf8 ",\"items\":" ++ (list ++ [0x7D])))

/-- The tree of such an object. -/
def objectAround (incomplete : Bool) (items : List Json) : Json :=
  .object [(utf8 "isIncomplete", .bool incomplete), (utf8 "items", .array items)]

theorem key_of_name {name : String} (h : name ∈ ["isIncomplete", "items"]) :
    Json.Key (utf8 name) (0x22 :: (utf8 name ++ [0x22, 0x3A])) := by
  have hraw : ∀ name ∈ ["isIncomplete", "items"], Json.rawOf (utf8 name) = utf8 name := by
    decide
  have hspelling : Json.Spelling (utf8 name) := hraw name h ▸ Json.spelling_rawOf (utf8 name)
  exact ⟨[], [], Json.space_nil, Json.space_nil, hspelling, rfl⟩

theorem isText_inObject (incomplete : Bool) {items : List Json} {s : Bytes}
    (h : IsText (.array items) s) :
    IsText (objectAround incomplete items) (inObject incomplete s) := by
  obtain ⟨a, t, b, ha, ht, hb, rfl⟩ := h
  have hfirst : utf8 "\x7b\"isIncomplete\":" =
      0x7B :: 0x22 :: (utf8 "isIncomplete" ++ [0x22, 0x3A]) := by decide
  have hsecond : utf8 ",\"items\":" = 0x2C :: 0x22 :: (utf8 "items" ++ [0x22, 0x3A]) := by
    decide
  have hitems : Json.MembersPhrase [(utf8 "items", .array items)]
      (utf8 ",\"items\":" ++ (a ++ (t ++ (b ++ [0x7D])))) := by
    refine ⟨[], _, a, t, b ++ [0x7D], Json.space_nil, key_of_name (by simp), ha, ht, ?_, ?_⟩
    · exact ⟨b, hb, rfl⟩
    · rw [hsecond]
      simp
  refine ⟨[], inObject incomplete (a ++ (t ++ b)), [], Json.space_nil, ?_, Json.space_nil, by simp⟩
  refine ⟨_, [], Json.ofBool incomplete, _, key_of_name (by simp), Json.space_nil, rfl, hitems, ?_⟩
  rw [inObject, hfirst]
  simp

/-- **The items of such an object are those of its list.** -/
theorem read_objectAround (incomplete : Bool) (items : List Json) :
    CompletionList.read [objectAround incomplete items] =
      (Reads.list CompletionItem.read [.array items]).map fun shown =>
        { isIncomplete := incomplete, items := shown } := by
  have hkey : ∀ name ∈ ["isIncomplete", "items"],
      Reads.foldKey (Json.unescape (utf8 name)) = name.toList.map Reads.foldCase := by
    decide
  have hmembers : Reads.members? [objectAround incomplete items] =
      some [("isIncomplete".toList.map Reads.foldCase, .bool incomplete),
        ("items".toList.map Reads.foldCase, .array items)] := by
    rw [← hkey "items" (by simp), ← hkey "isIncomplete" (by simp)]
    rfl
  unfold CompletionList.read Reads.record Reads.fields
  rw [hmembers]
  cases hlist : Reads.list CompletionItem.read [.array items] <;>
    simp [Reads.given, Reads.part, Reads.bool, Reads.plain, hlist]

theorem completionItems?_of_array {items : List Json} {s : Bytes} (h : IsText (.array items) s)
    (hdepth : (Json.array items).depth ≤ Json.maxDepth) :
    completionItems? s = items.mapM fun item => CompletionItem.read [item] := by
  have harray : startsArray s = true := startsArray_eq h
  rw [completionItems?, harray, if_pos rfl, many?_of_array _ h hdepth]

theorem completionItems?_inObject (incomplete : Bool) {items : List Json} {s : Bytes}
    (h : IsText (.array items) s) (hdepth : (Json.array items).depth < Json.maxDepth) :
    completionItems? (inObject incomplete s) =
      items.mapM fun item => CompletionItem.read [item] := by
  have htext := isText_inObject incomplete h
  have harray : startsArray (inObject incomplete s) = false := startsArray_eq htext
  have hwhole : (objectAround incomplete items).depth ≤ Json.maxDepth := by
    simp only [objectAround, Json.depth, Json.membersDepth] at hdepth ⊢
    omega
  rw [completionItems?, harray, if_neg Bool.false_ne_true, Json.decode?_of_text _ htext,
    Json.interpret?_of_depth _ hwhole, read_objectAround, Reads.list_array]
  cases items.mapM fun item => CompletionItem.read [item] <;> rfl

/-! ### Both shapes -/

/-- **Both shapes of an answer are read alike.**  Take any text of an object that nests at most 9999
deep.  It is read as the one location that the object is read as, or not at all; and in brackets it
is read as the same list, or not at all either.  Take any text of an array that nests at most 9999
deep.  It is read as the items that its trees are read as, if all of them can be read; and inside an
object, whether that is marked as incomplete or not, as the same list, or not at all either.  Take
any text of any value.  With white space around it, it is read as it is without. -/
theorem shapes_decode_alike :
    (∀ members value, IsText (.object members) value → (Json.object members).depth ≤ 9999 →
      oneOrMany? Location.read value = (Location.read [.object members]).map ([·]) ∧
      oneOrMany? Location.read (inBrackets value) = oneOrMany? Location.read value) ∧
    (∀ items list incomplete, IsText (.array items) list → (Json.array items).depth ≤ 9999 →
      completionItems? list = (items.mapM fun item => CompletionItem.read [item]) ∧
      completionItems? (inObject incomplete list) = completionItems? list) ∧
    ∀ j value before after, IsText j value → Space before → Space after →
      oneOrMany? Location.read (before ++ (value ++ after)) = oneOrMany? Location.read value ∧
      completionItems? (before ++ (value ++ after)) = completionItems? value := by
  have hlimit : Json.maxDepth = 10000 := rfl
  refine ⟨?_, ?_, ?_⟩
  · intro members value h hdepth
    have hone := oneOrMany?_of_object Location.read h (by omega)
    exact ⟨hone, by rw [hone, oneOrMany?_inBrackets Location.read h (by omega)]⟩
  · intro items list incomplete h hdepth
    have hlist := completionItems?_of_array h (by omega)
    exact ⟨hlist, by rw [hlist, completionItems?_inObject incomplete h (by omega)]⟩
  · intro j value before after h hbefore hafter
    have hsame := h.surround hbefore hafter
    exact ⟨oneOrMany?_of_text _ hsame h, completionItems?_of_text hsame h⟩

/-- It happens: a location with a key given twice, in different cases, and a list of items of which
one has the wrong shape. -/
theorem shapes_decode_alike_oddMembers :
    let value := utf8 "\x7b\"uri\":\"a\",\"range\":\x7b\"end\":null\x7d,\"URI\":\"b\"\x7d"
    let list := utf8 "[\x7b\"label\":\"x\"\x7d, \x7b\"label\":1\x7d]"
    oneOrMany? Location.read value = some [{ uri := utf8 "b" }] ∧
      oneOrMany? Location.read (inBrackets value) = some [{ uri := utf8 "b" }] ∧
      oneOrMany? Location.read ([0x20] ++ (value ++ [0x0A])) = some [{ uri := utf8 "b" }] ∧
      completionItems? (inObject true list) = none := by
  intro value list
  have hvalue : IsText (.object [(utf8 "uri", .string (utf8 "a")),
      (utf8 "range", .object [(utf8 "end", .null)]), (utf8 "URI", .string (utf8 "b"))]) value :=
    Json.parse?_eq_some_iff.1 rfl
  have hlist : IsText (.array [.object [(utf8 "label", .string (utf8 "x"))],
      .object [(utf8 "label", .number (utf8 "1"))]]) list :=
    Json.parse?_eq_some_iff.1 rfl
  have hread : oneOrMany? Location.read value = some [{ uri := utf8 "b" }] := by decide
  have hbrackets := (shapes_decode_alike.1 _ value hvalue (by decide)).2
  have hspace := (shapes_decode_alike.2.2 _ value [0x20] [0x0A] hvalue (.cons rfl Json.space_nil)
    (.cons rfl Json.space_nil)).1
  have hitems := shapes_decode_alike.2.1 _ list true hlist (by decide)
  refine ⟨hread, hbrackets.trans hread, hspace.trans hread, hitems.2.trans (hitems.1.trans rfl)⟩

end Analysis

end ReplBridge
