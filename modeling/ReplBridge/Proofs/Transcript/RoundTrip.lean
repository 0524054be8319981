import ReplBridge.Proofs.Json.RoundTrip
import ReplBridge.Proofs.Packed.Stored
import ReplBridge.Proofs.Text.Lines
import ReplBridge.Proofs.Time.Stamp
import ReplBridge.Transcript.Writer

/-!
**What is recorded is read back.**

An entry goes through four layers: it becomes a tree, the tree a text, the text a line, and lines
go through an encoder.  Each layer is undone by its reader.  The text of a tree has no control
bytes, so a newline ends a line and nothing else.  Of the codec nothing is used but that decoding
undoes encoding, whatever the portions in which the content came and wherever it was flushed; frames
of stored blocks are one that does.

A writer is open until it is closed for the first time.  While it is open, its encoder was given the
lines of what was recorded; after that no operation changes it.

Main definitions:

* `Transcript.Entry.Fits` — an entry that the format can carry;
* `Transcript.Codec.Lossless` — **what is asked of a codec**;
* `Transcript.Operation`, `Transcript.Writer.performAll` — what is done with a writer, step after
  step;
* `Transcript.recorded` — the entries that were recorded before a writer was closed;
* `Transcript.Writer.Open` — **the invariant** of a writer that is not closed.

Main results:

* `Transcript.entry?_compact` — **an entry reads back** from its line;
* `Transcript.readLines_flatMap` — lines read back;
* `Transcript.lossless_stored` — stored blocks are read back;
* `Transcript.Writer.Open.performAll`, `Transcript.Writer.Open.close` — one operation after another,
  and the end;
* `Transcript.read_of_written` — **the round trip**.
-/

set_option autoImplicit false

namespace ReplBridge.Transcript

open Json (Reads)

variable {e : Entry} {es : List Entry}

/-! ### An entry as a tree -/

/-- **An entry that the format can carry**: its texts are UTF-8, its number has 64 bits, its time is
one that a clock can show, and its line fits. -/
structure Entry.Fits (e : Entry) : Prop where
  /-- The time is one that a clock can show. -/
  time : e.time.Valid
  session : Utf8.valid e.session = true
  /-- The number has 64 bits. -/
  seq : e.seq < Decimal.twoTo 64
  /-- The direction is UTF-8. -/
  dir : Utf8.valid e.dir = true
  text : Utf8.valid e.text = true
  /-- The line fits, with its newline. -/
  line : e.line.length ≤ lineLimit

instance (e : Entry) : Decidable e.Fits :=
  decidable_of_iff (e.time.Valid ∧ Utf8.valid e.session = true ∧ e.seq < Decimal.twoTo 64 ∧
      Utf8.valid e.dir = true ∧ Utf8.valid e.text = true ∧ e.line.length ≤ lineLimit)
    ⟨fun ⟨time, session, seq, dir, text, line⟩ => ⟨time, session, seq, dir, text, line⟩,
      fun h => ⟨h.time, h.session, h.seq, h.dir, h.text, h.line⟩⟩

/-- The names of the parts of an entry. -/
def names : List String := ["time", "session", "seq", "dir", "text"]

theorem rawOf_name : ∀ name ∈ names, Json.rawOf (utf8 name) = utf8 name := by
  decide +kernel

/-- Names are matched as they are: no two of them differ in case only. -/
theorem foldKey_name : ∀ name ∈ names, ∀ other ∈ names,
    (Reads.foldKey (Json.unescape (utf8 name)) == other.toList.map Reads.foldCase) =
      (name == other) := by
  decide +kernel

/-- The parts of an entry, by their names. -/
def parts (e : Entry) : List (String × Json) :=
  [("time", Json.text e.time.text)]
    ++ (if e.session.isEmpty then [] else [("session", Json.text e.session)])
    ++ [("seq", Json.nat e.seq), ("dir", Json.text e.dir), ("text", Json.text e.text)]

theorem json_eq (e : Entry) : e.json = Json.record (parts e) := rfl

theorem name_of_mem_parts : ∀ m ∈ parts e, m.1 ∈ names := by
  unfold parts
  split <;> simp [names]

theorem settled_json (e : Entry) : e.json.Settled := by
  have hvalue : ∀ m ∈ parts e, m.2.Settled := by
    unfold parts
    split <;> simp [Json.settled_text, Json.settled_nat]
  refine Json.settled_record ?_
  intro m hm
  exact ⟨rawOf_name m.1 (name_of_mem_parts m hm), hvalue m hm⟩

theorem readStamp_text {t : Time.Stamp} (h : t.Valid) :
    Entry.readStamp [Json.text t.text] = some t := by
  have htext : Json.unescape (Json.rawOf t.text) = t.text :=
    Json.unescape_rawOf_of_valid (Utf8.valid_of_ascii t.ascii_text)
  simp [Entry.readStamp, Reads.plain, Json.text, htext, Time.Stamp.read?_text h]

theorem readText_text {s : Bytes} (h : Utf8.valid s = true) :
    Reads.text [Json.text s] = some s := by
  simp [Reads.text, Reads.plain, Json.text, Json.unescape_rawOf_of_valid h]

theorem natBelow_nat {bits n : Nat} (h : n < Decimal.twoTo bits) :
    Reads.natBelow bits [Json.nat n] = some n := by
  have hread : Json.nat n = .number (Decimal.ofNat n) := rfl
  simp [Reads.natBelow, Reads.plain, hread, Decimal.nat?_ofNat, Option.filter, h]

/-- The trees that a field is given are those of its name. -/
theorem given_record {members : List (String × Json)} (h : ∀ m ∈ members, m.1 ∈ names)
    {name : String} (hname : name ∈ names) :
    Reads.given name (members.map fun m => (Reads.foldKey (Json.unescape (utf8 m.1)), m.2)) =
      (members.filter (·.1 == name)).map (·.2) := by
  rw [Reads.given, List.filter_map, List.map_map]
  refine congrArg (List.map _) (List.filter_congr ?_)
  intro m hm
  exact foldKey_name m.1 (h m hm) name hname

theorem read_record {members : List (String × Json)} (h : ∀ m ∈ members, m.1 ∈ names)
    (htime : Entry.readStamp ((members.filter (·.1 == "time")).map (·.2)) = some e.time)
    (hsession : Reads.text ((members.filter (·.1 == "session")).map (·.2)) = some e.session)
    (hseq : Reads.natBelow 64 ((members.filter (·.1 == "seq")).map (·.2)) = some e.seq)
    (hdir : Reads.text ((members.filter (·.1 == "dir")).map (·.2)) = some e.dir)
    (htext : Reads.text ((members.filter (·.1 == "text")).map (·.2)) = some e.text) :
    Entry.read [Json.record members] = some e := by
  have hmembers : Reads.members? [Json.record members] =
      some (members.map fun m => (Reads.foldKey (Json.unescape (utf8 m.1)), m.2)) := by
    simp [Reads.members?, Json.record]
  rw [← given_record h (by decide)] at htime hsession hseq hdir htext
  simp [Entry.read, Reads.record, Reads.fields, hmembers, Reads.part, htime, hsession, hseq, hdir,
    htext]

theorem read_json (h : e.Fits) : Entry.read [e.json] = some e := by
  have htime := readStamp_text h.time
  have hsession := readText_text h.session
  have hseq := natBelow_nat h.seq
  have hdir := readText_text h.dir
  have htext := readText_text h.text
  have hnames := name_of_mem_parts (e := e)
  rw [json_eq]
  unfold parts at hnames ⊢
  split at hnames
  · rename_i hempty
    have hnone : Reads.text [] = some e.session := by
      rw [List.isEmpty_iff.1 hempty]
      rfl
    rw [if_pos hempty]
    exact read_record hnames htime hnone hseq hdir htext
  · rename_i hfull
    rw [if_neg hfull]
    exact read_record hnames htime hsession hseq hdir htext

/-- **An entry reads back** from its text. -/
theorem entry?_compact (h : e.Fits) : entry? (Json.compact e.json) = some e := by
  have hnests : Json.nestsWithin Json.maxDepth e.json = true := by
    unfold Entry.json
    split <;> rfl
  rw [ entry?, Json.decode?, (settled_json e).parse?, Option.bind_some, Json.interpret?,
    if_pos hnests, read_json h]

/-! ### Lines -/

theorem isLine_compact (h : e.Fits) : Lines.IsLine lineLimit (Json.compact e.json) := by
  have hnil : Json.Controlless [] := nofun
  have hcontrol : Json.Controlless (Json.compact e.json) :=
    Json.controlless_compactTo hnil e.json (settled_json e).spelled
  -- Neither a newline nor a carriage return stands in a text without control bytes.
  refine ⟨?_, ?_, ?_⟩
  · intro hmem
    exact hcontrol _ hmem (by decide)
  · intro hlast
    exact hcontrol _ (List.mem_of_getLast? hlast) (by decide)
  · have hfits := h.line
    rw [Entry.line, List.length_append, List.length_singleton] at hfits
    exact hfits

theorem entriesOf_map (h : ∀ e ∈ es, e.Fits) (done : List Entry) :
    entriesOf done (es.map fun e => Json.compact e.json) = (done.reverse ++ es, none) := by
  induction es generalizing done with
  | nil => simp [entriesOf]
  | cons e es ih =>
      have hread := entry?_compact (h e (by simp))
      have hfull : (Json.compact e.json).isEmpty = false := by
        obtain ⟨b, rest, hbytes, -⟩ := Json.compactTo_head (settled_json e).spelled []
        rw [Json.compact, hbytes]
        rfl
      rw [List.map_cons, entriesOf, hfull, if_neg Bool.false_ne_true, hread]
      simp [ih fun d hd => h d (by simp [hd])]

/-- **Lines read back.** -/
theorem readLines_flatMap (h : ∀ e ∈ es, e.Fits) :
    readLines (es.flatMap Entry.line) = (es, none) := by
  have hlines : es.flatMap Entry.line =
      (es.map fun e => Json.compact e.json).flatMap (· ++ [Bytes.newline]) := by
    rw [List.flatMap_map]
    rfl
  have hscan : Lines.scan lineLimit (es.flatMap Entry.line) =
      (es.map fun e => Json.compact e.json, false) := by
    rw [hlines]
    refine Lines.scan_flatMap ?_
    intro line hline
    obtain ⟨e, he, rfl⟩ := List.mem_map.1 hline
    exact isLine_compact (h e he)
  simp [readLines, hscan, entriesOf_map h]

/-! ### Codecs -/

section Codec

variable {E : Type}

/-- **An encoder that was given a content and gave out some bytes.** -/
inductive Codec.Encodes (codec : Codec E) : E → (content out : Bytes) → Prop
  | fresh : Encodes codec codec.fresh [] []
  | write {e : E} {content out : Bytes} (more : Bytes) (h : Encodes codec e content out) :
      Encodes codec (codec.write e more).1 (content ++ more) (out ++ (codec.write e more).2)
  | flush {e : E} {content out : Bytes} (h : Encodes codec e content out) :
      Encodes codec (codec.flush e).1 content (out ++ (codec.flush e).2)

/-- **Decoding undoes encoding**: what an encoder gives out up to its end decodes to what it was
given. -/
def Codec.Lossless (codec : Codec E) : Prop :=
  ∀ {e : E} {content out : Bytes}, codec.Encodes e content out →
    codec.decode (out ++ codec.close e) = (content, none)

/-- The entries of a file are those of its content. -/
theorem read_of_decode {codec : Codec E} {s : Bytes}
    (hdecode : codec.decode s = (es.flatMap Entry.line, none)) (h : ∀ e ∈ es, e.Fits) :
    read codec s = (es, none) := by
  simp [read, hdecode, readLines_flatMap h]

end Codec

/-- What portions are stored as, without an end: nothing if there are none. -/
def portioned : List Bytes → Bytes
  | [] => []
  | portions => Packed.header ++ portions.flatMap Packed.blocks

theorem portioned_concat (portions : List Bytes) (waiting : List Bytes) :
    portioned portions ++ Stored.blocks { begun := !portions.isEmpty, waiting } =
      Packed.header ++ (portions ++ [waiting.reverse.flatten]).flatMap Packed.blocks := by
  cases portions <;> simp [portioned, Stored.blocks]

/-- An encoder of stored blocks has given out portions, and holds back the rest. -/
theorem portions_of_encodes {e : Stored} {content out : Bytes} (h : stored.Encodes e content out) :
    ∃ portions : List Bytes, out = portioned portions ∧ e.begun = !portions.isEmpty ∧
      content = portions.flatten ++ e.waiting.reverse.flatten := by
  induction h with
  | fresh => exact ⟨[], rfl, rfl, rfl⟩
  | write more _ ih =>
      obtain ⟨portions, rfl, hbegun, rfl⟩ := ih
      exact ⟨portions, List.append_nil _, hbegun, by simp [stored]⟩
  | @flush e content out _ ih =>
      obtain ⟨portions, rfl, hbegun, rfl⟩ := ih
      obtain ⟨begun, waiting⟩ := e
      obtain rfl : begun = !portions.isEmpty := hbegun
      cases waiting with
      | nil => exact ⟨portions, List.append_nil _, rfl, rfl⟩
      | cons last waiting =>
          refine ⟨portions ++ [(last :: waiting).reverse.flatten], ?_, by simp [stored, Stored.flush],
            by simp [stored, Stored.flush]⟩
          refine (portioned_concat portions (last :: waiting)).trans ?_
          cases portions <;> rfl

/-- **Stored blocks are read back.** -/
theorem lossless_stored : stored.Lossless := by
  intro e content out h
  obtain ⟨portions, rfl, hbegun, rfl⟩ := portions_of_encodes h
  obtain ⟨begun, waiting⟩ := e
  obtain rfl : begun = !portions.isEmpty := hbegun
  cases hnothing : waiting.isEmpty && portions.isEmpty with
  | true =>
      -- Nothing was given out and nothing waits: there is no frame.
      rw [Bool.and_eq_true, List.isEmpty_iff, List.isEmpty_iff] at hnothing
      obtain ⟨rfl, rfl⟩ := hnothing
      rfl
  | false =>
      -- What waits becomes the last portion, which may be empty.
      have hclose : Stored.close { begun := !portions.isEmpty, waiting } =
          Stored.blocks { begun := !portions.isEmpty, waiting } ++ Packed.finalBlock := by
        simp [Stored.close, hnothing]
      have hframe := Packed.decode_portions (portions ++ [waiting.reverse.flatten])
      rw [← List.append_assoc, ← portioned_concat, List.append_assoc, ← hclose] at hframe
      simp [stored, hframe.1, hframe.2]

/-! ### What is done with a writer -/

/-- Something that is done with a writer. -/
inductive Operation where
  | record (time : Time.Stamp) (dir : Direction) (seq : Nat) (text : Bytes)
  | flush
  | close
  deriving DecidableEq, Repr

/-- **The entries that are recorded before a transcript is closed.** -/
def recorded (session : Bytes) : List Operation → List Entry
  | [] => []
  | .record time dir seq text :: ops =>
    { time, session, seq, dir := dir.name, text } :: recorded session ops
  | .flush :: ops => recorded session ops
  | .close :: _ => []

section Writing

variable {E : Type} {codec : Codec E}

namespace Writer

/-- One operation, and how it failed. -/
def perform (codec : Codec E) (w : Writer E) : Operation → Writer E × Option Refusal
  | .record time dir seq text => (w.record codec time dir seq text, none)
  | .flush => w.flush codec
  | .close => w.close codec

/-- One operation after another. -/
def performAll (codec : Codec E) (w : Writer E) : List Operation → Writer E
  | [] => w
  | op :: ops => (w.perform codec op).1.performAll codec ops

/-- **A writer that is open**: it takes what it is given, and its encoder was given the lines of
what was recorded and gave out what was written. -/
structure Open (codec : Codec E) (w : Writer E) (es : List Entry) : Prop where
  closed : w.closed = false
  /-- It refuses nothing. -/
  refusal : w.refusal = none
  /-- What it is written to takes it. -/
  sink : w.sinkFailure = none
  /-- Nothing that was recorded is missing. -/
  encodes : codec.Encodes w.encoder (es.flatMap Entry.line) w.written

theorem open_new (codec : Codec E) (session : Bytes) : Open codec (new codec session) [] :=
  ⟨rfl, rfl, rfl, .fresh⟩

/-- Where nothing fails, what an encoder gives out is written. -/
theorem deliver_eq {w : Writer E} (h : w.sinkFailure = none) (encoder : E) (out : Bytes) :
    w.deliver encoder out = ({ w with encoder, written := w.written ++ out }, none) := by
  cases out <;> simp [deliver, h]

theorem Open.record {w : Writer E} (h : w.Open codec es) (time : Time.Stamp) (dir : Direction)
    (seq : Nat) (text : Bytes) : (w.record codec time dir seq text).Open codec
      (es ++ [{ time, session := w.session, seq, dir := dir.name, text }]) := by
  simp only [Writer.record, h.refusal, deliver_eq h.sink]
  refine ⟨h.closed, rfl, h.sink, ?_⟩
  rw [List.flatMap_append, List.flatMap_singleton]
  exact h.encodes.write _

/-- Flushing only makes the encoder give out what it holds back. -/
theorem Open.flush {w : Writer E} (h : w.Open codec es) : (w.flush codec).1.Open codec es := by
  simp only [Writer.flush, h.refusal, deliver_eq h.sink]
  exact ⟨h.closed, rfl, h.sink, h.encodes.flush⟩

/-- **Closing succeeds.** -/
theorem Open.close {w : Writer E} (h : w.Open codec es) : w.close codec =
    ({ w with
      written := w.written ++ codec.close w.encoder, closed := true, refusal := some .closed },
      none) := by
  simp [Writer.close, h.closed, h.refusal, deliver_eq h.sink]

/-- **What was written holds what was recorded.** -/
theorem Open.read_close {w : Writer E} (hlossless : codec.Lossless) (h : w.Open codec es)
    (hfits : ∀ e ∈ es, e.Fits) : read codec (w.close codec).1.written = (es, none) := by
  rw [h.close]
  exact read_of_decode (hlossless h.encodes) hfits

/-! ### After the end -/

/-- A writer that was closed. -/
structure Shut (w : Writer E) : Prop where
  closed : w.closed = true
  /-- It refuses everything. -/
  refusal : w.refusal.isSome = true

theorem Open.shut_close {w : Writer E} (h : w.Open codec es) : (w.close codec).1.Shut := by
  rw [h.close]
  exact ⟨rfl, rfl⟩

theorem Shut.close {w : Writer E} (h : w.Shut) : w.close codec = (w, none) := by
  simp [Writer.close, h.closed]

/-- **After the end nothing changes.** -/
theorem Shut.perform {w : Writer E} (h : w.Shut) (op : Operation) : (w.perform codec op).1 = w := by
  cases op with
  | record time dir seq text => simp [Writer.perform, Writer.record, h.refusal]
  | flush =>
      obtain ⟨refusal, hrefusal⟩ := Option.isSome_iff_exists.1 h.refusal
      simp [Writer.perform, Writer.flush, hrefusal]
  | close => simp [Writer.perform, h.close]

theorem Shut.performAll {w : Writer E} (h : w.Shut) (ops : List Operation) :
    w.performAll codec ops = w := by
  induction ops with
  | nil => rfl
  | cons op ops ih => rw [Writer.performAll, h.perform, ih]

/-! ### One operation after another -/

theorem performAll_append (codec : Codec E) (w : Writer E) (before after : List Operation) :
    w.performAll codec (before ++ after) = (w.performAll codec before).performAll codec after := by
  induction before generalizing w with
  | nil => rfl
  | cons op before ih => exact ih (w.perform codec op).1

theorem session_perform {w : Writer E} (h : w.Open codec es) {op : Operation} (hop : op ≠ .close) :
    (w.perform codec op).1.session = w.session := by
  cases op with
  | close => exact absurd rfl hop
  | record time dir seq text => simp [Writer.perform, Writer.record, h.refusal, deliver_eq h.sink]
  | flush => simp [Writer.perform, Writer.flush, h.refusal, deliver_eq h.sink]

/-- **A writer stays open until it is closed**, and has all that was recorded. -/
theorem Open.performAll {w : Writer E} (h : w.Open codec es) {ops : List Operation}
    (hops : .close ∉ ops) : (w.performAll codec ops).Open codec (es ++ recorded w.session ops) := by
  induction ops generalizing w es with
  | nil => simpa [recorded, Writer.performAll] using h
  | cons op ops ih =>
      rw [List.mem_cons, not_or] at hops
      have hsession := session_perform h (Ne.symm hops.1)
      cases op with
      | close => exact absurd rfl hops.1
      | record time dir seq text =>
          have hrest := ih (h.record time dir seq text) hops.2
          rw [show (w.record codec time dir seq text).session = w.session from hsession,
            List.append_assoc] at hrest
          exact hrest
      | flush =>
          have hrest := ih h.flush hops.2
          rw [show (w.flush codec).1.session = w.session from hsession] at hrest
          exact hrest

end Writer

theorem recorded_append_close (session : Bytes) (before after : List Operation) :
    recorded session (before ++ .close :: after) = recorded session before := by
  induction before with
  | nil => rfl
  | cons op before ih =>
      cases op with
      | record time dir seq text => simp [recorded, ih]
      | flush => simpa [recorded] using ih
      | close => rfl

/-- After any operations a writer is open or was closed. -/
theorem open_or_shut (codec : Codec E) (session : Bytes) (ops : List Operation) :
    ((Writer.new codec session).performAll codec ops).Open codec (recorded session ops) ∨
      ((Writer.new codec session).performAll codec ops).Shut := by
  by_cases hclose : .close ∈ ops
  · obtain ⟨before, after, rfl, hfirst⟩ := List.eq_append_cons_of_mem hclose
    -- The first close shuts the writer, and the rest leaves it alone.
    have hshut := ((Writer.open_new codec session).performAll hfirst).shut_close
    have hafter := @Writer.Shut.performAll E codec _ hshut after
    rw [Writer.performAll_append]
    exact .inr (hafter ▸ hshut)
  · exact .inl ((Writer.open_new codec session).performAll hclose)

theorem performAll_close (codec : Codec E) (session : Bytes) (before after : List Operation) :
    (Writer.new codec session).performAll codec (before ++ .close :: after) =
      (((Writer.new codec session).performAll codec before).close codec).1 := by
  rw [Writer.performAll_append]
  refine Writer.Shut.performAll ?_ after
  rcases open_or_shut codec session before with hopen | hshut
  · exact hopen.shut_close
  · show (Writer.close codec _).1.Shut
    rw [hshut.close]
    exact hshut

end Writing

/-- **The round trip.**  Let decoding undo encoding.  Whatever is done with a transcript that is
closed at some time: what was written reads back as the entries that were recorded before that, all
of them, in order and unchanged; closing succeeds every time, and what is done after it changes
nothing. -/
theorem read_of_written {E : Type} {codec : Codec E} (hlossless : codec.Lossless)
    (session : Bytes) (ops : List Operation) (hclose : .close ∈ ops)
    (hfits : ∀ e ∈ recorded session ops, e.Fits) :
    read codec ((Writer.new codec session).performAll codec ops).written =
        (recorded session ops, none) ∧
      ∀ before after, ops = before ++ .close :: after →
        (((Writer.new codec session).performAll codec before).close codec).2 = none ∧
          (Writer.new codec session).performAll codec ops =
            (((Writer.new codec session).performAll codec before).close codec).1 := by
  constructor
  · obtain ⟨before, after, rfl, hfirst⟩ := List.eq_append_cons_of_mem hclose
    have hopen := (Writer.open_new codec session).performAll hfirst
    rw [recorded_append_close] at hfits ⊢
    rw [performAll_close]
    exact hopen.read_close hlossless hfits
  · rintro before after rfl
    refine ⟨?_, performAll_close codec session before after⟩
    rcases open_or_shut codec session before with hopen | hshut
    · rw [hopen.close]
    · rw [hshut.close]

/-- A command and a frame on both sides of a flush, and a frame that comes too late. -/
def lateRecord : List Operation :=
  [.record {} .command 18446744073709551615 (utf8 "(a \"<&>\")\r\n"), .flush,
    .record {} .frame 0 (utf8 "\u2028\n\n"), .close, .record {} .frame 1 [], .close]

/-- Line ends, markup and the largest number are carried through, and what comes too late is not. -/
theorem read_of_written_late_record :
    (∀ e ∈ recorded (utf8 "é") lateRecord, e.Fits) ∧
      read stored ((Writer.new stored (utf8 "é")).performAll stored lateRecord).written =
        ([⟨{}, utf8 "é", 18446744073709551615, utf8 "in", utf8 "(a \"<&>\")\r\n"⟩,
          ⟨{}, utf8 "é", 0, utf8 "out", utf8 "\u2028\n\n"⟩], none) := by
  have hfits : ∀ e ∈ recorded (utf8 "é") lateRecord, e.Fits := by decide +kernel
  exact ⟨hfits, (read_of_written lossless_stored (utf8 "é") lateRecord (by decide) hfits).1⟩

end ReplBridge.Transcript
