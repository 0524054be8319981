import ReplBridge.Document.Uri
import ReplBridge.Proofs.Document.Path
import ReplBridge.Proofs.Text.Utf8

/-!
**Addresses spell paths.**

A path has many spellings: any byte may be written as a percent sign and two digits, which may be
small or capital, and any byte but the percent sign may stand for itself.  Reading an address
accepts them all.  Writing an address uses one of them, which escapes exactly the bytes that need
it, in capitals.  So what is written reads back, whatever bytes a path consists of, and nothing in
the rest of an address gets in the way: what is written has no control byte, which would make the
whole address unreadable, and no question mark, which would end it.

Main definitions:

* `Uri.Spells` — the spellings of a path;
* `Uri.isWellSpelled` — the spellings in which every escape is needed, and in capitals;
* `Uri.Locates` — what makes an address that of a file: a spelling of its path, and neither host,
  query nor fragment.

Main results:

* `Uri.unescape?_eq_some_iff` — **resolving escapes reads exactly the spellings**;
* `Uri.spells_escape`, `Uri.eq_escape_iff` — a path is spelled well, and there is only one good
  spelling;
* `Uri.toPath_of_locates` — **every address of a file is read as its path**;
* `Uri.normalize_eq_iff` — a path and an address of it name one document exactly if the address is
  spelled well;
* `Uri.path_round_trip` — **paths come back from their addresses**, so no two share one.
-/

set_option autoImplicit false

namespace ReplBridge.Uri

variable {path s : Bytes} {b : UInt8}

/-! ### Spellings -/

/-- **The spellings of a path.** -/
inductive Spells : Bytes → Bytes → Prop where
  | nil : Spells [] []
  | bare {b : UInt8} {path s : Bytes} (hb : b ≠ 0x25) (h : Spells path s) :
      Spells (b :: path) (b :: s)
  | escaped {x y : UInt8} {high low : Nat} {path s : Bytes} (hx : Bytes.hexValue? x = some high)
      (hy : Bytes.hexValue? y = some low) (h : Spells path s) :
      Spells (UInt8.ofNat (16 * high + low) :: path) (0x25 :: x :: y :: s)

@[simp] theorem spells_nil_iff : Spells path [] ↔ path = [] := by
  constructor
  · rintro ⟨⟩
    rfl
  · rintro rfl
    exact .nil

theorem spells_bare_iff (hb : b ≠ 0x25) :
    Spells path (b :: s) ↔ ∃ rest, path = b :: rest ∧ Spells rest s := by
  constructor
  · intro h
    cases h with
    | bare _ h => exact ⟨_, rfl, h⟩
    | escaped => exact absurd rfl hb
  · rintro ⟨rest, rfl, h⟩
    exact .bare hb h

theorem spells_escaped_iff {x y : UInt8} :
    Spells path (0x25 :: x :: y :: s) ↔ ∃ high low rest, Bytes.hexValue? x = some high ∧
      Bytes.hexValue? y = some low ∧ path = UInt8.ofNat (16 * high + low) :: rest ∧
      Spells rest s := by
  constructor
  · intro h
    cases h with
    | bare hb => exact absurd rfl hb
    | escaped hx hy h => exact ⟨_, _, _, hx, hy, rfl, h⟩
  · rintro ⟨high, low, rest, hx, hy, rfl, h⟩
    exact .escaped hx hy h

/-- An escape needs two digits. -/
theorem not_spells_short (h : s.length < 2) : ¬ Spells path (0x25 :: s) := by
  intro hspells
  cases hspells with
  | bare hb => exact hb rfl
  | escaped => exact absurd h (by simp)

theorem exists_read_iff {acc path s : Bytes} :
    (∃ rest, path = (b :: acc).reverse ++ rest ∧ Spells rest s) ↔
      ∃ rest, path = acc.reverse ++ rest ∧ ∃ later, rest = b :: later ∧ Spells later s := by
  constructor
  · rintro ⟨later, rfl, h⟩
    exact ⟨b :: later, by simp, later, rfl, h⟩
  · rintro ⟨-, rfl, later, rfl, h⟩
    exact ⟨later, by simp, h⟩

theorem unescape?_go_iff (acc s path : Bytes) :
    unescapeWith?.go (fun _ => true) (fun _ => true) acc s = some path ↔
      ∃ rest, path = acc.reverse ++ rest ∧ Spells rest s := by
  fun_induction unescapeWith?.go (fun _ => true) (fun _ => true) acc s with
  | case1 acc => simp [eq_comm]
  | case2 acc b hb | case4 acc b c hb =>
      obtain rfl : b = 0x25 := by simpa using hb
      simp [not_spells_short]
  | case3 acc b hb =>
      have hb : b ≠ 0x25 := by simpa using hb
      simp only [spells_bare_iff hb, spells_nil_iff, Option.some_inj]
      constructor
      · rintro rfl
        exact ⟨[b], by simp, [], rfl, rfl⟩
      · rintro ⟨-, rfl, -, rfl, rfl⟩
        simp
  | case5 acc b c hb ih =>
      have hb : b ≠ 0x25 := by simpa using hb
      rw [ih, exists_read_iff]
      simp only [spells_bare_iff hb]
  | case6 acc b x y rest hb high low hy hx v _ ih =>
      obtain rfl : b = 0x25 := by simpa using hb
      rw [ih, exists_read_iff]
      simp [spells_escaped_iff, hx, hy, v]
  | case7 acc b x y rest hb high low hy hx v hallowed => exact absurd rfl hallowed
  | case8 acc b x y rest hb hdigits =>
      obtain rfl : b = 0x25 := by simpa using hb
      simp only [reduceCtorEq, spells_escaped_iff, false_iff]
      rintro ⟨-, -, high, low, -, hx, hy, -⟩
      exact hdigits high low hx hy
  | case9 acc b x y rest hb _ ih =>
      have hb : b ≠ 0x25 := by simpa using hb
      rw [ih, exists_read_iff]
      simp only [spells_bare_iff hb]
  | case10 acc b x y rest hb hbare => exact absurd rfl hbare

/-- **Resolving escapes reads exactly the spellings.** -/
theorem unescape?_eq_some_iff : unescape? s = some path ↔ Spells path s := by
  rw [unescape?, unescapeWith?, unescape?_go_iff]
  simp

instance (path s : Bytes) : Decidable (Spells path s) := decidable_of_iff _ unescape?_eq_some_iff

/-! ### The good spelling -/

/-- A byte that stands for itself in the address of a file. -/
def isBare (b : UInt8) : Bool := isUnreserved b || isPathMark b

/-- A hexadecimal digit that is not a small letter. -/
def isCapitalDigit (b : UInt8) : Bool := Bytes.isDigit b || Bytes.within 0x41 0x46 b

/-- The byte that two digits stand for has to be escaped. -/
def needsEscape (x y : UInt8) : Bool :=
  match Bytes.hexValue? x, Bytes.hexValue? y with
  | some high, some low => !isBare (UInt8.ofNat (16 * high + low))
  | _, _ => false

/-- **Whether every escape is needed, and in capitals**, and nothing that needs one is without. -/
def isWellSpelled : Bytes → Bool
  | [] => true
  | 0x25 :: x :: y :: s =>
    isCapitalDigit x && isCapitalDigit y && needsEscape x y && isWellSpelled s
  | b :: s => isBare b && isWellSpelled s

theorem isBare_percent : isBare 0x25 = false := by decide

theorem ne_percent_of_isBare (h : isBare b = true) : b ≠ 0x25 := by
  rintro rfl
  rw [isBare_percent] at h
  cases h

theorem isWellSpelled_cons (hb : b ≠ 0x25) (s : Bytes) :
    isWellSpelled (b :: s) = (isBare b && isWellSpelled s) := by
  rw [isWellSpelled]
  rintro x y s rfl
  exact absurd rfl hb

theorem hexValue?_lt {x : UInt8} {n : Nat} (h : Bytes.hexValue? x = some n) : n < 16 := by
  have hall : ∀ x : UInt8, ∀ n ∈ Bytes.hexValue? x, n < 16 := Bytes.forall_byte (by decide +kernel)
  exact hall x n h

theorem eq_hexDigit_iff {x : UInt8} {n : Nat} (h : Bytes.hexValue? x = some n) :
    x = hexDigit n ↔ isCapitalDigit x = true := by
  have hall : ∀ x : UInt8, ∀ n ∈ Bytes.hexValue? x, x = hexDigit n ↔ isCapitalDigit x = true :=
    Bytes.forall_byte (by decide +kernel)
  exact hall x n h

theorem hexValue?_hexDigit {n : Nat} (h : n < 16) : Bytes.hexValue? (hexDigit n) = some n := by
  revert n
  decide

theorem isBare_hexDigit {n : Nat} (h : n < 16) : isBare (hexDigit n) = true := by
  revert n
  decide

theorem escapeByte_of_isBare (h : isBare b = true) : escapeByte b = [b] := if_pos h

theorem escapeByte_of_not_isBare (h : isBare b = false) :
    escapeByte b = [0x25, hexDigit (b.toNat / 16), hexDigit (b.toNat % 16)] :=
  if_neg (by simpa [isBare] using h)

theorem escape_cons (b : UInt8) (path : Bytes) : escape (b :: path) = escapeByte b ++ escape path :=
  List.flatMap_cons

/-- **What is written for a path spells it.** -/
theorem spells_escape (path : Bytes) : Spells path (escape path) := by
  induction path with
  | nil => exact .nil
  | cons b path ih =>
      rw [escape_cons]
      cases hb : isBare b with
      | true =>
          rw [escapeByte_of_isBare hb]
          exact .bare (ne_percent_of_isBare hb) ih
      | false =>
          have hlt := b.toNat_lt
          have hvalue : UInt8.ofNat (16 * (b.toNat / 16) + b.toNat % 16) = b := by
            rw [Nat.div_add_mod, UInt8.ofNat_toNat]
          rw [escapeByte_of_not_isBare hb]
          have h := Spells.escaped (hexValue?_hexDigit (n := b.toNat / 16) (by omega))
            (hexValue?_hexDigit (n := b.toNat % 16) (by omega)) ih
          rwa [hvalue] at h

/-- **There is only one good spelling of a path**, which is the one that is written. -/
theorem eq_escape_iff (h : Spells path s) : s = escape path ↔ isWellSpelled s = true := by
  induction h with
  | nil => simp [escape, isWellSpelled]
  | @bare b path s hb h ih =>
      rw [escape_cons, isWellSpelled_cons hb]
      cases hbare : isBare b with
      | true => simp [escapeByte_of_isBare hbare, ih]
      | false => simp [escapeByte_of_not_isBare hbare, hb]
  | @escaped x y high low path s hx hy h ih =>
      have hhigh := hexValue?_lt hx
      have hlow := hexValue?_lt hy
      have hneeds : needsEscape x y = !isBare (UInt8.ofNat (16 * high + low)) := by
        simp [needsEscape, hx, hy]
      rw [escape_cons, isWellSpelled, hneeds]
      cases hbare : isBare (UInt8.ofNat (16 * high + low)) with
      | true =>
          rw [escapeByte_of_isBare hbare]
          constructor
          · intro heq
            exact absurd (List.cons.inj heq).1.symm (ne_percent_of_isBare hbare)
          · simp
      | false =>
          have hvalue : (UInt8.ofNat (16 * high + low)).toNat = 16 * high + low :=
            Utf8.toNat_ofNat (by omega)
          have hdiv : (16 * high + low) / 16 = high := by omega
          have hmod : (16 * high + low) % 16 = low := by omega
          rw [escapeByte_of_not_isBare hbare, hvalue, hdiv, hmod]
          simp [ih, ← eq_hexDigit_iff hx, ← eq_hexDigit_iff hy, and_assoc]

/-! ### Addresses -/

/-- A byte that does not end the path in an address: no control byte, question mark or hash. -/
def isPlain (b : UInt8) : Bool := !isControl b && b != 0x3F && b != 0x23

/-- **What makes an address that of a file**: behind the scheme there is no host, but a spelling of
the path of the file, without a query or a fragment. -/
structure Locates (path spelling : Bytes) : Prop where
  /-- There is no host. -/
  rooted : Path.isRooted spelling = true
  /-- There is neither a query nor a fragment. -/
  plain : spelling.all isPlain = true
  spells : Spells path spelling

instance (path spelling : Bytes) : Decidable (Locates path spelling) :=
  decidable_of_iff
    (Path.isRooted spelling = true ∧ spelling.all isPlain = true ∧ Spells path spelling)
    ⟨fun ⟨hrooted, hplain, hspells⟩ => ⟨hrooted, hplain, hspells⟩,
      fun h => ⟨h.rooted, h.plain, h.spells⟩⟩

theorem isPlain_of_isBare : ∀ b, isBare b = true → isPlain b = true :=
  Bytes.forall_byte (by decide +kernel)

theorem all_isPlain_escape (path : Bytes) : (escape path).all isPlain = true := by
  induction path with
  | nil => rfl
  | cons b path ih =>
      rw [escape_cons, List.all_append, ih, Bool.and_true]
      cases hb : isBare b with
      | true => simp [escapeByte_of_isBare hb, isPlain_of_isBare b hb]
      | false =>
          have hlt := b.toNat_lt
          have hpercent : isPlain 0x25 = true := by decide
          have hhigh := isPlain_of_isBare _ (isBare_hexDigit (n := b.toNat / 16) (by omega))
          have hlow := isPlain_of_isBare _ (isBare_hexDigit (n := b.toNat % 16) (by omega))
          simp [escapeByte_of_not_isBare hb, hpercent, hhigh, hlow]

/-- The address that is written for a path is an address of it. -/
theorem locates_escape (h : Path.Proper path) : Locates path (escape path) := by
  refine ⟨?_, all_isPlain_escape path, spells_escape path⟩
  obtain ⟨rest, rfl⟩ := h.exists_cons
  rw [escape_cons, escapeByte_of_isBare (by decide)]
  rfl

/-- With neither a host nor a query, all of an address behind its scheme is a path. -/
theorem filePath?_of_plain (hrooted : Path.isRooted s = true) (hplain : s.all isPlain = true) :
    filePath? s = unescape? s := by
  have hall : ∀ b ∈ s, isControl b = false ∧ b ≠ 0x3F := by
    intro b hb
    have h := List.all_eq_true.1 hplain b hb
    simp only [isPlain, Bool.and_eq_true, Bool.not_eq_true', bne_iff_ne] at h
    exact h.1
  have hcontrol : s.any isControl = false := List.any_eq_false.2 fun b hb => by simp [(hall b hb).1]
  have hquery : beforeQuery s = s :=
    List.takeWhile_eq_self_iff.2 fun b hb => by simpa using (hall b hb).2
  have hhost : s.span (· != Path.slash) = ([], s) := by
    obtain ⟨rest, rfl⟩ := Path.exists_cons_of_rooted hrooted
    simp [List.span_eq_takeWhile_dropWhile]
  unfold filePath?
  rw [hcontrol, hquery, hhost]
  rfl

theorem dropDriveSlash_of_proper (h : Path.Proper path) : dropDriveSlash path = path := by
  unfold dropDriveSlash
  split
  · split
    · rename_i letter _ _
      have hletter : Path.isLatinLetter letter = false := h.driveless
      simp [hletter]
    · rfl
  · rfl

/-- **Every address of a file is read as its path.** -/
theorem toPath_of_locates {path spelling : Bytes} (h : Locates path spelling)
    (hpath : Path.Proper path) : toPath (fileScheme ++ spelling) = path := by
  unfold toPath
  rw [Bytes.after?_eq_some_iff.2 rfl]
  dsimp only
  rw [filePath?_of_plain h.rooted h.plain, unescape?_eq_some_iff.2 h.spells]
  exact dropDriveSlash_of_proper hpath

/-! ### Names of documents -/

theorem normalize_fileScheme (cwd spelling : Bytes) :
    normalize cwd (fileScheme ++ spelling) = fileScheme ++ spelling := by
  have hoccurs : Bytes.occurs (utf8 "://") (fileScheme ++ spelling) = true :=
    (Bytes.occurs_iff (by decide)).2 ⟨utf8 "file", spelling, rfl⟩
  simp [normalize, hoccurs]

/-- A path is given the address that is written for it. -/
theorem normalize_of_proper (h : Path.Proper path) (cwd : Bytes) :
    normalize cwd path = fileScheme ++ escape path := by
  obtain ⟨rest, hrest⟩ := h.exists_cons
  have hoccurs : Bytes.occurs (utf8 "://") path = false := by
    rw [Bool.eq_false_iff, ne_eq, Bytes.occurs_iff (by decide)]
    intro hin
    exact h.no_double_slash (.trans ⟨[0x3A], [], rfl⟩ hin)
  have hnonempty : path.isEmpty = false := by simp [hrest]
  have habsolute : Path.absolute cwd path = path := by simp [Path.absolute, h.rooted, h.clean]
  simp [normalize, hnonempty, hoccurs, ofPath, h.not_isDrive, habsolute]

/-- **A path and an address of it name one document exactly if the address is spelled well.** -/
theorem normalize_eq_iff {path spelling : Bytes} (h : Locates path spelling)
    (hpath : Path.Proper path) (cwd : Bytes) :
    normalize cwd path = normalize cwd (fileScheme ++ spelling) ↔
      isWellSpelled spelling = true := by
  rw [normalize_of_proper hpath, normalize_fileScheme, List.append_cancel_left_eq, eq_comm,
    eq_escape_iff h.spells]

/-- The address that a document gets for its path is read as that path. -/
theorem toPath_normalize (h : Path.Proper path) (cwd : Bytes) :
    toPath (normalize cwd path) = path := by
  rw [normalize_of_proper h]
  exact toPath_of_locates (locates_escape h) h

/-- **Paths come back from their addresses.**  Take any paths that start at the root and are clean,
whatever bytes they consist of, and that do not look like one with a drive letter.  The address that
a document gets for its path is read as that path again; so different paths get different
addresses. -/
theorem path_round_trip (cwd : Bytes) {path other : Bytes} (hpath : Path.Proper path)
    (hother : Path.Proper other) :
    toPath (normalize cwd path) = path ∧
      (path ≠ other → normalize cwd path ≠ normalize cwd other) := by
  refine ⟨toPath_normalize hpath cwd, ?_⟩
  intro hne heq
  have hsame : toPath (normalize cwd path) = toPath (normalize cwd other) := congrArg toPath heq
  rw [toPath_normalize hpath, toPath_normalize hother] at hsame
  exact hne hsame

/-- It happens: a path of bytes that all need an escape, and one that nearly looks like a drive. -/
theorem path_round_trip_oddBytes :
    let path : Bytes := [0x2F, 0x20, 0x25, 0x3F, 0x23, 0x5B, 0x07, 0xFF]
    let other : Bytes := [0x2F, 0x43, 0x3A]
    Path.Proper path ∧ Path.Proper other ∧ toPath (normalize [0x2F] path) = path ∧
      normalize [0x2F] path ≠ normalize [0x2F] other := by
  intro path other
  have hpath : Path.Proper path := by decide
  have hother : Path.Proper other := by decide
  have h := path_round_trip [0x2F] hpath hother
  exact ⟨hpath, hother, h.1, h.2 (by decide)⟩

end ReplBridge.Uri
