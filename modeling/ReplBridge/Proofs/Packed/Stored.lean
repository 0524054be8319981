import ReplBridge.Packed.Frame

/-!
**Frames of stored blocks are read back.**

A frame is written bit by bit: its header, blocks for each portion of the content as the portions
come, and an empty block that is marked as the last.  No block holds more than the header allows, so
each is read back whole; a frame without a size and without a checksum has nothing else to fail at.
Where the cuts between the portions lay cannot be told from the content.

Main results:

* `Bytes.flatten_pieces`, `Bytes.length_le_of_mem_pieces` — pieces make up the text, and none is
  larger than asked for;
* `Packed.read_block` — **a block is read back**, in front of anything;
* `Packed.decode_portions` — **a frame is read back**, whatever the portions were.
-/

set_option autoImplicit false

namespace ReplBridge

/-! ### Pieces of bounded length -/

namespace Bytes

theorem flatten_pieces_go (size : Nat) (done : List Bytes) (part : Bytes) (n : Nat) (s : Bytes) :
    (pieces.go size done part n s).flatten = done.reverse.flatten ++ (part.reverse ++ s) := by
  induction s generalizing done part n with
  | nil =>
      unfold pieces.go
      split
      · rename_i hempty
        simp [List.isEmpty_iff.1 hempty]
      · simp
  | cons b rest ih =>
      unfold pieces.go
      split
      · rw [ih]
        simp
      · rw [ih]
        simp

/-- Pieces make up the text. -/
theorem flatten_pieces (size : Nat) (s : Bytes) : (pieces size s).flatten = s :=
  flatten_pieces_go size [] [] 0 s

theorem length_le_of_mem_pieces_go {size : Nat} {done : List Bytes} {part : Bytes} {s : Bytes}
    (hpart : part.length < size) (hdone : ∀ p ∈ done, p.length ≤ size) :
    ∀ p ∈ pieces.go size done part part.length s, p.length ≤ size := by
  induction s generalizing done part with
  | nil =>
      unfold pieces.go
      split
      · simpa using hdone
      · intro p hp
        rcases List.mem_cons.1 (List.mem_reverse.1 hp) with rfl | hp
        · rw [List.length_reverse]
          exact Nat.le_of_lt hpart
        · exact hdone p hp
  | cons b rest ih =>
      unfold pieces.go
      split
      · rename_i hmore
        exact ih hmore hdone
      · refine ih (Nat.zero_lt_of_lt hpart : ([] : Bytes).length < size) ?_
        intro p hp
        rcases List.mem_cons.1 hp with rfl | hp
        · simpa using Nat.succ_le_of_lt hpart
        · exact hdone p hp

theorem length_le_of_mem_pieces {size : Nat} (hsize : 0 < size) {s p : Bytes}
    (hp : p ∈ pieces size s) : p.length ≤ size :=
  length_le_of_mem_pieces_go (hsize : ([] : Bytes).length < size) (by simp) p hp

end Bytes

namespace Packed

/-! ### One block -/

theorem exactly_append {n : Nat} {s : Bytes} (h : s.length = n) (rest : Bytes) :
    exactly n (s ++ rest) = .ok (s, rest) := by
  simp [exactly, List.take_left' h, List.drop_left' h, h]

theorem number_littleEndian3 {n : Nat} (h : n < 16777216) : number (littleEndian3 n) = n := by
  simp only [littleEndian3, number, UInt8.toNat_ofNat']
  omega

/-- **A block is read back**, in front of anything. -/
theorem read_block {window : Nat} {content : Bytes} (hblock : content.length ≤ maxBlock)
    (hwindow : content.length ≤ window) (isLast : Bool) (rest : Bytes) :
    Block.read window (block isLast content ++ rest) = .ok (isLast, .raw content, rest) := by
  -- One number of three bytes says whether the block is the last, of what kind it is, and how long.
  have hbound : content.length ≤ 131072 := hblock
  have hhead : exactly 3 (block isLast content ++ rest) =
      .ok (littleEndian3 (8 * content.length + (if isLast then 1 else 0)), content ++ rest) := by
    rw [block, List.append_assoc]
    exact exactly_append (by simp [littleEndian3]) _
  have hnumber : number (littleEndian3 (8 * content.length + (if isLast then 1 else 0))) =
      8 * content.length + (if isLast then 1 else 0) :=
    number_littleEndian3 (by split <;> omega)
  have hlast : decide ((8 * content.length + (if isLast then 1 else 0)) % 2 = 1) = isLast := by
    cases isLast <;> simp <;> omega
  have hsize : (8 * content.length + (if isLast then 1 else 0)) / 8 = content.length := by
    split <;> omega
  have hkind : (8 * content.length + (if isLast then 1 else 0)) / 2 % 4 = 0 := by
    split <;> omega
  have hlarge : ¬ (maxBlock < content.length ∨ window < content.length) := by omega
  simp only [Block.read, hhead, bind, Except.bind, hnumber, hkind, hsize, hlast]
  simp [hlarge, exactly_append, pure, Except.pure]

/-! ### The blocks of a frame -/

/-- What the header of a stored frame says. -/
def storedHeader : Header :=
  { window := maxBlock, dictionary := 0, size := none, hasChecksum := false }

theorem read_header (rest : Bytes) :
    Header.read (0x00 :: 0x38 :: rest) = .ok (storedHeader, rest) := by
  have hdescriptor : exactly 1 (0x00 :: 0x38 :: rest) = .ok ([0x00], 0x38 :: rest) :=
    exactly_append (s := [0x00]) rfl _
  have hwindow : exactly 1 (0x38 :: rest) = .ok ([0x38], rest) :=
    exactly_append (s := [0x38]) rfl _
  have hnone : exactly 0 rest = .ok ([], rest) := exactly_append (s := []) rfl _
  have hcheck : Header.checkWindow (some (Header.windowOf 0x38)) none = .ok maxBlock := rfl
  have hlarge : ¬ Header.maxWindow < maxBlock := by decide
  simp [Header.read, hdescriptor, hwindow, hnone, number, Header.dictionaryWidth,
    Header.sizeWidth, Header.sizeOf, hcheck, hlarge, bind, Except.bind, pure, Except.pure]
  rfl

theorem readStart_header (rest : Bytes) :
    readStart (header ++ rest) = .ok (.frame storedHeader rest) := by
  have hmagic : exactly 4 (header ++ rest) = .ok (magic, 0x00 :: 0x38 :: rest) :=
    exactly_append (s := magic) rfl _
  have hskipped : isSkipped magic = false := by decide
  simp [readStart, hmagic, hskipped, read_header, bind, Except.bind, pure, Except.pure]

theorem readBlock_block {content : Bytes} (h : content.length ≤ maxBlock) (isLast : Bool)
    (c : Content) (rest : Bytes) :
    readBlock storedHeader c (block isLast content ++ rest) =
      .ok (isLast, none, c.add content, rest) := by
  simp [readBlock, read_block h (h : content.length ≤ storedHeader.window), readChecksum,
    storedHeader, Block.addTo, bind, Except.bind, pure, Except.pure]

theorem fault?_stored (isLast : Bool) (c : Content) : fault? storedHeader isLast none c = none := by
  simp [fault?, storedHeader]

theorem parts_add (part : Bytes) (c : Content) : (c.add part).parts = part :: c.parts := rfl

theorem readBlocks_flatMap {contents : List Bytes}
    (h : ∀ content ∈ contents, content.length ≤ maxBlock) {fuel : Nat}
    (hfuel : contents.length < fuel) (c : Content) (rest : Bytes) :
    readBlocks storedHeader fuel c (contents.flatMap (block false) ++ (finalBlock ++ rest)) =
      ([] :: contents.reverse ++ c.parts, .ok rest) := by
  induction contents generalizing fuel c with
  | nil =>
      obtain ⟨fuel, rfl⟩ := Nat.exists_eq_add_one_of_ne_zero (Nat.ne_zero_of_lt hfuel)
      have hempty : ([] : Bytes).length ≤ maxBlock := Nat.zero_le _
      have hread := readBlock_block hempty true c rest
      simp only [List.flatMap_nil, List.nil_append, finalBlock, readBlocks, hread, fault?_stored]
      rfl
  | cons content contents ih =>
      obtain ⟨fuel, rfl⟩ := Nat.exists_eq_add_one_of_ne_zero (Nat.ne_zero_of_lt hfuel)
      have hread := readBlock_block (h content (by simp)) false c
        (contents.flatMap (block false) ++ (finalBlock ++ rest))
      have hrest := ih (fun d hd => h d (by simp [hd])) (Nat.lt_of_succ_lt_succ hfuel)
        (c.add content)
      simp only [List.flatMap_cons, List.append_assoc, readBlocks, hread, fault?_stored]
      simp [hrest, parts_add]

/-! ### Frames -/

theorem length_le_flatMap_block (contents : List Bytes) :
    contents.length ≤ (contents.flatMap (block false)).length := by
  induction contents with
  | nil => exact Nat.le_refl _
  | cons content contents ih =>
      simp only [List.flatMap_cons, List.length_append, List.length_cons, block, littleEndian3]
      omega

theorem readFrames_nil (fuel : Nat) (r : Reading) : readFrames fuel r [] = r := by
  cases fuel <;> rfl

theorem decode_stored {contents : List Bytes}
    (h : ∀ content ∈ contents, content.length ≤ maxBlock) :
    decode (header ++ (contents.flatMap (block false) ++ finalBlock)) =
      { parts := [] :: contents.reverse } := by
  have hempty : (header ++ (contents.flatMap (block false) ++ finalBlock)).isEmpty = false := rfl
  have hfuel : contents.length < (contents.flatMap (block false) ++ finalBlock).length + 1 := by
    have := length_le_flatMap_block contents
    rw [List.length_append]
    omega
  have hblocks := readBlocks_flatMap h hfuel {} []
  rw [List.append_nil] at hblocks
  rw [decode, readFrames, hempty, if_neg Bool.false_ne_true, readStart_header]
  -- Nothing stands behind the last block, so no second frame is looked for.
  simp only [hblocks, readFrames_nil, List.append_nil]

/-- **A frame is read back**, whatever the portions were in which its content came. -/
theorem decode_portions (portions : List Bytes) :
    (decode (header ++ (portions.flatMap blocks ++ finalBlock))).content = portions.flatten ∧
      (decode (header ++ (portions.flatMap blocks ++ finalBlock))).fault = none := by
  have hblocks : portions.flatMap blocks =
      (portions.flatMap (Bytes.pieces maxBlock)).flatMap (block false) := by
    rw [List.flatMap_assoc]
    rfl
  have hbound : ∀ content ∈ portions.flatMap (Bytes.pieces maxBlock),
      content.length ≤ maxBlock := by
    intro content hcontent
    obtain ⟨portion, -, hpiece⟩ := List.mem_flatMap.1 hcontent
    exact Bytes.length_le_of_mem_pieces (by decide) hpiece
  have hflatten : (portions.flatMap (Bytes.pieces maxBlock)).flatten = portions.flatten := by
    clear hblocks hbound
    induction portions with
    | nil => rfl
    | cons portion portions ih => simp [Bytes.flatten_pieces, ih]
  rw [hblocks, decode_stored hbound]
  refine ⟨?_, rfl⟩
  simp [Reading.content, hflatten]

end Packed

end ReplBridge
