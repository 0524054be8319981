import ReplBridge.Document.Path
import ReplBridge.Proofs.Text.Join

/-!
**Clean paths that start at the root.**

Cleaning takes a path apart at its slashes, drops and resolves segments, and joins what is left.  No
segment that is left is empty, and none has a slash in it, so in a clean path no slash follows
another.  This is all that the addresses of documents need to know about paths: a path with `://` in
it could be taken for an address, and a clean path has none.

Main definitions:

* `Path.Proper` — paths that start at the root, are clean, and do not look like one with a drive
  letter.

Main results:

* `Path.push_names` — what one more segment does to those so far;
* `Path.clean_of_rooted` — a clean path is a slash and names with slashes between them;
* `Path.Proper.no_double_slash` — **no slash follows another in a clean path**.
-/

set_option autoImplicit false

namespace ReplBridge.Path

theorem exists_cons_of_rooted {path : Bytes} (h : isRooted path = true) :
    ∃ rest, path = slash :: rest := by
  unfold isRooted at h
  split at h
  · exact ⟨_, rfl⟩
  · cases h

/-- A segment that names something: it is not empty, and holds no slash. -/
def IsName (segment : Bytes) : Prop := segment ≠ [] ∧ slash ∉ segment

/-- **What one more segment does to those so far**: they stay names. -/
theorem push_names {rooted : Bool} {done : List Bytes} {segment : Bytes}
    (hdone : ∀ name ∈ done, IsName name) (hsegment : slash ∉ segment) :
    ∀ name ∈ push rooted done segment, IsName name := by
  unfold push
  split
  · exact hdone
  rename_i hplain
  simp only [Bool.or_eq_true, List.isEmpty_iff, not_or] at hplain
  have hmore : ∀ name ∈ segment :: done, IsName name :=
    List.forall_mem_cons.2 ⟨⟨hplain.1, hsegment⟩, hdone⟩
  split
  · -- The segment leads up, and takes the last one away if there is one to take.
    split
    · split
      · exact nofun
      · exact hmore
    · split
      · exact hmore
      · exact fun name hname => hdone name (List.mem_cons_of_mem _ hname)
  · exact hmore

theorem foldl_push_names {rooted : Bool} {segments done : List Bytes}
    (hsegments : ∀ segment ∈ segments, slash ∉ segment) (hdone : ∀ name ∈ done, IsName name) :
    ∀ name ∈ segments.foldl (push rooted) done, IsName name := by
  induction segments generalizing done with
  | nil => exact hdone
  | cons segment segments ih =>
      obtain ⟨hsegment, hsegments⟩ := List.forall_mem_cons.1 hsegments
      exact ih hsegments (push_names hdone hsegment)

/-- A clean path that starts at the root is a slash, and names with slashes between them. -/
theorem clean_of_rooted {path : Bytes} (h : isRooted path = true) :
    ∃ names, clean path = slash :: Bytes.join [slash] names ∧ ∀ name ∈ names, IsName name := by
  refine ⟨((Bytes.split [slash] path).foldl (push true) []).reverse, ?_, ?_⟩
  · simp [clean, h]
  · intro name hname
    exact foldl_push_names (fun _ => Bytes.not_mem_of_mem_split) (by simp) name
      (List.mem_reverse.1 hname)

theorem no_double_slash_of_names {names : List Bytes} (h : ∀ name ∈ names, IsName name) :
    ¬ [slash, slash] <:+: slash :: Bytes.join [slash] names := by
  rintro ⟨before, after, heq⟩
  have heq : before ++ slash :: slash :: after = slash :: Bytes.join [slash] names := by
    simpa using heq
  cases names with
  | nil =>
      have hlen := congrArg List.length heq
      simp at hlen
      omega
  | cons name names =>
      -- Cut at its slashes, the text has an empty part between the two.
      have hnil : Bytes.split [slash] [] = [[]] := rfl
      have hleft : Bytes.split [slash] (before ++ slash :: slash :: after) =
          Bytes.split [slash] before ++ ([] :: Bytes.split [slash] after) := by
        have hgap := Bytes.split_append_cons slash [] after
        rw [List.nil_append, hnil] at hgap
        rw [Bytes.split_append_cons, hgap, List.singleton_append]
      have hright : Bytes.split [slash] (slash :: Bytes.join [slash] (name :: names)) =
          [] :: name :: names := by
        have hcut := Bytes.split_append_cons slash [] (Bytes.join [slash] (name :: names))
        rw [List.nil_append, hnil,
          Bytes.split_join_byte (by simp) fun part hp => (h part hp).2] at hcut
        exact hcut
      rw [heq, hright] at hleft
      have hbefore : Bytes.split [slash] before ≠ [] := Bytes.split_ne_nil (by simp) before
      obtain ⟨first, rest, hfirst⟩ := List.exists_cons_of_ne_nil hbefore
      rw [hfirst, List.cons_append] at hleft
      have hempty : [] ∈ name :: names := by
        rw [(List.cons.inj hleft).2]
        simp
      exact (h [] hempty).1 rfl

/-- Whether a letter and a colon follow the first slash of a path, and something follows them. -/
def looksDriven : Bytes → Bool
  | 0x2F :: letter :: 0x3A :: _ :: _ => isLatinLetter letter
  | _ => false

/-- **Paths that start at the root, are clean, and do not look like one with a drive letter.** -/
structure Proper (path : Bytes) : Prop where
  rooted : isRooted path = true
  clean : Path.clean path = path
  /-- No drive letter follows the first slash. -/
  driveless : looksDriven path = false

instance (path : Bytes) : Decidable (Proper path) :=
  decidable_of_iff (isRooted path = true ∧ Path.clean path = path ∧ looksDriven path = false)
    ⟨fun ⟨hrooted, hclean, hdriveless⟩ => ⟨hrooted, hclean, hdriveless⟩,
      fun h => ⟨h.rooted, h.clean, h.driveless⟩⟩

namespace Proper

variable {path : Bytes}

theorem exists_cons (h : Proper path) : ∃ rest, path = slash :: rest :=
  exists_cons_of_rooted h.rooted

/-- **No slash follows another in a clean path.** -/
theorem no_double_slash (h : Proper path) : ¬ [slash, slash] <:+: path := by
  obtain ⟨names, hclean, hnames⟩ := clean_of_rooted h.rooted
  rw [← h.clean, hclean]
  exact no_double_slash_of_names hnames

/-- A path that starts at the root does not begin with a drive letter. -/
theorem not_isDrive (h : Proper path) : isDrive path = false := by
  obtain ⟨rest, rfl⟩ := h.exists_cons
  unfold isDrive
  split
  · rename_i heq
    rw [← (List.cons.inj heq).1]
    rfl
  · rfl

end Proper

end ReplBridge.Path
