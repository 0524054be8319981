import ReplBridge.Config.Profile

/-!
**The names of profiles: what is listed and what can be asked for.**

The list of names holds the names that are known without a configuration and all keys of the
configuration, each once and in the order of their bytes.  What a name stands for is looked up by
another rule: white space around a name that is asked for does not count, while a key keeps its own;
an empty name means the current profile; and a key without a profile stands for none, unless the
name is known anyway.  So a name that is found is always listed, but the list also holds keys that no
question reaches.  `Config.Selectable` says which names are reached by asking for them as they are
written.

Main definitions:

* `Config.keys`, `Config.current` — the keys of a configuration, and the name it makes current;
* `Config.Selectable` — **a name that stands for a profile and can be asked for as it is**.

Main results:

* `Bytes.pairwise_sort` — texts of which no two are equal increase strictly when sorted;
* `Config.resolve_eq_ok_iff`, `Config.resolve_self_iff` — when a name is found, and when as itself;
* `Config.names_and_resolve` — **the list of names against the names that are found**.
-/

set_option autoImplicit false

namespace ReplBridge

variable {config : Option Config} {name : Bytes}

/-! ### The order of the list -/

namespace Bytes

theorem le_iff {a b : Bytes} : le a b = true ↔ a ≤ b := by
  simp [le]

theorem mem_sort {a : Bytes} {parts : List Bytes} : a ∈ sort parts ↔ a ∈ parts := List.mem_mergeSort

/-- Texts of which no two are equal increase strictly when they are sorted. -/
theorem pairwise_sort {parts : List Bytes} (h : parts.Nodup) : (sort parts).Pairwise (· < ·) := by
  have hle : (sort parts).Pairwise fun a b => le a b = true := by
    refine List.pairwise_mergeSort ?_ ?_ parts
    · intro a b c hab hbc
      exact le_iff.2 (List.le_trans (le_iff.1 hab) (le_iff.1 hbc))
    · intro a b
      simpa only [Bool.or_eq_true, le_iff] using List.le_total a b
  have hne : (sort parts).Nodup := (List.mergeSort_perm parts le).nodup_iff.2 h
  refine (hle.and hne).imp ?_
  rintro a b ⟨hab, hdistinct⟩
  refine Decidable.byContradiction fun hlt => hdistinct ?_
  exact List.le_antisymm (le_iff.1 hab) hlt

end Bytes

namespace Config

/-! ### What is listed -/

def keys (config : Option Config) : List Bytes := ((config.map profiles).getD []).map Prod.fst

theorem mem_distinct {a : Bytes} {texts : List Bytes} : a ∈ distinct texts ↔ a ∈ texts := by
  induction texts with
  | nil => rfl
  | cons first rest ih =>
      by_cases h : a = first
      · simp [distinct, h]
      · simp [distinct, h, ih]

theorem nodup_distinct (texts : List Bytes) : (distinct texts).Nodup := by
  induction texts with
  | nil => exact List.nodup_nil
  | cons first rest ih =>
      refine List.nodup_cons.2 ⟨?_, List.Pairwise.filter _ ih⟩
      simp

theorem mem_names :
    name ∈ names config ↔ name ∈ Profile.builtin.map Prod.fst ∨ name ∈ keys config := by
  rw [names, Bytes.mem_sort, mem_distinct, List.mem_append]
  rfl

/-! ### What is found -/

theorem resolve_eq_ok_iff {given name : Bytes} {p : Profile} :
    resolve config given = (name, .ok p) ↔
      profileName config given = name ∧ find? config name = some p := by
  cases hfind : find? config (profileName config given) with
  | none =>
      simp only [resolve, hfind]
      constructor
      · intro h
        cases h
      · rintro ⟨rfl, hp⟩
        rw [hfind] at hp
        cases hp
  | some q =>
      simp only [resolve, hfind]
      constructor
      · intro h
        cases h
        exact ⟨rfl, hfind⟩
      · rintro ⟨rfl, hp⟩
        cases hfind.symm.trans hp
        rfl

/-- A name that a table has something for is one of its keys. -/
theorem mem_of_lookup {α : Type} {table : List (Bytes × α)} (h : (table.lookup name).isSome = true)
    : name ∈ table.map Prod.fst := by
  obtain ⟨entry, hentry, heq⟩ := List.lookup_isSome_iff.1 h
  rw [eq_of_beq heq]
  exact List.mem_map_of_mem hentry

theorem find?_isSome_iff :
    (find? config name).isSome = true ↔
      (profile? config name).isSome = true ∨ name ∈ Profile.builtin.map Prod.fst := by
  rw [find?, Option.isSome_or, Bool.or_eq_true]
  refine or_congr_right ⟨mem_of_lookup, fun h => ?_⟩
  obtain ⟨entry, hentry, rfl⟩ := List.mem_map.1 h
  exact List.lookup_isSome_iff.2 ⟨entry, hentry, BEq.rfl⟩

theorem mem_keys_of_profile? (h : (profile? config name).isSome = true) : name ∈ keys config := by
  refine mem_of_lookup ?_
  rw [profile?] at h
  cases hlookup : ((config.map profiles).getD []).lookup name with
  | none => simp [hlookup] at h
  | some _ => rfl

/-! ### What can be asked for -/

/-- The name that a configuration makes current. -/
def current (config : Option Config) : Bytes := (config.map currentProfile).getD []

/-- **A name that stands for a profile and can be asked for as it is**: there is something to it, no
white space is around it unless it is the current one and nothing else, and it has a profile in the
configuration or is known without one. -/
structure Selectable (config : Option Config) (name : Bytes) : Prop where
  nonempty : name ≠ []
  /-- Asking for it is not asking for another one. -/
  meant : Blank.trim name = name ∨ Blank.trim name = [] ∧ current config = name
  stands : (profile? config name).isSome = true ∨ name ∈ Profile.builtin.map Prod.fst

theorem profileName_of_blank (h : Blank.trim name = []) :
    profileName config name =
      if current config = [] then Profile.defaultName else current config := by
  by_cases hcurrent : current config = []
  · simp_all [profileName, current]
  · simp_all [profileName, current]

theorem profileName_of_trim_ne (h : Blank.trim name ≠ []) :
    profileName config name = Blank.trim name := by
  simp [profileName, h]

theorem profileName_eq_self_iff :
    profileName config name = name ↔
      name ≠ [] ∧ (Blank.trim name = name ∨ Blank.trim name = [] ∧ current config = name) := by
  by_cases htrim : Blank.trim name = []
  · -- A blank name means the current one; the default is not blank.
    have hself (hne : name ≠ []) : Blank.trim name ≠ name := fun h => hne (h.symm.trans htrim)
    rw [profileName_of_blank htrim]
    by_cases hcurrent : current config = []
    · rw [if_pos hcurrent]
      constructor
      · rintro rfl
        exact absurd htrim (by decide)
      · rintro ⟨hne, h | ⟨-, h⟩⟩
        · exact absurd h (hself hne)
        · exact absurd (h.symm.trans hcurrent) hne
    · rw [if_neg hcurrent]
      constructor
      · rintro rfl
        exact ⟨hcurrent, .inr ⟨htrim, rfl⟩⟩
      · rintro ⟨hne, h | ⟨-, h⟩⟩
        · exact absurd h (hself hne)
        · exact h
  · rw [profileName_of_trim_ne htrim]
    constructor
    · intro h
      exact ⟨fun hname => htrim (h.trans hname), .inl h⟩
    · rintro ⟨-, h | ⟨hblank, -⟩⟩
      · exact h
      · exact absurd hblank htrim

/-- **Which names are found as themselves.** -/
theorem resolve_self_iff : (∃ p, resolve config name = (name, .ok p)) ↔ Selectable config name := by
  simp only [resolve_eq_ok_iff, exists_and_left, profileName_eq_self_iff]
  rw [← Option.isSome_iff_exists, find?_isSome_iff]
  constructor
  · rintro ⟨⟨hne, hmeant⟩, hstands⟩
    exact ⟨hne, hmeant, hstands⟩
  · rintro ⟨hne, hmeant, hstands⟩
    exact ⟨⟨hne, hmeant⟩, hstands⟩

/-- **The list of names against the names that are found**, with or without a configuration.  The
list holds the names that are known anyway and all keys, and it increases strictly.  A name that is
found, whatever was asked for, is listed.  A name of the list is found as itself if and only if it is
not empty, has no white space around it (or is blank and the current one), and has a profile in the
configuration or is known anyway: the other names of the list cannot be selected. -/
theorem names_and_resolve (config : Option Config) :
    (names config).Pairwise (· < ·) ∧
    (∀ name, name ∈ names config ↔
      name ∈ Profile.builtin.map Prod.fst ∨ name ∈ keys config) ∧
    (∀ given name p, resolve config given = (name, .ok p) → name ∈ names config) ∧
    ∀ name ∈ names config, (∃ p, resolve config name = (name, .ok p)) ↔ Selectable config name := by
  refine ⟨Bytes.pairwise_sort (nodup_distinct _), fun name => mem_names, ?_, ?_⟩
  · intro given name p h
    have hfound : (find? config name).isSome = true :=
      Option.isSome_iff_exists.2 ⟨p, (resolve_eq_ok_iff.1 h).2⟩
    rcases find?_isSome_iff.1 hfound with hown | hknown
    · exact mem_names.2 (.inr (mem_keys_of_profile? hown))
    · exact mem_names.2 (.inl hknown)
  · exact fun name _ => resolve_self_iff

/-- A configuration with a name that can be selected, one with white space before it, and two without
a profile, of which one is known anyway. -/
def mixed : Option Config :=
  some { profiles := [(utf8 "work", some {}), (utf8 " x", some {}), (utf8 "ghost", none),
    (utf8 "dev", none)] }

/-- The names that can be selected are found as themselves. -/
theorem names_and_resolve_mixed :
    (∃ p, resolve mixed (utf8 "work") = (utf8 "work", .ok p)) ∧
    (∃ p, resolve mixed (utf8 "dev") = (utf8 "dev", .ok p)) := by
  have hself := (names_and_resolve mixed).2.2.2
  have hlisted := (names_and_resolve mixed).2.1
  refine ⟨(hself _ ((hlisted _).2 ?_)).2 ⟨?_, ?_, ?_⟩, (hself _ ((hlisted _).2 ?_)).2 ⟨?_, ?_, ?_⟩⟩
  all_goals decide

/-- The others are listed as well, and asking for them finds nothing. -/
theorem listed_not_found :
    (utf8 "ghost" ∈ names mixed ∧
      resolve mixed (utf8 "ghost") = (utf8 "ghost", .error (.profileNotFound (utf8 "ghost")))) ∧
    (utf8 " x" ∈ names mixed ∧
      resolve mixed (utf8 " x") = (utf8 "x", .error (.profileNotFound (utf8 "x")))) := by
  exact ⟨⟨mem_names.2 (.inr (by decide)), rfl⟩, mem_names.2 (.inr (by decide)), rfl⟩

end Config

end ReplBridge
