import Mathlib.Data.List.Basic
import Mathlib.Data.List.Induction
import FileRemoval.Proofs.Path.Canonical
import FileRemoval.Proofs.Path.Joining

/-! # Directories and entries

Taking a canonical path apart into its directory and its name, and looking a name up in a directory,
undo each other. So a path has one directory and one name there, and from directory to directory it
is as many steps to the top as the path has names. -/

namespace FileRemoval.Path

variable {names : List Text} {path directory name : Text}

/-! ### One piece -/

theorem isRelative_of_slashless (slashless : '/' ∉ name) : isRelative name = true := by
  cases name with
  | nil => rfl
  | cons c rest =>
    have apart : c ≠ '/' := fun same => slashless (same ▸ List.mem_cons_self)
    simpa [isRelative, isAbsolute] using apart

theorem pieces_of_slashless (slashless : '/' ∉ name) : pieces name = [name] := by
  have single : ∀ piece ∈ [name], '/' ∉ piece := by simpa using slashless
  have split := pieces_joined single (List.cons_ne_nil name [])
  rwa [joined, List.intercalate_singleton] at split

/-- A path of one piece makes one move from where it starts. -/
theorem canonicalize_piece (areNames : AreNames names) {piece : Text} (slashless : '/' ∉ piece) :
    canonicalize (ofNames names) piece =
      (follow names.reverse piece).map fun stack => ofNames stack.reverse := by
  have relative := isRelative_of_slashless slashless
  have plain : ∀ name ∈ names.reverse, name ≠ [] ∧ '/' ∉ name := fun name member =>
    have isName := areNames name (List.mem_reverse.mp member)
    ⟨isName.nonempty, isName.slashless⟩
  have starts := start_ofNames plain relative
  rw [List.reverse_reverse] at starts
  rw [canonicalize_of_isRelative _ relative, pieces_of_slashless slashless, starts,
    List.foldlM_cons]
  simp only [List.foldlM_nil, bind_pure]

theorem canonicalize_name (areNames : AreNames names) (isName : IsName name) :
    canonicalize (ofNames names) name = some (ofNames (names ++ [name])) := by
  rw [canonicalize_piece areNames isName.slashless, follow_name _ isName, Option.map_some,
    List.reverse_cons, List.reverse_reverse]

theorem canonicalize_above (areNames : AreNames (names ++ [name])) :
    canonicalize (ofNames (names ++ [name])) above = some (ofNames names) := by
  have step : follow (names ++ [name]).reverse above = some names.reverse := by
    rw [List.reverse_append]
    rfl
  rw [canonicalize_piece areNames (by decide), step, Option.map_some, List.reverse_reverse]

/-! ### Entries -/

/-- The path is that of the entry `name` of `directory`. It is found by the name from the directory,
taken apart into the two, and leads up to the directory, which is shorter. -/
structure IsEntry (path directory name : Text) : Prop where
  canonical : IsCanonical path
  inDirectory : IsCanonical directory
  isName : IsName name
  down : canonicalize directory name = some path
  apart : parentFile path = some (directory, name)
  last : fileName path = some name
  up : canonicalize path above = some directory
  shorter : directory.byteLength < path.byteLength

theorem isEntry_ofNames (areNames : AreNames (names ++ [name])) :
    IsEntry (ofNames (names ++ [name])) (ofNames names) name := by
  obtain ⟨above, isName⟩ := areNames_concat.mp areNames
  have split := parentFile_ofNames areNames
  exact {
    canonical := ⟨_, areNames, rfl⟩
    inDirectory := ⟨_, above, rfl⟩
    isName := isName
    down := canonicalize_name above isName
    apart := split
    last := by rw [fileName, split, Option.map_some]
    up := canonicalize_above areNames
    shorter := byteLength_ofNames_concat names isName }

theorem IsCanonical.exists_isEntry (canonical : IsCanonical path) (notTop : path ≠ top) :
    ∃ directory name, IsEntry path directory name := by
  obtain ⟨names, areNames, rfl⟩ := canonical
  rcases List.eq_nil_or_concat' names with rfl | ⟨front, last, rfl⟩
  · exact absurd ofNames_nil notTop
  · exact ⟨_, _, isEntry_ofNames areNames⟩

theorem IsCanonical.exists_entry (canonical : IsCanonical directory) (isName : IsName name) :
    ∃ path, IsEntry path directory name := by
  obtain ⟨names, areNames, rfl⟩ := canonical
  exact ⟨_, isEntry_ofNames (areNames_concat.mpr ⟨areNames, isName⟩)⟩

/-! ### Steps to the top -/

/-- Where a number of steps from directory to directory lead. None leads beyond the top. -/
def ancestor : Nat → Text → Option Text
  | 0, path => some path
  | steps + 1, path => (parentFile path).bind fun parts => ancestor steps parts.1

theorem ancestor_eq_top (areNames : AreNames names) (steps : Nat) :
    ancestor steps (ofNames names) = some top ↔ steps = names.length := by
  induction names using List.reverseRecOn generalizing steps with
  | nil =>
    cases steps with
    | zero => exact ⟨fun _ => rfl, fun _ => rfl⟩
    | succ steps => simp [ancestor]
  | append_singleton front last ih =>
    cases steps with
    | zero => simp [ancestor, ofNames_concat_ne_top areNames]
    | succ steps =>
      rw [ancestor, parentFile_ofNames areNames, Option.bind_some,
        ih (areNames_concat.mp areNames).1, List.length_append, List.length_singleton,
        Nat.add_right_cancel_iff]

/-- Canonical paths other than the top are the entries of canonical directories under names, each of
one directory under one name. The top is reached from directory to directory after as many steps as
there are names, and not before. -/
theorem canonical_paths_are_entries (path directory name : Text) :
    (IsCanonical path → path ≠ top → ∃ directory name, IsEntry path directory name) ∧
    (IsCanonical directory → IsName name →
      ∃ path, IsEntry path directory name ∧ ∀ other last, IsCanonical other → IsName last →
        canonicalize other last = some path → other = directory ∧ last = name) ∧
    (IsCanonical path → ∀ steps, ancestor steps path = some top ↔
      steps = (namesOf path).length) := by
  refine ⟨fun canonical => canonical.exists_isEntry, fun canonical isName => ?_, ?_⟩
  · obtain ⟨path, entry⟩ := canonical.exists_entry isName
    refine ⟨path, entry, fun other last otherCanonical isLast same => ?_⟩
    obtain ⟨otherPath, otherEntry⟩ := otherCanonical.exists_entry isLast
    cases otherEntry.down.symm.trans same
    cases otherEntry.apart.symm.trans entry.apart
    exact ⟨rfl, rfl⟩
  · rintro ⟨names, areNames, rfl⟩ steps
    rw [ancestor_eq_top areNames, namesOf_ofNames areNames]

/-- A name of three dots directly below the top, and one below that. -/
theorem canonical_paths_are_entries_of_dots :
    let text (s : String) : Text := s.toList
    IsCanonical (text "/.../é") ∧ text "/.../é" ≠ top ∧ IsCanonical top ∧ IsName (text "...") ∧
    (∃ directory name, IsEntry (text "/.../é") directory name) ∧
    (∃ path, IsEntry path top (text "...")) ∧ ancestor 2 (text "/.../é") = some top := by
  intro text
  have canonical : IsCanonical (text "/.../é") :=
    ⟨[text "...", text "é"], by decide, by decide⟩
  have notTop : text "/.../é" ≠ top := by decide
  have isTop : IsCanonical top := ⟨[], by decide, rfl⟩
  have isName : IsName (text "...") := by decide
  obtain ⟨entries, below, steps⟩ := canonical_paths_are_entries (text "/.../é") top (text "...")
  obtain ⟨path, entry, -⟩ := below isTop isName
  exact ⟨canonical, notTop, isTop, isName, entries canonical notTop, ⟨path, entry⟩,
    (steps canonical 2).mpr (by decide)⟩

end FileRemoval.Path
