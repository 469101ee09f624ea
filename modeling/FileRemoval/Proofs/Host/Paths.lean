import Mathlib.Data.List.Basic
import FileRemoval.Host.Path
import FileRemoval.Proofs.Path.Names
import FileRemoval.Proofs.Text.Ascii

/-! # Host paths of canonical names

What a path below a root is to the host: the names of the root and then the names of the path, with
no slash at the end, and as components those of the root and one for each name. -/

namespace FileRemoval.HostPath

open Path (AreNames IsName joined ofNames)

/-! ### Names and joins -/

@[simp] theorem names_nil : names [] = [] := rfl

theorem names_append_slash (a b : Bytes) : names (a ++ slash :: b) = names a ++ names b := by
  rw [names, List.splitOn_append_cons_self, List.filter_append, names, names]

theorem isAbsolute_append {root : Bytes} (h : root ≠ []) (rest : Bytes) :
    isAbsolute (root ++ rest) = isAbsolute root := by
  obtain ⟨first, more, rfl⟩ := List.exists_cons_of_ne_nil h
  rfl

theorem endsInSlash_iff {path : Bytes} :
    endsInSlash path = true ↔ ∃ lead, path = lead ++ [slash] := by
  rw [endsInSlash, decide_eq_true_eq, List.getLast?_eq_some_iff]

section

variable {root rest : Bytes}

theorem join_of_endsInSlash (relative : isAbsolute rest = false) (slashed : endsInSlash root = true) :
    join root rest = root ++ rest := by
  simp only [join, relative, slashed, Bool.false_eq_true, or_true, ↓reduceIte]

theorem join_of_not_endsInSlash (relative : isAbsolute rest = false) (h : root ≠ [])
    (unrooted : endsInSlash root = false) : join root rest = root ++ slash :: rest := by
  simp only [join, relative, h, unrooted, Bool.false_eq_true, or_self, ↓reduceIte]

/-- A join goes on from the root, with one slash more at the most. -/
theorem exists_join (relative : isAbsolute rest = false) (h : root ≠ []) :
    ∃ lead, join root rest = lead ++ slash :: rest ∧ names lead = names root := by
  cases slashed : endsInSlash root with
  | true =>
    obtain ⟨lead, rfl⟩ := endsInSlash_iff.mp slashed
    refine ⟨lead, ?_, ?_⟩
    · rw [join_of_endsInSlash relative slashed, List.append_assoc, List.singleton_append]
    · rw [names_append_slash, names_nil, List.append_nil]
  | false => exact ⟨root, join_of_not_endsInSlash relative h slashed, rfl⟩

theorem join_nil (relative : isAbsolute rest = false) : join [] rest = rest := by
  simp only [join, relative, Bool.false_eq_true, true_or, ↓reduceIte, List.nil_append]

theorem names_join (root : Bytes) (relative : isAbsolute rest = false) :
    names (join root rest) = names root ++ names rest := by
  by_cases empty : root = []
  · rw [empty, join_nil relative, names_nil, List.nil_append]
  · obtain ⟨lead, joined, same⟩ := exists_join relative empty
    rw [joined, names_append_slash, same]

theorem isAbsolute_join (root : Bytes) (relative : isAbsolute rest = false) :
    isAbsolute (join root rest) = isAbsolute root := by
  by_cases empty : root = []
  · rw [empty, join_nil relative, relative]
    rfl
  · cases slashed : endsInSlash root with
    | true => rw [join_of_endsInSlash relative slashed, isAbsolute_append empty]
    | false => rw [join_of_not_endsInSlash relative empty slashed, isAbsolute_append empty]

theorem exists_append_join (root : Bytes) (relative : isAbsolute rest = false) :
    ∃ lead, join root rest = lead ++ rest := by
  by_cases empty : root = []
  · exact ⟨[], by rw [empty, join_nil relative, List.nil_append]⟩
  · obtain ⟨lead, joined, -⟩ := exists_join relative empty
    exact ⟨lead ++ [slash], by rw [joined, List.append_assoc, List.singleton_append]⟩

theorem endsInSlash_join_nil (h : root ≠ []) : endsInSlash (join root []) = true := by
  have relative : isAbsolute [] = false := rfl
  obtain ⟨lead, joined, -⟩ := exists_join relative h
  exact endsInSlash_iff.mpr ⟨lead, joined⟩

end

/-! ### Canonical names -/

theorem slash_not_mem_utf8 {name : Text} (h : '/' ∉ name) : slash ∉ Text.utf8 name := by
  intro member
  have ascii : Char.toNat '/' < 128 := by decide
  exact h (Text.mem_of_mem_utf8 ascii member)

theorem zero_not_mem_utf8 {t : Text} (h : '\x00' ∉ t) : 0 ∉ Text.utf8 t := by
  intro member
  have ascii : Char.toNat '\x00' < 128 := by decide
  exact h (Text.mem_of_mem_utf8 ascii member)

theorem utf8_joined (names : List Text) :
    Text.utf8 (joined names) = [slash].intercalate (names.map Text.utf8) := by
  induction names with
  | nil => rfl
  | cons first rest ih =>
    cases rest with
    | nil => simp only [joined, List.intercalate_singleton, List.map_cons, List.map_nil]
    | cons second others =>
      have encoded : String.utf8EncodeChar '/' = [slash] := rfl
      rw [Path.joined_cons first (List.cons_ne_nil second others), Text.utf8_append, Text.utf8_cons,
        encoded, ih, List.map_cons (l := second :: others),
        List.intercalate_cons_of_ne_nil (by simp)]
      simp only [List.append_assoc]

section

variable {ns : List Text}

theorem utf8_ne_nil {name : Text} (isName : IsName name) : Text.utf8 name ≠ [] :=
  mt Text.utf8_eq_nil.mp isName.nonempty

theorem utf8_ne_here {name : Text} (isName : IsName name) : Text.utf8 name ≠ here := by
  intro same
  exact isName.not_here (Text.utf8_injective same)

theorem utf8_ne_above {name : Text} (isName : IsName name) : Text.utf8 name ≠ above := by
  intro same
  exact isName.not_above (Text.utf8_injective same)

theorem names_utf8_joined (areNames : AreNames ns) :
    names (Text.utf8 (joined ns)) = ns.map Text.utf8 := by
  cases ns with
  | nil => rfl
  | cons first rest =>
    have slashless : ∀ piece ∈ (first :: rest).map Text.utf8, slash ∉ piece := by
      intro piece member
      obtain ⟨name, inside, rfl⟩ := List.mem_map.mp member
      exact slash_not_mem_utf8 (areNames name inside).slashless
    rw [names, utf8_joined, List.splitOn_intercalate slash slashless (by simp)]
    refine List.filter_eq_self.mpr fun piece member => ?_
    obtain ⟨name, inside, rfl⟩ := List.mem_map.mp member
    simpa using utf8_ne_nil (areNames name inside)

theorem isAbsolute_utf8_joined (areNames : AreNames ns) :
    isAbsolute (Text.utf8 (joined ns)) = false := by
  cases ns with
  | nil => rfl
  | cons first rest =>
    have isName := areNames first List.mem_cons_self
    obtain ⟨byte, bytes, split⟩ := List.exists_cons_of_ne_nil (utf8_ne_nil isName)
    have apart : byte ≠ slash := by
      rintro rfl
      exact slash_not_mem_utf8 isName.slashless (split ▸ List.mem_cons_self)
    have start : (Text.utf8 (joined (first :: rest))).head? = some byte := by
      cases rest with
      | nil => simp [joined, split]
      | cons second others =>
        rw [Path.joined_cons first (List.cons_ne_nil second others), Text.utf8_append, split]
        rfl
    rw [isAbsolute, start]
    simpa using apart

theorem exists_utf8_joined_concat (above : List Text) (name : Text) :
    ∃ front, Text.utf8 (joined (above ++ [name])) = front ++ Text.utf8 name := by
  cases above with
  | nil => exact ⟨[], by simp [joined]⟩
  | cons first rest =>
    have encoded : String.utf8EncodeChar '/' = [slash] := rfl
    refine ⟨Text.utf8 (joined (first :: rest)) ++ [slash], ?_⟩
    rw [Path.joined_concat name (List.cons_ne_nil first rest), Text.utf8_append, Text.utf8_cons,
      encoded]
    simp only [List.append_assoc]

theorem endsInSlash_join_joined (root : Bytes) (areNames : AreNames ns) (nonempty : ns ≠ []) :
    endsInSlash (join root (Text.utf8 (joined ns))) = false := by
  obtain ⟨above, name, rfl⟩ := (List.eq_nil_or_concat' ns).resolve_left nonempty
  have isName := (Path.areNames_concat.mp areNames).2
  obtain ⟨lead, goesOn⟩ := exists_append_join root (isAbsolute_utf8_joined areNames)
  obtain ⟨front, ends⟩ := exists_utf8_joined_concat above name
  rw [Bool.eq_false_iff, goesOn, ends, ← List.append_assoc]
  intro slashed
  obtain ⟨cut, last⟩ := endsInSlash_iff.mp slashed
  have inside : slash ∈ Text.utf8 name := by
    have final : (lead ++ front ++ Text.utf8 name).getLast? = some slash := by
      rw [last]
      exact List.getLast?_concat
    rw [List.getLast?_append_of_ne_nil _ (utf8_ne_nil isName)] at final
    exact List.mem_of_getLast? final
  exact slash_not_mem_utf8 isName.slashless inside

/-- Nothing follows the last name of the path, and that is the name of an entry. -/
def EndsInName (path : Bytes) : Prop :=
  endsInSlash path = false ∧
    ∃ front name, names path = front ++ [name] ∧ name ≠ here ∧ name ≠ above

theorem endsInName_join_joined (root : Bytes) (areNames : AreNames ns) (nonempty : ns ≠ []) :
    EndsInName (join root (Text.utf8 (joined ns))) := by
  refine ⟨endsInSlash_join_joined root areNames nonempty, ?_⟩
  obtain ⟨above, name, rfl⟩ := (List.eq_nil_or_concat' ns).resolve_left nonempty
  have isName := (Path.areNames_concat.mp areNames).2
  refine ⟨names root ++ above.map Text.utf8, name.utf8, ?_, utf8_ne_here isName,
    utf8_ne_above isName⟩
  rw [names_join root (isAbsolute_utf8_joined areNames), names_utf8_joined areNames,
    List.map_append, List.map_singleton, List.append_assoc]

/-! ### Components -/

theorem filterMap_ofName? {names : List Bytes} (notAbove : above ∉ names) :
    names.filterMap Component.ofName? = (names.filter (· ≠ here)).map .name := by
  induction names with
  | nil => rfl
  | cons name rest ih =>
    rw [List.mem_cons, not_or] at notAbove
    by_cases isHere : name = here
    · rw [List.filterMap_cons_none (by rw [Component.ofName?, if_pos isHere]),
        List.filter_cons_of_neg (by simpa using isHere), ih notAbove.2]
    · rw [List.filterMap_cons_some (b := .name name)
          (by rw [Component.ofName?, if_neg isHere, if_neg (Ne.symm notAbove.1)]),
        List.filter_cons_of_pos (by simpa using isHere), ih notAbove.2, List.map_cons]

theorem ofName?_utf8 {name : Text} (isName : IsName name) :
    Component.ofName? (Text.utf8 name) = some (.name (Text.utf8 name)) := by
  rw [Component.ofName?, if_neg (utf8_ne_here isName), if_neg (utf8_ne_above isName)]

theorem filterMap_ofName?_utf8 (areNames : AreNames ns) :
    (ns.map Text.utf8).filterMap Component.ofName? = ns.map fun name => .name (Text.utf8 name) := by
  rw [List.filterMap_map, ← List.filterMap_eq_map]
  refine List.filterMap_congr fun name member => ?_
  exact ofName?_utf8 (areNames name member)

theorem names_ne_nil {path : Bytes} (h : path ≠ []) (relative : isAbsolute path = false) :
    names path ≠ [] := by
  obtain ⟨first, rest, rfl⟩ := List.exists_cons_of_ne_nil h
  have apart : (first == slash) = false := by
    simpa [isAbsolute] using relative
  obtain ⟨piece, more, split⟩ := List.exists_cons_of_ne_nil (List.splitOn_ne_nil slash rest)
  have kept : (first :: rest).splitOn slash = (first :: piece) :: more := by
    rw [List.splitOn_cons_eq_if_modifyHead, split, apart]
    rfl
  rw [names, kept, List.filter_cons_of_pos (by simp)]
  exact List.cons_ne_nil _ _

theorem components_of_relative {path : Bytes} (relative : isAbsolute path = false)
    (h : (names path).head? ≠ some here) :
    components path = (names path).filterMap Component.ofName? := by
  rw [components, relative, if_neg Bool.false_ne_true]
  split
  · rename_i empty
    rw [empty, List.filterMap_nil]
  · rename_i first rest split
    rw [split, List.head?_cons, Ne, Option.some.injEq] at h
    rw [if_neg h, split]

theorem components_utf8_joined (areNames : AreNames ns) :
    components (Text.utf8 (joined ns)) = ns.map fun name => .name (Text.utf8 name) := by
  have first : (names (Text.utf8 (joined ns))).head? ≠ some here := by
    rw [names_utf8_joined areNames, List.head?_map, Ne, Option.map_eq_some_iff]
    rintro ⟨name, isFirst, same⟩
    exact utf8_ne_here (areNames name (List.mem_of_head? isFirst)) same
  rw [components_of_relative (isAbsolute_utf8_joined areNames) first, names_utf8_joined areNames,
    filterMap_ofName?_utf8 areNames]

/-- To comparison a path below a root is the root and then one component for each name. -/
theorem components_join (root : Bytes) (areNames : AreNames ns) :
    components (join root (Text.utf8 (joined ns))) =
      components root ++ ns.map fun name => .name (Text.utf8 name) := by
  have relative := isAbsolute_utf8_joined areNames
  by_cases empty : root = []
  · rw [empty, join_nil relative, components_utf8_joined areNames]
    rfl
  have all := names_join root relative
  rw [names_utf8_joined areNames] at all
  cases isRooted : isAbsolute root with
  | true =>
    rw [components, if_pos ((isAbsolute_join root relative).trans isRooted), all, List.filterMap_append,
      filterMap_ofName?_utf8 areNames, components, if_pos isRooted, List.cons_append]
  | false =>
    have unrooted : ¬ isAbsolute root = true := by
      rw [isRooted]
      exact Bool.false_ne_true
    have unrooted' : ¬ isAbsolute (join root (Text.utf8 (joined ns))) = true := by
      rw [isAbsolute_join root relative]
      exact unrooted
    obtain ⟨first, rest, split⟩ := List.exists_cons_of_ne_nil (names_ne_nil empty isRooted)
    rw [components, if_neg unrooted', all, components, if_neg unrooted, split]
    simp only [List.cons_append]
    split
    · rw [List.filterMap_append, filterMap_ofName?_utf8 areNames, List.cons_append]
    · rw [← List.cons_append, List.filterMap_append, filterMap_ofName?_utf8 areNames]

end

end FileRemoval.HostPath
