import FileRemoval.Proofs.Path.Climbing

/-! # Canonical paths resolve to themselves

A path made of names alone is its own canonical form, from wherever it is resolved. Without its
slash in front it leads to the same place from the top. No other path is its own canonical form,
and none comes out of a working directory without dots. -/

namespace FileRemoval.Path

variable {names : List Text}

theorem foldlM_follow_names (areNames : AreNames names) (stack : List Text) :
    names.foldlM follow stack = some (names.reverse ++ stack) := by
  induction names generalizing stack with
  | nil => rfl
  | cons first rest ih =>
    have isName := areNames first List.mem_cons_self
    rw [List.foldlM_cons, follow_name stack isName, Option.bind_eq_bind, Option.bind_some,
      ih (fun name member => areNames name (List.mem_cons_of_mem first member)),
      List.reverse_cons, List.append_assoc, List.singleton_append]

theorem canonicalize_ofNames (cwd : Text) (areNames : AreNames names) :
    canonicalize cwd (ofNames names) = some (ofNames names) := by
  rw [canonicalize]
  split
  · rename_i isTop
    rw [isTop]
  · rename_i notTop
    have nonempty : names ≠ [] := fun none => notTop (by rw [none, ofNames_nil])
    have starts : start cwd (ofNames names) = [] := rfl
    have follows : steps (ofNames names) = names := by
      rw [steps, dropWhile_ofNames areNames,
        pieces_joined areNames.slashless nonempty]
    rw [starts, follows, foldlM_follow_names areNames, List.append_nil, Option.map_some,
      List.reverse_reverse]

theorem canonicalize_joined (areNames : AreNames names) (nonempty : names ≠ []) :
    canonicalize top (joined names) = some (ofNames names) := by
  obtain ⟨c, tail, same, apart⟩ := exists_joined_eq_cons areNames nonempty
  have relative : isRelative (joined names) = true := by
    rw [same]
    simpa [isRelative, isAbsolute] using apart
  rw [canonicalize_of_isRelative top relative, start_top,
    pieces_joined areNames.slashless nonempty, foldlM_follow_names areNames, List.append_nil,
    Option.map_some, List.reverse_reverse]

theorem resolve_ofNames (cwd : Text) (areNames : AreNames names) (noNul : '\x00' ∉ ofNames names)
    (short : (ofNames names).byteLength ≤ maxLength) :
    resolve cwd (ofNames names) = .ok (ofNames names) :=
  resolve_eq_ok.mpr ⟨List.cons_ne_nil _ _, noNul, short, canonicalize_ofNames cwd areNames⟩

/-- A canonical path may be one byte over the limit and still be reached without its slash. -/
theorem resolve_joined (areNames : AreNames names) (nonempty : names ≠ [])
    (noNul : '\x00' ∉ ofNames names) (short : (ofNames names).byteLength ≤ maxLength + 1) :
    resolve top (joined names) = .ok (ofNames names) := by
  obtain ⟨c, tail, same, -⟩ := exists_joined_eq_cons areNames nonempty
  have slash : Char.utf8Size '/' = 1 := rfl
  refine resolve_eq_ok.mpr ⟨?_, fun nul => noNul (List.mem_cons_of_mem _ nul), ?_,
    canonicalize_joined areNames nonempty⟩
  · rw [same]
    exact List.cons_ne_nil c tail
  · rw [ofNames, Text.byteLength_cons, slash] at short
    omega

theorem nul_not_mem_ofNames (clean : ∀ name ∈ names, '\x00' ∉ name) : '\x00' ∉ ofNames names := by
  induction names with
  | nil => decide
  | cons first rest ih =>
    cases rest with
    | nil =>
      have noNul := clean first List.mem_cons_self
      simpa [ofNames, joined] using noNul
    | cons second others =>
      have noNul := clean first List.mem_cons_self
      have later := ih fun name member => clean name (List.mem_cons_of_mem first member)
      rw [ofNames, joined_cons first (List.cons_ne_nil second others)]
      simp only [ofNames, List.mem_cons, List.mem_append, not_or] at later ⊢
      exact ⟨by decide, noNul, later⟩

theorem ofNames_concat_of_ne_nil (name : Text) (nonempty : names ≠ []) :
    ofNames (names ++ [name]) = ofNames names ++ '/' :: name := by
  rw [ofNames, joined_concat name nonempty]
  rfl

theorem byteLength_ofNames_concat (names : List Text) {name : Text} (isName : IsName name) :
    (ofNames names).byteLength < (ofNames (names ++ [name])).byteLength := by
  have positive := Text.byteLength_pos isName.nonempty
  cases names with
  | nil =>
    have entry : ofNames ([] ++ [name]) = '/' :: name := by simp [ofNames, joined]
    have slash : Text.byteLength (ofNames []) = Char.utf8Size '/' := rfl
    rw [entry, slash, Text.byteLength_cons]
    omega
  | cons first rest =>
    rw [ofNames_concat_of_ne_nil name (List.cons_ne_nil first rest), Text.byteLength_append,
      Text.byteLength_cons]
    omega

/-- A directory comes before its entries. -/
theorem compare_ofNames_lt_concat (name : Text) (nonempty : names ≠ []) :
    compare (ofNames names) (ofNames (names ++ [name])) = .lt := by
  have longer := Text.compare_append (ofNames names) [] ('/' :: name)
  rw [List.append_nil] at longer
  rw [ofNames_concat_of_ne_nil name nonempty, longer]
  rfl

/-! ### Fixed points -/

/-- A text that is the top, or names with a slash in front of each. -/
def IsCanonical (path : Text) : Prop :=
  ∃ names, AreNames names ∧ path = ofNames names

/-- No piece reads `.` or `..`. -/
def Dotless (path : Text) : Prop :=
  here ∉ pieces path ∧ above ∉ pieces path

instance (path : Text) : Decidable (Dotless path) :=
  inferInstanceAs (Decidable (here ∉ pieces path ∧ above ∉ pieces path))

section

variable {cwd path key : Text}

theorem isAbsolute_of_canonicalize (h : canonicalize cwd path = some key) :
    isAbsolute key = true := by
  unfold canonicalize at h
  split at h
  · cases h
    rfl
  · obtain ⟨stack, -, rfl⟩ := Option.map_eq_some_iff.mp h
    rfl

theorem start_of_isAbsolute (cwd : Text) (absolute : isAbsolute path = true) :
    start cwd path = [] := by
  rw [start, if_pos absolute]

theorem areNames_start (path : Text) (dotless : Dotless cwd) : AreNames (start cwd path) := by
  intro name member
  obtain ⟨inside, nonempty, slashless⟩ := mem_start member
  exact ⟨nonempty, slashless, fun same => dotless.1 (same ▸ inside),
    fun same => dotless.2 (same ▸ inside)⟩

theorem areNames_of_follow {stack : List Text} (begun : AreNames (start cwd path))
    (h : (steps path).foldlM follow (start cwd path) = some stack) : AreNames stack := by
  intro name member
  rcases mem_of_follow h name member with early | ⟨inside, nonempty, notHere, notAbove⟩
  · exact begun name early
  · exact ⟨nonempty, slash_not_mem_piece _ name inside, notHere, notAbove⟩

theorem isCanonical_of_canonicalize (begun : AreNames (start cwd path))
    (h : canonicalize cwd path = some key) : IsCanonical key := by
  unfold canonicalize at h
  split at h
  · cases h
    exact ⟨[], areNames_nil, rfl⟩
  · obtain ⟨stack, followed, rfl⟩ := Option.map_eq_some_iff.mp h
    have areNames := areNames_of_follow begun followed
    exact ⟨stack.reverse, fun name member => areNames name (List.mem_reverse.mp member), rfl⟩

theorem IsCanonical.canonicalize (canonical : IsCanonical key) (cwd : Text) :
    canonicalize cwd key = some key := by
  obtain ⟨names, areNames, rfl⟩ := canonical
  exact canonicalize_ofNames cwd areNames

end

/-- The canonical texts are the fixed points, whatever the working directory, and they are all that
comes out of one without dots. So a canonical form has itself for canonical form, from anywhere.
Canonical texts with the same names are the same. -/
theorem canonical_forms (cwd key : Text) :
    (canonicalize cwd key = some key ↔ IsCanonical key) ∧
    (Dotless cwd →
      ((∃ path, canonicalize cwd path = some key) ↔ IsCanonical key) ∧
      ∀ path other, canonicalize cwd path = some key → canonicalize other key = some key) ∧
    ∀ other, IsCanonical key → IsCanonical other → (key = other ↔ namesOf key = namesOf other) := by
  refine ⟨⟨fun fixed => ?_, fun canonical => canonical.canonicalize cwd⟩,
    fun dotless => ⟨⟨?_, fun canonical => ⟨key, canonical.canonicalize cwd⟩⟩, ?_⟩, ?_⟩
  · -- a fixed point is absolute, so the working directory had no part in it
    have begun := start_of_isAbsolute cwd (isAbsolute_of_canonicalize fixed)
    exact isCanonical_of_canonicalize (begun ▸ areNames_nil) fixed
  · rintro ⟨path, reached⟩
    exact isCanonical_of_canonicalize (areNames_start path dotless) reached
  · intro path other reached
    exact (isCanonical_of_canonicalize (areNames_start path dotless) reached).canonicalize other
  · rintro other ⟨names, areNames, rfl⟩ ⟨others, otherNames, rfl⟩
    rw [namesOf_ofNames areNames, namesOf_ofNames otherNames, ofNames_inj areNames otherNames]

/-- From a working directory with dots comes a path that has no canonical form itself. -/
example :
    canonicalize "/..".toList "a".toList = some "/../a".toList ∧
      canonicalize "/..".toList "/../a".toList = none := by
  decide

/-- Names that start with dots or are three of them are names like others. -/
theorem canonical_forms_of_dotted_names :
    let text (s : String) : Text := s.toList
    Dotless (text "/.w//...") ∧
    canonicalize (text "/.w//...") (text "./../.a/x/..") = some (text "/.w/.a") ∧
    IsCanonical (text "/.w/.a") ∧
    canonicalize (text "/..") (text "/.w/.a") = some (text "/.w/.a") ∧
    IsCanonical (text "/...") ∧
    (text "/.w/.a" = text "/..." ↔ namesOf (text "/.w/.a") = namesOf (text "/...")) := by
  intro text
  have dotless : Dotless (text "/.w//...") := by decide
  have reached : canonicalize (text "/.w//...") (text "./../.a/x/..") = some (text "/.w/.a") := by
    decide
  have canonicalOther : IsCanonical (text "/...") := ⟨[text "..."], by decide, by decide⟩
  obtain ⟨-, results, names⟩ := canonical_forms (text "/.w//...") (text "/.w/.a")
  obtain ⟨image, again⟩ := results dotless
  have canonical := image.mp ⟨_, reached⟩
  exact ⟨dotless, reached, canonical, again _ (text "/..") reached, canonicalOther,
    names _ canonical canonicalOther⟩

end FileRemoval.Path
