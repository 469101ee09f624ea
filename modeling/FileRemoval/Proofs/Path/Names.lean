import FileRemoval.Path.Resolve
import FileRemoval.Proofs.Text.Order

/-! # Names on canonical paths

A canonical path is a list of names and nothing else. This module ties the two: the names can be
read off the path, the directory of a path is the path of all names but the last, and what a path
resolves to from the top is made of names that stand in it, so it is free of NUL and at most one
byte longer. -/

namespace FileRemoval.Path

/-- A piece that leads to an entry of the directory it is looked up in. -/
structure IsName (piece : Text) : Prop where
  nonempty : piece ≠ []
  slashless : '/' ∉ piece
  not_here : piece ≠ here
  not_above : piece ≠ above

instance (piece : Text) : Decidable (IsName piece) :=
  decidable_of_iff (piece ≠ [] ∧ '/' ∉ piece ∧ piece ≠ here ∧ piece ≠ above)
    ⟨fun ⟨h₁, h₂, h₃, h₄⟩ => ⟨h₁, h₂, h₃, h₄⟩, fun ⟨h₁, h₂, h₃, h₄⟩ => ⟨h₁, h₂, h₃, h₄⟩⟩

def AreNames (names : List Text) : Prop :=
  ∀ name ∈ names, IsName name

instance (names : List Text) : Decidable (AreNames names) :=
  inferInstanceAs (Decidable (∀ name ∈ names, IsName name))

@[simp] theorem areNames_nil : AreNames [] := by
  intro name member
  cases member

theorem areNames_append {names more : List Text} :
    AreNames (names ++ more) ↔ AreNames names ∧ AreNames more := by
  simp only [AreNames, List.forall_mem_append]

theorem areNames_concat {names : List Text} {name : Text} :
    AreNames (names ++ [name]) ↔ AreNames names ∧ IsName name := by
  rw [areNames_append]
  simp only [AreNames, List.forall_mem_singleton]

theorem AreNames.slashless {names : List Text} (areNames : AreNames names) :
    ∀ name ∈ names, '/' ∉ name :=
  fun name member => (areNames name member).slashless

def namesOf (path : Text) : List Text :=
  (pieces path).filter (· ≠ [])

/-! ### Names and paths -/

theorem joined_cons {names : List Text} (name : Text) (h : names ≠ []) :
    joined (name :: names) = name ++ '/' :: joined names := by
  rw [joined, List.intercalate_cons_of_ne_nil h]
  simp only [joined, List.append_assoc, List.singleton_append]

theorem pieces_append_slash (path rest : Text) :
    pieces (path ++ '/' :: rest) = pieces path ++ pieces rest :=
  List.splitOn_append_cons_self path rest

theorem pieces_ofNames {names : List Text} (slashless : ∀ name ∈ names, '/' ∉ name)
    (h : names ≠ []) : pieces (ofNames names) = [] :: names := by
  have split := pieces_append_slash [] (joined names)
  rw [pieces_joined slashless h] at split
  exact split

@[simp] theorem ofNames_nil : ofNames [] = top := rfl

theorem exists_joined_eq_cons {names : List Text} (areNames : AreNames names) (h : names ≠ []) :
    ∃ c tail, joined names = c :: tail ∧ c ≠ '/' := by
  obtain ⟨first, rest, rfl⟩ := List.exists_cons_of_ne_nil h
  have isName := areNames first List.mem_cons_self
  obtain ⟨c, more, split⟩ := List.exists_cons_of_ne_nil isName.nonempty
  have apart : c ≠ '/' := by
    rintro rfl
    exact isName.slashless (split ▸ List.mem_cons_self)
  cases rest with
  | nil => exact ⟨c, more, by simp [joined, split], apart⟩
  | cons second others =>
    refine ⟨c, more ++ '/' :: joined (second :: others), ?_, apart⟩
    rw [joined_cons first (List.cons_ne_nil second others), split, List.cons_append]

theorem dropWhile_ofNames {names : List Text} (areNames : AreNames names) :
    (ofNames names).dropWhile (· = '/') = joined names := by
  rw [ofNames, List.dropWhile_cons_of_pos (by simp)]
  cases names with
  | nil => rfl
  | cons first rest =>
    obtain ⟨c, tail, same, apart⟩ := exists_joined_eq_cons areNames (List.cons_ne_nil first rest)
    rw [same, List.dropWhile_cons_of_neg (by simpa using apart)]

/-- Any pieces can be read off their path, whether or not they lead to an entry. -/
theorem namesOf_ofNames_of_slashless {names : List Text} (nonempty : ∀ name ∈ names, name ≠ [])
    (slashless : ∀ name ∈ names, '/' ∉ name) : namesOf (ofNames names) = names := by
  cases names with
  | nil => rfl
  | cons first rest =>
    rw [namesOf, pieces_ofNames slashless (List.cons_ne_nil first rest)]
    have kept : (first :: rest).filter (· ≠ []) = first :: rest :=
      List.filter_eq_self.mpr fun name member => by simpa using nonempty name member
    simpa using kept

theorem namesOf_ofNames {names : List Text} (areNames : AreNames names) :
    namesOf (ofNames names) = names :=
  namesOf_ofNames_of_slashless (fun name member => (areNames name member).nonempty)
    areNames.slashless

theorem ofNames_inj {names others : List Text} (h₁ : AreNames names) (h₂ : AreNames others) :
    ofNames names = ofNames others ↔ names = others := by
  constructor
  · intro same
    rw [← namesOf_ofNames h₁, same, namesOf_ofNames h₂]
  · intro same
    rw [same]

theorem ofNames_eq_top {names : List Text} (areNames : AreNames names) :
    ofNames names = top ↔ names = [] :=
  ofNames_inj areNames areNames_nil

theorem ofNames_concat_ne_top {names : List Text} {name : Text}
    (areNames : AreNames (names ++ [name])) : ofNames (names ++ [name]) ≠ top := by
  rw [Ne, ofNames_eq_top areNames]
  exact List.append_ne_nil_of_right_ne_nil names (List.cons_ne_nil name [])

theorem joined_concat {names : List Text} (name : Text) (h : names ≠ []) :
    joined (names ++ [name]) = joined names ++ '/' :: name := by
  induction names with
  | nil => exact absurd rfl h
  | cons first rest ih =>
    cases rest with
    | nil =>
      rw [List.singleton_append, joined_cons first (List.cons_ne_nil name [])]
      simp only [joined, List.intercalate_singleton]
    | cons second others =>
      have later := ih (List.cons_ne_nil second others)
      rw [List.cons_append] at later
      rw [List.cons_append, List.cons_append,
        joined_cons first (List.cons_ne_nil second (others ++ [name])), later,
        joined_cons first (List.cons_ne_nil second others), List.append_assoc, List.cons_append]

/-- The paths of a directory's entries go on from one and the same text. -/
theorem ofNames_concat (names : List Text) :
    ∃ lead, ∀ name, ofNames (names ++ [name]) = lead ++ name := by
  cases names with
  | nil => exact ⟨['/'], fun name => by simp [ofNames, joined]⟩
  | cons first rest =>
    refine ⟨ofNames (first :: rest) ++ ['/'], fun name => ?_⟩
    rw [ofNames, joined_concat name (List.cons_ne_nil first rest), ofNames]
    simp only [List.append_assoc, List.cons_append, List.nil_append]

/-- Entries of one directory stand in the order of their names. -/
theorem compare_ofNames_concat (names : List Text) (a b : Text) :
    compare (ofNames (names ++ [a])) (ofNames (names ++ [b])) = compare a b := by
  obtain ⟨lead, same⟩ := ofNames_concat names
  rw [same, same, Text.compare_append]

theorem parentFile_ofNames {names : List Text} {name : Text}
    (areNames : AreNames (names ++ [name])) :
    parentFile (ofNames (names ++ [name])) = some (ofNames names, name) := by
  have reversed : (pieces (ofNames (names ++ [name]))).reverse = name :: ([] :: names).reverse := by
    rw [pieces_ofNames areNames.slashless
      (List.append_ne_nil_of_right_ne_nil names (List.cons_ne_nil name []))]
    simp only [List.reverse_cons, List.reverse_append, List.reverse_nil, List.nil_append,
      List.cons_append]
  obtain ⟨piece, above, split⟩ := List.exists_cons_of_ne_nil
    (mt List.reverse_eq_nil_iff.mp (List.cons_ne_nil [] names))
  have back : (piece :: above).reverse = [] :: names := by
    rw [← split, List.reverse_reverse]
  rw [parentFile, if_neg (ofNames_concat_ne_top areNames), reversed, split]
  simp only [back]
  cases names with
  | nil => rfl
  | cons first rest =>
    rw [joined_cons [] (List.cons_ne_nil first rest)]
    simp only [List.nil_append, List.cons_ne_nil, ↓reduceIte, ofNames]

@[simp] theorem parentFile_top : parentFile top = none := rfl

/-! ### Pieces -/

theorem slash_not_mem_piece (path : Text) : ∀ piece ∈ pieces path, '/' ∉ piece := by
  induction path with
  | nil =>
    intro piece member
    rw [pieces, List.splitOn_nil, List.mem_singleton] at member
    rw [member]
    exact List.not_mem_nil
  | cons c rest ih =>
    intro piece member
    rw [pieces, List.splitOn_cons_eq_if_modifyHead] at member
    split at member
    · rcases List.mem_cons.mp member with rfl | later
      · exact List.not_mem_nil
      · exact ih piece later
    · rename_i other
      obtain ⟨first, more, split⟩ := List.exists_cons_of_ne_nil (List.splitOn_ne_nil '/' rest)
      rw [split, List.modifyHead_cons] at member
      have ih' : ∀ piece ∈ first :: more, '/' ∉ piece := split ▸ ih
      rcases List.mem_cons.mp member with rfl | later
      · intro slash
        rcases List.mem_cons.mp slash with same | slash
        · exact other (by rw [same]; exact beq_self_eq_true c)
        · exact ih' first List.mem_cons_self slash
      · exact ih' piece (List.mem_cons_of_mem first later)

theorem mem_joined {names : List Text} {name : Text} {c : Char} (member : name ∈ names)
    (inside : c ∈ name) : c ∈ joined names := by
  induction names with
  | nil => cases member
  | cons first rest ih =>
    cases rest with
    | nil =>
      rw [List.mem_singleton.mp member] at inside
      simpa [joined] using inside
    | cons second others =>
      rw [joined_cons first (List.cons_ne_nil second others)]
      rcases List.mem_cons.mp member with rfl | later
      · exact List.mem_append_left _ inside
      · exact List.mem_append_right _ (List.mem_cons_of_mem _ (ih later))

theorem mem_of_mem_piece {path piece : Text} {c : Char} (member : piece ∈ pieces path)
    (inside : c ∈ piece) : c ∈ path := by
  rw [← joined_pieces path]
  exact mem_joined member inside

/-- The bytes of some names, each with the slash in front of it. -/
def weight : List Text → Nat
  | [] => 0
  | name :: rest => name.byteLength + 1 + weight rest

@[simp] theorem weight_nil : weight [] = 0 := rfl

@[simp] theorem weight_cons (name : Text) (names : List Text) :
    weight (name :: names) = name.byteLength + 1 + weight names := rfl

theorem weight_append (names more : List Text) :
    weight (names ++ more) = weight names + weight more := by
  induction names with
  | nil => exact (Nat.zero_add (weight more)).symm
  | cons first rest ih =>
    rw [List.cons_append, weight_cons, weight_cons, ih]
    omega

theorem weight_reverse (names : List Text) : weight names.reverse = weight names := by
  induction names with
  | nil => rfl
  | cons first rest ih =>
    rw [List.reverse_cons, weight_append, ih, weight_cons, weight_cons, weight_nil]
    omega

theorem length_le_weight (names : List Text) : names.length ≤ weight names := by
  induction names with
  | nil => exact Nat.le_refl 0
  | cons first rest ih =>
    rw [List.length_cons, weight_cons]
    omega

theorem eq_nil_of_weight {names : List Text} (h : weight names = 0) : names = [] := by
  cases names with
  | nil => rfl
  | cons first rest =>
    rw [weight_cons] at h
    omega

theorem byteLength_ofNames {names : List Text} (h : names ≠ []) :
    (ofNames names).byteLength = weight names := by
  induction names with
  | nil => exact absurd rfl h
  | cons first rest ih =>
    cases rest with
    | nil =>
      have size : Char.utf8Size '/' = 1 := rfl
      simp only [ofNames, joined, List.intercalate_singleton, Text.byteLength_cons, weight_cons,
        weight_nil, size]
      omega
    | cons second others =>
      have size : Char.utf8Size '/' = 1 := rfl
      have rest := ih (List.cons_ne_nil second others)
      rw [ofNames, Text.byteLength_cons] at rest
      rw [ofNames, joined_cons first (List.cons_ne_nil second others), Text.byteLength_cons,
        Text.byteLength_append, Text.byteLength_cons, rest, weight_cons first, size]
      omega

/-- The top has a slash as well, with no name behind it. -/
theorem byteLength_ofNames_reverse (stack : List Text) :
    (ofNames stack.reverse).byteLength = max 1 (weight stack) := by
  cases stack with
  | nil => rfl
  | cons name rest =>
    rw [byteLength_ofNames (by simp), weight_reverse, weight_cons]
    omega

theorem weight_pieces (path : Text) : weight (pieces path) = path.byteLength + 1 := by
  have size : Char.utf8Size '/' = 1 := rfl
  have whole := byteLength_ofNames (List.splitOn_ne_nil '/' path)
  rw [← pieces, ofNames, joined_pieces, Text.byteLength_cons, size] at whole
  omega

theorem weight_le_of_mem {names : List Text} {name : Text} (member : name ∈ names) :
    name.byteLength + 1 ≤ weight names := by
  induction names with
  | nil => cases member
  | cons first rest ih =>
    rw [weight_cons]
    rcases List.mem_cons.mp member with rfl | later
    · omega
    · have := ih later
      omega

theorem byteLength_le_of_mem_pieces {path piece : Text} (member : piece ∈ pieces path) :
    piece.byteLength ≤ path.byteLength := by
  have part := weight_le_of_mem member
  rw [weight_pieces] at part
  omega

theorem eq_of_mem_pieces {path piece : Text} (member : piece ∈ pieces path)
    (long : path.byteLength ≤ piece.byteLength) : piece = path := by
  obtain ⟨before, after, split⟩ := List.append_of_mem member
  have whole := weight_pieces path
  rw [split, weight_append, weight_cons] at whole
  have noneBefore : before = [] := eq_nil_of_weight (by omega)
  have noneAfter : after = [] := eq_nil_of_weight (by omega)
  have same := joined_pieces path
  rw [split, noneBefore, noneAfter] at same
  simpa [joined] using same

/-! ### Following pieces -/

theorem follow_eq_some {names next : List Text} {piece : Text}
    (h : follow names piece = some next) :
    (piece = above ∧ ∃ name, names = name :: next) ∨ (piece = here ∧ next = names) ∨
      (piece ≠ [] ∧ piece ≠ here ∧ piece ≠ above ∧ next = piece :: names) := by
  unfold follow at h
  split at h
  · rename_i isAbove
    cases names with
    | nil => cases h
    | cons name rest =>
      cases h
      exact .inl ⟨isAbove, name, rfl⟩
  · rename_i notAbove
    split at h
    · rename_i isHere
      cases h
      exact .inr (.inl ⟨isHere, rfl⟩)
    · rename_i notHere
      split at h
      · cases h
      · rename_i nonempty
        cases h
        exact .inr (.inr ⟨nonempty, notHere, notAbove, rfl⟩)

theorem follow_of_ne (names : List Text) {piece : Text} (nonempty : piece ≠ [])
    (notHere : piece ≠ here) (notAbove : piece ≠ above) :
    follow names piece = some (piece :: names) := by
  unfold follow
  rw [if_neg notAbove, if_neg notHere, if_neg nonempty]

theorem mem_of_follow {steps names last : List Text} (h : steps.foldlM follow names = some last) :
    ∀ name ∈ last,
      name ∈ names ∨ (name ∈ steps ∧ name ≠ [] ∧ name ≠ here ∧ name ≠ above) := by
  induction steps generalizing names with
  | nil =>
    cases h
    exact fun name member => .inl member
  | cons piece rest ih =>
    rw [List.foldlM_cons] at h
    obtain ⟨next, first, later⟩ := Option.bind_eq_some_iff.mp h
    intro name member
    rcases ih later name member with early | ⟨inRest, isName⟩
    · rcases follow_eq_some first with ⟨-, top, rfl⟩ | ⟨-, rfl⟩ | ⟨h₁, h₂, h₃, rfl⟩
      · exact .inl (List.mem_cons_of_mem _ early)
      · exact .inl early
      · rcases List.mem_cons.mp early with rfl | early
        · exact .inr ⟨List.mem_cons_self, h₁, h₂, h₃⟩
        · exact .inl early
    · exact .inr ⟨List.mem_cons_of_mem _ inRest, isName⟩

/-- Only a name counts in full. -/
theorem weight_follow {names next : List Text} {piece : Text} (h : follow names piece = some next) :
    weight next ≤ weight names + (piece.byteLength + 1) ∧
      (weight next = weight names + (piece.byteLength + 1) ↔ piece ≠ here ∧ piece ≠ above) := by
  rcases follow_eq_some h with ⟨isAbove, top, rfl⟩ | ⟨isHere, rfl⟩ | ⟨-, notHere, notAbove, rfl⟩
  · rw [weight_cons]
    exact ⟨by omega, fun same => by omega, fun apart => absurd isAbove apart.2⟩
  · exact ⟨by omega, fun same => by omega, fun apart => absurd isHere apart.1⟩
  · rw [weight_cons]
    exact ⟨by omega, fun _ => ⟨notHere, notAbove⟩, fun _ => by omega⟩

theorem weight_of_follow {steps names last : List Text}
    (h : steps.foldlM follow names = some last) : weight last ≤ weight names + weight steps := by
  induction steps generalizing names with
  | nil =>
    cases h
    exact Nat.le_refl _
  | cons piece rest ih =>
    rw [List.foldlM_cons] at h
    obtain ⟨next, first, later⟩ := Option.bind_eq_some_iff.mp h
    have grown := ih later
    have step := (weight_follow first).1
    rw [weight_cons]
    omega

theorem steps_of_isRelative {path : Text} (relative : isRelative path = true) :
    steps path = pieces path := by
  cases path with
  | nil => rfl
  | cons c rest =>
    have apart : c ≠ '/' := by
      simpa [isRelative, isAbsolute] using relative
    rw [steps, List.dropWhile_cons_of_neg (by simpa using apart)]

theorem canonicalize_of_isRelative (cwd : Text) {path : Text} (relative : isRelative path = true) :
    canonicalize cwd path =
      ((pieces path).foldlM follow (start cwd path)).map fun names => ofNames names.reverse := by
  have notTop : path ≠ top := by
    rintro rfl
    cases relative
  rw [canonicalize, if_neg notTop, steps_of_isRelative relative]

theorem mem_start {cwd path name : Text} (member : name ∈ start cwd path) :
    name ∈ pieces cwd ∧ name ≠ [] ∧ '/' ∉ name := by
  unfold start at member
  split at member
  · cases member
  · obtain ⟨inside, nonempty⟩ := List.mem_filter.mp (List.mem_reverse.mp member)
    exact ⟨inside, by simpa using nonempty, slash_not_mem_piece cwd name inside⟩

/-! ### Resolving from the top -/

@[simp] theorem start_top (path : Text) : start top path = [] := by
  unfold start
  split <;> rfl

theorem byteLength_dropWhile_le (path : Text) (p : Char → Bool) :
    Text.byteLength (path.dropWhile p) ≤ path.byteLength := by
  have whole := congrArg Text.byteLength (List.takeWhile_append_dropWhile (p := p) (l := path))
  rw [Text.byteLength_append] at whole
  omega

/-- What a path comes to from the top is made of names that stand in it. -/
theorem canonicalize_top_eq_some {path key : Text} (h : canonicalize top path = some key) :
    ∃ names, key = ofNames names ∧ (∀ name ∈ names, IsName name ∧ name ∈ steps path) ∧
      weight names ≤ path.byteLength + 1 := by
  unfold canonicalize at h
  split at h
  · cases h
    exact ⟨[], rfl, fun name member => absurd member List.not_mem_nil, Nat.zero_le _⟩
  · rw [start_top] at h
    obtain ⟨stack, followed, same⟩ := Option.map_eq_some_iff.mp h
    refine ⟨stack.reverse, same.symm, fun name member => ?_, ?_⟩
    · rcases mem_of_follow followed name (List.mem_reverse.mp member) with bad | ⟨inside, isName⟩
      · cases bad
      · exact ⟨⟨isName.1, slash_not_mem_piece _ name inside, isName.2.1, isName.2.2⟩, inside⟩
    · have bound := weight_of_follow followed
      have shorter := byteLength_dropWhile_le path (· = '/')
      rw [weight_nil, steps, weight_pieces] at bound
      rw [weight_reverse]
      omega

theorem resolve_of_malformed {cwd path : Text} (malformed : path = [] ∨ '\x00' ∈ path) :
    resolve cwd path = .error .invalidPath := by
  rw [resolve, validate, if_pos malformed]

theorem resolve_of_long {cwd path : Text} (wellFormed : ¬ (path = [] ∨ '\x00' ∈ path))
    (long : maxLength < path.byteLength) : resolve cwd path = .error .nameTooLong := by
  rw [resolve, validate, if_neg wellFormed, if_pos long]

theorem resolve_of_short {cwd path : Text} (wellFormed : ¬ (path = [] ∨ '\x00' ∈ path))
    (short : path.byteLength ≤ maxLength) :
    resolve cwd path = (canonicalize cwd path).elim (.error .invalidPath) .ok := by
  rw [resolve, validate, if_neg wellFormed, if_neg (Nat.not_lt.mpr short)]
  cases found : canonicalize cwd path <;> simp only [found, Option.elim]

theorem resolve_eq_ok {cwd path key : Text} :
    resolve cwd path = .ok key ↔
      path ≠ [] ∧ '\x00' ∉ path ∧ path.byteLength ≤ maxLength ∧ canonicalize cwd path = some key := by
  by_cases malformed : path = [] ∨ '\x00' ∈ path
  · rw [resolve_of_malformed malformed]
    simp only [reduceCtorEq, false_iff]
    rintro ⟨nonempty, noNul, -⟩
    exact malformed.elim nonempty noNul
  · have wellFormed := not_or.mp malformed
    by_cases long : maxLength < path.byteLength
    · rw [resolve_of_long malformed long]
      simp only [reduceCtorEq, Nat.not_le.mpr long, false_and, and_false]
    · have short := Nat.not_lt.mp long
      rw [resolve_of_short malformed short]
      cases canonicalize cwd path <;> simp [wellFormed, short]

/-- A path that resolves from the top leads there by names that stand in it. -/
theorem resolve_top_eq_ok {path key : Text} (h : resolve top path = .ok key) :
    ∃ names, key = ofNames names ∧ AreNames names ∧ (∀ name ∈ names, name ∈ steps path) ∧
      weight names ≤ path.byteLength + 1 := by
  obtain ⟨-, -, -, canonical⟩ := resolve_eq_ok.mp h
  obtain ⟨names, same, inside, bound⟩ := canonicalize_top_eq_some canonical
  exact ⟨names, same, fun name member => (inside name member).1,
    fun name member => (inside name member).2, bound⟩

theorem byteLength_of_resolve {path key : Text} (h : resolve top path = .ok key) :
    key.byteLength ≤ maxLength + 1 := by
  obtain ⟨-, -, short, -⟩ := resolve_eq_ok.mp h
  obtain ⟨names, rfl, -, -, bound⟩ := resolve_top_eq_ok h
  cases names with
  | nil => decide
  | cons first rest =>
    rw [byteLength_ofNames (List.cons_ne_nil first rest)]
    omega

theorem nul_not_mem_of_resolve {path key name : Text} (h : resolve top path = .ok key)
    (member : name ∈ namesOf key) : '\x00' ∉ name := by
  obtain ⟨-, noNul, -, -⟩ := resolve_eq_ok.mp h
  obtain ⟨names, rfl, areNames, inside, -⟩ := resolve_top_eq_ok h
  rw [namesOf_ofNames areNames] at member
  intro nul
  have later : '\x00' ∈ path.dropWhile (· = '/') := mem_of_mem_piece (inside name member) nul
  exact noNul ((List.dropWhile_sublist _).mem later)

end FileRemoval.Path
