import FileRemoval.Proofs.Path.Canonical

/-! # Lengths around the limit

The length of a path is checked before it is made canonical. Against the top that adds at most the
slash in front, and it does so only to a relative path without dots. So a path at the limit can
lead to one that is a byte over it, and that path is refused when it is resolved in turn. -/

namespace FileRemoval.Path

section

variable {path key : Text}

theorem weight_of_follow_eq_iff {steps names last : List Text}
    (h : steps.foldlM follow names = some last) :
    weight last = weight names + weight steps ↔ here ∉ steps ∧ above ∉ steps := by
  induction steps generalizing names with
  | nil =>
    cases h
    simp
  | cons piece rest ih =>
    rw [List.foldlM_cons] at h
    obtain ⟨next, first, later⟩ := Option.bind_eq_some_iff.mp h
    obtain ⟨bound, full⟩ := weight_follow first
    have boundLater := weight_of_follow later
    have both : weight last = weight names + weight (piece :: rest) ↔
        weight next = weight names + (piece.byteLength + 1) ∧
          weight last = weight next + weight rest := by
      rw [weight_cons]
      omega
    rw [both, full, ih later, List.mem_cons, List.mem_cons, not_or, not_or,
      @ne_comm _ piece here, @ne_comm _ piece above]
    exact and_and_and_comm

/-! ### From the top -/

theorem byteLength_le_of_isAbsolute (absolute : isAbsolute path = true)
    (h : canonicalize top path = some key) : key.byteLength ≤ path.byteLength := by
  have slash : Char.utf8Size '/' = 1 := rfl
  obtain ⟨tail, rfl⟩ : ∃ tail, path = '/' :: tail := by
    cases path with
    | nil => cases absolute
    | cons c tail => exact ⟨tail, by simpa [isAbsolute] using absolute⟩
  unfold canonicalize at h
  split at h
  · rename_i isTop
    cases h
    exact Nat.le_of_eq (by rw [isTop])
  · rw [start_top] at h
    obtain ⟨stack, followed, rfl⟩ := Option.map_eq_some_iff.mp h
    have bound := weight_of_follow followed
    have behind : ('/' :: tail).dropWhile (· = '/') = tail.dropWhile (· = '/') :=
      List.dropWhile_cons_of_pos (by simp)
    have shorter := byteLength_dropWhile_le tail (· = '/')
    rw [weight_nil, steps, weight_pieces, behind] at bound
    rw [byteLength_ofNames_reverse, Text.byteLength_cons, slash]
    omega

theorem byteLength_of_isRelative (nonempty : path ≠ []) (relative : isRelative path = true)
    (h : canonicalize top path = some key) :
    key.byteLength ≤ path.byteLength + 1 ∧
      (key.byteLength = path.byteLength + 1 ↔ Dotless path) := by
  have positive := Text.byteLength_pos nonempty
  rw [canonicalize_of_isRelative top relative, start_top] at h
  obtain ⟨stack, followed, rfl⟩ := Option.map_eq_some_iff.mp h
  have bound := weight_of_follow followed
  have full := weight_of_follow_eq_iff followed
  rw [weight_nil, weight_pieces, Nat.zero_add] at bound full
  rw [byteLength_ofNames_reverse, Dotless, ← full]
  omega

theorem byteLength_of_canonicalize (nonempty : path ≠ []) (h : canonicalize top path = some key) :
    key.byteLength ≤ path.byteLength + 1 ∧
      (key.byteLength = path.byteLength + 1 ↔ isRelative path = true ∧ Dotless path) ∧
      (isAbsolute path = true → key.byteLength ≤ path.byteLength) := by
  cases absolute : isAbsolute path with
  | false =>
    have relative : isRelative path = true := by rw [isRelative, absolute]; rfl
    obtain ⟨bound, longer⟩ := byteLength_of_isRelative nonempty relative h
    refine ⟨bound, by rw [longer, and_iff_right relative], ?_⟩
    intro bad
    cases bad
  | true =>
    have notRelative : isRelative path = false := by rw [isRelative, absolute]; rfl
    have bound := byteLength_le_of_isAbsolute absolute h
    refine ⟨by omega, ⟨fun full => by omega, ?_⟩, fun _ => bound⟩
    rintro ⟨relative, -⟩
    rw [notRelative] at relative
    cases relative

end

/-! ### The order of the checks -/

section

variable {cwd path : Text}

theorem resolve_eq_nameTooLong : resolve cwd path = .error .nameTooLong ↔
    ¬ (path = [] ∨ '\x00' ∈ path) ∧ maxLength < path.byteLength := by
  by_cases malformed : path = [] ∨ '\x00' ∈ path
  · simp [resolve_of_malformed malformed, malformed]
  · by_cases long : maxLength < path.byteLength
    · simp [resolve_of_long malformed long, malformed, long]
    · rw [resolve_of_short malformed (Nat.not_lt.mp long)]
      cases canonicalize cwd path <;> simp [long]

theorem resolve_eq_invalidPath : resolve cwd path = .error .invalidPath ↔
    (path = [] ∨ '\x00' ∈ path) ∨
      path.byteLength ≤ maxLength ∧ canonicalize cwd path = none := by
  by_cases malformed : path = [] ∨ '\x00' ∈ path
  · simp [resolve_of_malformed malformed, malformed]
  · by_cases long : maxLength < path.byteLength
    · simp [resolve_of_long malformed long, malformed, Nat.not_le.mpr long]
    · have short := Nat.not_lt.mp long
      rw [resolve_of_short malformed short]
      cases canonicalize cwd path <;> simp [malformed, short]

end

/-- What a path comes to from the top, and what becomes of that when it is resolved in turn. -/
structure Lengthened (path key : Text) : Prop where
  noNul : '\x00' ∉ key
  bound : key.byteLength ≤ path.byteLength + 1
  longer_iff : key.byteLength = path.byteLength + 1 ↔ isRelative path = true ∧ Dotless path
  absolute : isAbsolute path = true → key.byteLength ≤ path.byteLength
  within : key.byteLength ≤ maxLength + 1
  again : ∀ cwd, resolve cwd key =
    if key.byteLength ≤ maxLength then .ok key else .error .nameTooLong
  refused_iff : ∀ cwd, resolve cwd key = .error .nameTooLong ↔
    isRelative path = true ∧ path.byteLength = maxLength ∧ Dotless path

theorem lengthened_of_resolve {path key : Text} (h : resolve top path = .ok key) :
    Lengthened path key := by
  obtain ⟨nonempty, -, short, canonical⟩ := resolve_eq_ok.mp h
  obtain ⟨names, rfl, areNames, -⟩ := resolve_top_eq_ok h
  obtain ⟨bound, longer, absolute⟩ := byteLength_of_canonicalize nonempty canonical
  have clean : '\x00' ∉ ofNames names := nul_not_mem_ofNames fun name member =>
    nul_not_mem_of_resolve h (by rwa [namesOf_ofNames areNames])
  have wellFormed : ¬ (ofNames names = [] ∨ '\x00' ∈ ofNames names) :=
    not_or.mpr ⟨List.cons_ne_nil _ _, clean⟩
  refine ⟨clean, bound, longer, absolute, by omega, fun cwd => ?_, fun cwd => ⟨?_, ?_⟩⟩
  · split
    · rename_i fits
      exact resolve_ofNames cwd areNames clean fits
    · rename_i long
      exact resolve_of_long wellFormed (Nat.not_le.mp long)
  · intro refused
    have long := (resolve_eq_nameTooLong.mp refused).2
    obtain ⟨relative, dotless⟩ := longer.mp (by omega)
    exact ⟨relative, by omega, dotless⟩
  · rintro ⟨relative, limit, dotless⟩
    have full := longer.mpr ⟨relative, dotless⟩
    exact resolve_of_long wellFormed (by omega)

/-- The checks in their order, each with exactly the paths that it refuses, and the length of what
a path comes to from the top. -/
theorem resolve_limits (path : Text) :
    (∀ cwd,
      (resolve cwd path = .error .nameTooLong ↔
        ¬ (path = [] ∨ '\x00' ∈ path) ∧ maxLength < path.byteLength) ∧
      (resolve cwd path = .error .invalidPath ↔
        (path = [] ∨ '\x00' ∈ path) ∨
          path.byteLength ≤ maxLength ∧ canonicalize cwd path = none) ∧
      ∀ key, resolve cwd path = .ok key ↔
        path ≠ [] ∧ '\x00' ∉ path ∧ path.byteLength ≤ maxLength ∧
          canonicalize cwd path = some key) ∧
    ∀ key, resolve top path = .ok key → Lengthened path key :=
  ⟨fun _ => ⟨resolve_eq_nameTooLong, resolve_eq_invalidPath, fun _ => resolve_eq_ok⟩,
    fun _ => lengthened_of_resolve⟩

/-- A name of 128 two-byte letters is just within the limit. -/
theorem resolve_limits_of_two_byte_letters :
    let name : Text := List.replicate 128 'é'
    resolve top name = .ok ('/' :: name) ∧ isRelative name = true ∧ name.byteLength = maxLength ∧
      Dotless name ∧ resolve "/w".toList ('/' :: name) = .error .nameTooLong := by
  intro name
  have limit : name.byteLength = maxLength := by decide +kernel
  have canonical : canonicalize top name = some ('/' :: name) := by decide +kernel
  have found : resolve top name = .ok ('/' :: name) :=
    resolve_eq_ok.mpr ⟨by decide +kernel, by decide +kernel, Nat.le_of_eq limit, canonical⟩
  have relative : isRelative name = true := rfl
  have dotless : Dotless name := by decide +kernel
  have lengthened := (resolve_limits name).2 _ found
  exact ⟨found, relative, limit, dotless,
    (lengthened.refused_iff "/w".toList).mpr ⟨relative, limit, dotless⟩⟩

end FileRemoval.Path
