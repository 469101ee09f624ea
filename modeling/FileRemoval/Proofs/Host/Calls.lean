import FileRemoval.Proofs.Host.Walk

/-! # File calls below a root

What the host does with a path that goes on from a root by canonical names: where the walk ends,
what the call changes and what it leaves. -/

namespace FileRemoval.Host

open Path (AreNames IsName joined)
open HostPath (join names)

variable {h : Host} {root : Bytes} {base : Location} {ns : List Text}

/-! ### Paths below a root -/

/-- The host path that goes on from `root` by canonical names. -/
def pathBelow (root : Bytes) (ns : List Text) : Bytes :=
  join root (Text.utf8 (joined ns))

/-- Where that path leads if the root leads to `base`. -/
def locationBelow (base : Location) (ns : List Text) : Location :=
  base ++ ns.map Text.utf8

/-- Names that the host can read when they go on from `root`. -/
structure Readable (root : Bytes) (ns : List Text) : Prop where
  names : AreNames ns
  nulFree : ∀ name ∈ ns, '\x00' ∉ name
  short : ∀ name ∈ ns, name.byteLength ≤ maxName
  fits : (pathBelow root ns).length < pathRoom

theorem locationBelow_concat (base : Location) (above : List Text) (name : Text) :
    locationBelow base (above ++ [name]) = locationBelow base above ++ [Text.utf8 name] := by
  rw [locationBelow, locationBelow, List.map_append, List.append_assoc]
  rfl

theorem locationBelow_inj {others : List Text} :
    locationBelow base ns = locationBelow base others ↔ ns = others := by
  rw [locationBelow, locationBelow, List.append_cancel_left_eq]
  exact List.map_inj_right fun _ _ => Text.utf8_injective

theorem locationBelow_ne_nil (nonempty : ns ≠ []) : locationBelow base ns ≠ [] := by
  simp [locationBelow, nonempty]

theorem isEntryName_utf8 {name : Text} (isName : IsName name) (short : name.byteLength ≤ maxName) :
    IsEntryName (Text.utf8 name) :=
  ⟨HostPath.utf8_ne_here isName, HostPath.utf8_ne_above isName, short⟩

theorem Readable.entries (readable : Readable root ns) :
    ∀ name ∈ ns.map Text.utf8, IsEntryName name := by
  intro piece member
  obtain ⟨name, inside, rfl⟩ := List.mem_map.mp member
  exact isEntryName_utf8 (readable.names name inside) (readable.short name inside)

theorem zero_not_mem_joined (nulFree : ∀ name ∈ ns, '\x00' ∉ name) : '\x00' ∉ joined ns := by
  induction ns with
  | nil => exact List.not_mem_nil
  | cons first rest ih =>
    have head := nulFree first List.mem_cons_self
    have tail := ih fun name member => nulFree name (List.mem_cons_of_mem first member)
    cases rest with
    | nil => simpa [joined] using head
    | cons second others =>
      rw [Path.joined_cons first (List.cons_ne_nil second others)]
      intro nul
      rcases List.mem_append.mp nul with inHead | nul
      · exact head inHead
      · rcases List.mem_cons.mp nul with isSlash | inTail
        · cases isSlash
        · exact tail inTail

theorem root_ne_nil {place : Place} (found : h.find root = .ok place) : root ≠ [] :=
  (find_eq_ok.mp found).1.2.1

theorem names_pathBelow (root : Bytes) (areNames : AreNames ns) :
    names (pathBelow root ns) = names root ++ ns.map Text.utf8 := by
  have relative := HostPath.isAbsolute_utf8_joined areNames
  rw [pathBelow, HostPath.names_join root relative, HostPath.names_utf8_joined areNames]

theorem startOf_pathBelow (h : Host) (root : Bytes) (areNames : AreNames ns) :
    h.startOf (pathBelow root ns) = h.startOf root := by
  have relative := HostPath.isAbsolute_utf8_joined areNames
  rw [startOf, pathBelow, HostPath.isAbsolute_join root relative, startOf]

theorem endsInSlash_pathBelow (root : Bytes) (areNames : AreNames ns) (nonempty : ns ≠ []) :
    HostPath.endsInSlash (pathBelow root ns) = false :=
  HostPath.endsInSlash_join_joined root areNames nonempty

theorem accept_pathBelow {place : Place} (found : h.find root = .ok place)
    (readable : Readable root ns) : accept (pathBelow root ns) = .ok () := by
  obtain ⟨⟨rootNul, rootNonempty, -⟩, -⟩ := find_eq_ok.mp found
  have relative := HostPath.isAbsolute_utf8_joined readable.names
  have restNul := HostPath.zero_not_mem_utf8 (zero_not_mem_joined readable.nulFree)
  have fits := readable.fits
  have parts : 0 ∉ pathBelow root ns ∧ pathBelow root ns ≠ [] := by
    have apart : (0 : UInt8) ≠ HostPath.slash := by decide
    cases slashed : HostPath.endsInSlash root with
    | true =>
      rw [pathBelow, HostPath.join_of_endsInSlash relative slashed]
      simp [rootNul, restNul, rootNonempty]
    | false =>
      rw [pathBelow, HostPath.join_of_not_endsInSlash relative rootNonempty slashed]
      simp [rootNul, restNul, apart]
  have notLong : ¬ pathRoom ≤ (pathBelow root ns).length := by omega
  simp only [accept, parts.1, parts.2, notLong, ↓reduceIte]

theorem find_pathBelow (found : h.find root = .ok (.at base)) (readable : Readable root ns) :
    h.find (pathBelow root ns) = (ns.map Text.utf8).foldlM h.enter (.at base) := by
  have walked := (find_eq_ok.mp found).2
  rw [find, accept_pathBelow found readable, startOf_pathBelow h root readable.names,
    names_pathBelow root readable.names]
  exact walk_append_of_ok walked

/-! ### Where the last step aims -/

theorem target_pathBelow {above : List Text} {name : Text} (found : h.find root = .ok (.at base))
    (readable : Readable root (above ++ [name])) :
    h.target (pathBelow root (above ++ [name])) =
      (above.map Text.utf8).foldlM h.enter (.at base) >>= fun place =>
        h.targetIn place (Text.utf8 name) := by
  have walked := (find_eq_ok.mp found).2
  have all := names_pathBelow root readable.names
  rw [List.map_append, ← List.append_assoc, List.map_singleton] at all
  have front : (names (pathBelow root (above ++ [name]))).dropLast =
      names root ++ above.map Text.utf8 := by
    rw [all, List.dropLast_concat]
  have last : (names (pathBelow root (above ++ [name]))).getLast? = some (Text.utf8 name) := by
    rw [all, List.getLast?_concat]
  rw [target, accept_pathBelow found readable]
  simp only [last, front, startOf_pathBelow h root readable.names, walk_append_of_ok walked]
  cases led : (above.map Text.utf8).foldlM h.enter (.at base) with
  | error refusal => rfl
  | ok place => rfl

/-- The call is about an entry of a directory, or it fails for what stands in its way. -/
theorem target_cases {above : List Text} {name : Text} (found : h.find root = .ok (.at base))
    (grows : Grows h base) (readable : Readable root (above ++ [name])) :
    (h.node? (locationBelow base above) = some .directory ∧
      h.target (pathBelow root (above ++ [name])) =
        .ok (.entry (locationBelow base above) (Text.utf8 name))) ∨
    ((∃ content, h.node? (locationBelow base above) = some (.file content)) ∧
      h.target (pathBelow root (above ++ [name])) = .error .notADirectory) ∨
    (h.node? (locationBelow base above) = none ∧ h.MeetsFile base (above.map Text.utf8) ∧
      h.target (pathBelow root (above ++ [name])) = .error .notADirectory) ∨
    (h.node? (locationBelow base above) = none ∧ ¬ h.MeetsFile base (above.map Text.utf8) ∧
      h.target (pathBelow root (above ++ [name])) = .error .noEntry) := by
  have entries := readable.entries
  rw [List.map_append, List.map_singleton] at entries
  have isEntry := entries (Text.utf8 name) (List.mem_append_right _ List.mem_cons_self)
  have entries' : ∀ piece ∈ above.map Text.utf8, IsEntryName piece := fun piece member =>
    entries piece (List.mem_append_left _ member)
  rw [target_pathBelow found readable]
  cases there : h.node? (locationBelow base above) with
  | none =>
    rcases grows.walk_of_absent entries' there with ⟨meets, walked⟩ | ⟨clear, walked⟩
    · exact .inr (.inr (.inl ⟨rfl, meets, by rw [walked]; rfl⟩))
    · exact .inr (.inr (.inr ⟨rfl, clear, by rw [walked]; rfl⟩))
  | some node =>
    have walked := grows.walk_of_found entries' (by rw [← locationBelow, there]; rfl)
    rw [← locationBelow] at walked
    rw [walked]
    cases node with
    | file content =>
      refine .inr (.inl ⟨⟨content, rfl⟩, ?_⟩)
      show h.targetIn (.at (locationBelow base above)) (Text.utf8 name) = _
      simp only [targetIn, there]
    | directory =>
      refine .inl ⟨rfl, ?_⟩
      have notLong := isEntry.isTooLong_eq_false (h := h) (locationBelow base above)
      show h.targetIn (.at (locationBelow base above)) (Text.utf8 name) = _
      simp only [targetIn, there, isEntry.not_here, isEntry.not_above, notLong, or_self,
        Bool.false_eq_true, ↓reduceIte]

/-! ### Calls on an entry -/

def withFile (h : Host) (location : Location) : Host :=
  { h with nodes := h.nodes.insert location (.file []) }

def without (h : Host) (location : Location) : Host :=
  { h with nodes := h.nodes.erase location }

section

variable {location : Location} (nonempty : location ≠ [])
include nonempty

theorem node?_withFile (h : Host) (other : Location) :
    (h.withFile location).node? other =
      if other = location then some (.file []) else h.node? other := by
  unfold node?
  by_cases isTop : other = []
  · have apart : [] ≠ location := nonempty.symm
    simp only [isTop, apart, ↓reduceIte]
  · simp only [isTop, withFile, SortedMap.get?_insert, ↓reduceIte]

theorem node?_without (h : Host) (other : Location) :
    (h.without location).node? other = if other = location then none else h.node? other := by
  unfold node?
  by_cases isTop : other = []
  · have apart : [] ≠ location := nonempty.symm
    simp only [isTop, apart, ↓reduceIte]
  · simp only [isTop, without, SortedMap.get?_erase, ↓reduceIte]

theorem directories_withFile (notDirectory : h.node? location ≠ some .directory)
    (other : Location) (directory : h.node? other = some .directory) :
    (h.withFile location).node? other = some .directory := by
  have apart : other ≠ location := by
    rintro rfl
    exact notDirectory directory
  rw [node?_withFile nonempty, if_neg apart, directory]

theorem directories_without (notDirectory : h.node? location ≠ some .directory)
    (other : Location) (directory : h.node? other = some .directory) :
    (h.without location).node? other = some .directory := by
  have apart : other ≠ location := by
    rintro rfl
    exact notDirectory directory
  rw [node?_without nonempty, if_neg apart, directory]

end

theorem openEmpty_of_error {path : Bytes} {refusal : HostError}
    (aimed : h.target path = .error refusal) : h.openEmpty path = (.error refusal, h) := by
  simp only [openEmpty, aimed]

theorem unlink_of_error {path : Bytes} {refusal : HostError}
    (aimed : h.target path = .error refusal) : h.unlink path = (.error refusal, h) := by
  simp only [unlink, aimed]

section

variable {path : Bytes} {directory : Location} {name : Bytes}
  (aimed : h.target path = .ok (.entry directory name))
include aimed

theorem unlink_of_absent (found : h.node? (directory ++ [name]) = none) :
    h.unlink path = (.error .noEntry, h) := by
  simp only [unlink, aimed, found]

theorem unlink_of_directory (found : h.node? (directory ++ [name]) = some .directory) :
    h.unlink path = (.error .isADirectory, h) := by
  simp only [unlink, aimed, found]

variable (unslashed : HostPath.endsInSlash path = false)
include unslashed

theorem openEmpty_of_directory (found : h.node? (directory ++ [name]) = some .directory) :
    h.openEmpty path = (.error .isADirectory, h) := by
  simp only [openEmpty, aimed, unslashed, found, Bool.false_eq_true, ↓reduceIte]

theorem openEmpty_of_entry (notDirectory : h.node? (directory ++ [name]) ≠ some .directory)
    (free : h.refusalIn? directory = none) :
    h.openEmpty path = (.ok (), h.withFile (directory ++ [name])) := by
  simp only [openEmpty, aimed, unslashed, free, Bool.false_eq_true, ↓reduceIte]
  cases found : h.node? (directory ++ [name]) with
  | none => rfl
  | some node =>
    cases node with
    | directory => exact absurd found notDirectory
    | file content => rfl

theorem unlink_of_file {content : Bytes}
    (found : h.node? (directory ++ [name]) = some (.file content))
    (free : h.refusalIn? directory = none) :
    h.unlink path = (.ok (), h.without (directory ++ [name])) := by
  simp only [unlink, aimed, found, unslashed, free, Option.isSome_none, Bool.false_eq_true,
    ↓reduceIte]
  rfl

end

/-- Either the file is there and empty afterwards, or nothing happened. -/
theorem openEmpty_cases (h : Host) (path : Bytes) :
    (∃ refusal, h.openEmpty path = (.error refusal, h)) ∨
    (∃ directory name, h.target path = .ok (.entry directory name) ∧
      HostPath.endsInSlash path = false ∧
      h.node? (directory ++ [name]) ≠ some .directory ∧
      h.openEmpty path = (.ok (), h.withFile (directory ++ [name]))) := by
  cases aimed : h.target path with
  | error refusal => exact .inl ⟨refusal, openEmpty_of_error aimed⟩
  | ok aim =>
    cases aim with
    | dots => exact .inl ⟨.isADirectory, by simp only [openEmpty, aimed]⟩
    | barred refusal => exact .inl ⟨_, by simp only [openEmpty, aimed]; rfl⟩
    | entry directory name =>
      cases slashed : HostPath.endsInSlash path with
      | true =>
        exact .inl ⟨.isADirectory, by simp only [openEmpty, aimed, slashed, ↓reduceIte]⟩
      | false =>
        cases found : h.node? (directory ++ [name]) with
        | none =>
          cases free : h.refusalIn? directory with
          | none =>
            have notDirectory : h.node? (directory ++ [name]) ≠ some .directory := by
              rw [found]
              exact (Option.some_ne_none _).symm
            exact .inr ⟨directory, name, rfl, rfl, notDirectory,
              openEmpty_of_entry aimed slashed notDirectory free⟩
          | some refusal =>
            exact .inl ⟨refusal, by simp only [openEmpty, aimed, slashed, found, free,
              Bool.false_eq_true, ↓reduceIte]⟩
        | some node =>
          cases node with
          | directory => exact .inl ⟨.isADirectory, openEmpty_of_directory aimed slashed found⟩
          | file content =>
            refine .inr ⟨directory, name, rfl, rfl, by rw [found]; simp, ?_⟩
            simp only [openEmpty, aimed, slashed, found, Bool.false_eq_true, ↓reduceIte]
            rfl

/-- Either the file was there and is gone afterwards, or nothing happened. -/
theorem unlink_cases (h : Host) (path : Bytes) :
    (∃ refusal, h.unlink path = (.error refusal, h)) ∨
    (∃ directory name content, h.target path = .ok (.entry directory name) ∧
      HostPath.endsInSlash path = false ∧
      h.node? (directory ++ [name]) = some (.file content) ∧
      h.unlink path = (.ok (), h.without (directory ++ [name]))) := by
  cases aimed : h.target path with
  | error refusal => exact .inl ⟨refusal, unlink_of_error aimed⟩
  | ok aim =>
    cases aim with
    | dots => exact .inl ⟨.isADirectory, by simp only [unlink, aimed]⟩
    | barred refusal => exact .inl ⟨refusal, by simp only [unlink, aimed]⟩
    | entry directory name =>
      cases found : h.node? (directory ++ [name]) with
      | none => exact .inl ⟨.noEntry, unlink_of_absent aimed found⟩
      | some node =>
        cases node with
        | directory => exact .inl ⟨.isADirectory, unlink_of_directory aimed found⟩
        | file content =>
          cases slashed : HostPath.endsInSlash path with
          | true => exact .inl ⟨.notADirectory, by simp only [unlink, aimed, found, slashed, ↓reduceIte]⟩
          | false =>
            cases free : h.refusalIn? directory with
            | none =>
              exact .inr ⟨directory, name, content, rfl, rfl, found,
                unlink_of_file aimed slashed found free⟩
            | some refusal =>
              exact .inl ⟨.notPermitted, by simp only [unlink, aimed, found, slashed, free,
                Option.isSome_some, Bool.false_eq_true, ↓reduceIte]⟩

/-! ### Calls on the root itself -/

theorem target_root (found : h.find root = .ok (.at base)) (top : h.node? base = some .directory)
    (readable : Readable root []) :
    h.target (pathBelow root []) = .ok .dots ∨
    ∃ directory name, h.target (pathBelow root []) = .ok (.entry directory name) ∧
      h.node? (directory ++ [name]) = some .directory := by
  have walked := (find_eq_ok.mp found).2
  have all := names_pathBelow root readable.names
  rw [List.map_nil, List.append_nil] at all
  rcases List.eq_nil_or_concat' (names root) with empty | ⟨above, name, split⟩
  · rw [empty] at all
    rw [target, accept_pathBelow found readable]
    simp only [all, List.getLast?_nil]
    exact .inl trivial
  · rw [split] at all walked
    have front : (names (pathBelow root [])).dropLast = above := by
      rw [all, List.dropLast_concat]
    have last : (names (pathBelow root [])).getLast? = some name := by
      rw [all, List.getLast?_concat]
    rw [target, accept_pathBelow found readable]
    simp only [last, front, startOf_pathBelow h root readable.names]
    cases led : above.foldlM h.enter (h.startOf root) with
    | error refusal =>
      rw [walk_append_of_error led] at walked
      cases walked
    | ok place =>
      rw [walk_append_of_ok led, walk_singleton] at walked
      cases place with
      | takenFrom parent =>
        by_cases dots : name = HostPath.here ∨ name = HostPath.above
        · simp only [targetIn, dots, ↓reduceIte]
          exact .inl trivial
        · rw [not_or] at dots
          simp only [enter, dots.1, dots.2, ↓reduceIte] at walked
          cases walked
      | «at» location =>
        obtain ⟨there, stays | up | ⟨notHere, notAbove, notLong, -, same⟩⟩ := enter_eq_ok.mp walked
        · simp only [targetIn, there, stays.1, true_or, ↓reduceIte]
        · simp only [targetIn, there, up.1, or_true, ↓reduceIte]
          exact .inl trivial
        · simp only [targetIn, there, notHere, notAbove, notLong, or_self, Bool.false_eq_true,
            ↓reduceIte]
          cases same
          exact .inr ⟨location, name, rfl, top⟩

theorem openEmpty_root (found : h.find root = .ok (.at base))
    (top : h.node? base = some .directory) (readable : Readable root []) :
    h.openEmpty (pathBelow root []) = (.error .isADirectory, h) := by
  have slashed : HostPath.endsInSlash (pathBelow root []) = true :=
    HostPath.endsInSlash_join_nil (root_ne_nil found)
  rcases target_root found top readable with dots | ⟨directory, name, aimed, -⟩
  · simp only [openEmpty, dots]
  · simp only [openEmpty, aimed, slashed, ↓reduceIte]

theorem unlink_root (found : h.find root = .ok (.at base))
    (top : h.node? base = some .directory) (readable : Readable root []) :
    h.unlink (pathBelow root []) = (.error .isADirectory, h) := by
  rcases target_root found top readable with dots | ⟨directory, name, aimed, there⟩
  · simp only [unlink, dots]
  · simp only [unlink, aimed, there]

/-! ### Whether a path leads to something -/

theorem holds_pathBelow (found : h.find root = .ok (.at base)) (grows : Grows h base)
    (readable : Readable root ns) :
    h.holds (pathBelow root ns) = (h.node? (locationBelow base ns)).isSome := by
  have sought := find_pathBelow found readable
  unfold holds
  cases there : h.node? (locationBelow base ns) with
  | none =>
    rcases grows.walk_of_absent readable.entries there with ⟨-, walked⟩ | ⟨-, walked⟩
    · simp only [sought, walked]
      rfl
    · simp only [sought, walked]
      rfl
  | some node =>
    have walked := grows.walk_of_found readable.entries (by rw [← locationBelow, there]; rfl)
    rw [← locationBelow] at walked
    simp only [sought, walked, there]
    cases node with
    | directory => rfl
    | file content =>
      have nonempty : ns ≠ [] := by
        rintro rfl
        rw [locationBelow, List.map_nil, List.append_nil, grows.top] at there
        cases there
      rw [endsInSlash_pathBelow root readable.names nonempty]
      rfl

end FileRemoval.Host
