import Mathlib.Data.List.Induction
import FileRemoval.Host
import FileRemoval.Proofs.Host.Paths

/-! # Walking a host

How the walk of a path ends below a directory, and that a walk to a directory does not depend on
the files of the host. -/

namespace FileRemoval.Host

open Path (AreNames IsName joined)
open HostPath (join)

variable {h h' : Host} {base : Location}

/-! ### One step -/

/-- From a directory a walk stays, goes up, or goes down to an entry that is there. -/
theorem enter_eq_ok {location : Location} {name : Bytes} {next : Place} :
    h.enter (.at location) name = .ok next ↔ h.node? location = some .directory ∧
      ((name = HostPath.here ∧ .at location = next) ∨
        (name = HostPath.above ∧ .at location.dropLast = next) ∨
        (name ≠ HostPath.here ∧ name ≠ HostPath.above ∧ h.isTooLong location name = false ∧
          (h.node? (location ++ [name])).isSome ∧ .at (location ++ [name]) = next)) := by
  have apart : HostPath.above ≠ HostPath.here := by decide
  unfold enter
  cases there : h.node? location with
  | none => simp [there]
  | some node =>
    cases node with
    | file content => simp [there]
    | directory =>
      simp only [there, true_and]
      by_cases isHere : name = HostPath.here
      · simp [isHere, apart.symm]
      · by_cases isAbove : name = HostPath.above
        · simp [isAbove, apart]
        · cases long : h.isTooLong location name with
          | true => simp [isHere, isAbove]
          | false =>
            cases h.node? (location ++ [name]) with
            | none => simp [isHere, isAbove]
            | some found => simp [isHere, isAbove]

theorem walk_append_of_ok {names rest : List Bytes} {place next : Place}
    (walked : names.foldlM h.enter place = .ok next) :
    (names ++ rest).foldlM h.enter place = rest.foldlM h.enter next := by
  rw [List.foldlM_append, walked]
  rfl

theorem walk_append_of_error {names rest : List Bytes} {place : Place} {refusal : HostError}
    (walked : names.foldlM h.enter place = .error refusal) :
    (names ++ rest).foldlM h.enter place = .error refusal := by
  rw [List.foldlM_append, walked]
  rfl

theorem walk_singleton (name : Bytes) (place : Place) :
    [name].foldlM h.enter place = h.enter place name := by
  rw [List.foldlM_cons]
  exact bind_pure (h.enter place name)

/-- Names that do not go up lead to the entries they name, one in the other. -/
theorem place_of_walk {names : List Bytes} {place : Place}
    (notAbove : HostPath.above ∉ names) (walked : names.foldlM h.enter (.at base) = .ok place) :
    place = .at (base ++ names.filter (· ≠ HostPath.here)) := by
  induction names generalizing base with
  | nil =>
    cases walked
    rw [List.filter_nil, List.append_nil]
  | cons name rest ih =>
    rw [List.mem_cons, not_or] at notAbove
    rw [List.foldlM_cons] at walked
    cases entered : h.enter (.at base) name with
    | error refusal =>
      rw [entered] at walked
      cases walked
    | ok next =>
      rw [entered] at walked
      obtain ⟨-, ⟨isHere, rfl⟩ | ⟨isAbove, -⟩ | ⟨notHere, -, -, -, rfl⟩⟩ := enter_eq_ok.mp entered
      · rw [ih notAbove.2 walked, List.filter_cons_of_neg (by simpa using isHere)]
      · exact absurd isAbove.symm notAbove.1
      · rw [ih notAbove.2 walked, List.filter_cons_of_pos (by simpa using notHere),
          List.append_assoc, List.singleton_append]

/-! ### Walks that lead to a directory -/

theorem directory_of_walk {location : Location} {names : List Bytes}
    (walked : names.foldlM h.enter (.at location) = .ok (.at base))
    (directory : h.node? base = some .directory) : h.node? location = some .directory := by
  cases names with
  | nil =>
    cases walked
    exact directory
  | cons name rest =>
    rw [List.foldlM_cons] at walked
    cases entered : h.enter (.at location) name with
    | error refusal =>
      rw [entered] at walked
      cases walked
    | ok next => exact (enter_eq_ok.mp entered).1

/-- Files that come and go do not change how a directory is reached. -/
theorem walk_congr (directories : ∀ location, h.node? location = some .directory →
      h'.node? location = some .directory)
    (fixed : h'.fixed = h.fixed) {names : List Bytes} {place : Place}
    (walked : names.foldlM h.enter place = .ok (.at base))
    (directory : h.node? base = some .directory) :
    names.foldlM h'.enter place = .ok (.at base) := by
  induction names generalizing place with
  | nil => exact walked
  | cons name rest ih =>
    rw [List.foldlM_cons] at walked ⊢
    cases entered : h.enter place name with
    | error refusal =>
      rw [entered] at walked
      cases walked
    | ok next =>
      rw [entered] at walked
      have entered' : h'.enter place name = .ok next := by
        cases place with
        | takenFrom parent => exact entered
        | «at» location =>
          have long : h'.isTooLong location name = h.isTooLong location name := by
            rw [isTooLong, isTooLong, refusalIn?, refusalIn?, fixed]
          obtain ⟨there, move⟩ := enter_eq_ok.mp entered
          refine enter_eq_ok.mpr ⟨directories location there, ?_⟩
          rcases move with stays | up | ⟨notHere, notAbove, notLong, -, rfl⟩
          · exact .inl stays
          · exact .inr (.inl up)
          · have below := directories _ (directory_of_walk walked directory)
            refine .inr (.inr ⟨notHere, notAbove, long.trans notLong, ?_, rfl⟩)
            rw [below]
            rfl
      rw [entered']
      exact ih walked

theorem find_eq_ok {path : Bytes} {place : Place} :
    h.find path = .ok place ↔ (0 ∉ path ∧ path ≠ [] ∧ path.length < pathRoom) ∧
      (HostPath.names path).foldlM h.enter (h.startOf path) = .ok place := by
  unfold find accept
  by_cases nul : 0 ∈ path
  · simp [nul]
  · by_cases empty : path = []
    · simp [empty]
    · by_cases long : pathRoom ≤ path.length
      · have notShort : ¬ path.length < pathRoom := by omega
        simp [nul, empty, long, notShort]
      · have short : path.length < pathRoom := by omega
        simp [nul, empty, long, short]

theorem find_congr (directories : ∀ location, h.node? location = some .directory →
      h'.node? location = some .directory)
    (fixed : h'.fixed = h.fixed) (working : h'.workingDirectory = h.workingDirectory)
    {path : Bytes} (found : h.find path = .ok (.at base))
    (directory : h.node? base = some .directory) : h'.find path = .ok (.at base) := by
  obtain ⟨readable, walked⟩ := find_eq_ok.mp found
  have start : h'.startOf path = h.startOf path := by
    rw [startOf, startOf, working]
  rw [find_eq_ok, start]
  exact ⟨readable, walk_congr directories fixed walked directory⟩

/-! ### Walks below a directory -/

/-- What a name has to be for the host to look it up as an entry, wherever that is. -/
structure IsEntryName (name : Bytes) : Prop where
  not_here : name ≠ HostPath.here
  not_above : name ≠ HostPath.above
  short : name.length ≤ maxName

theorem IsEntryName.isTooLong_eq_false {name : Bytes} (isEntry : IsEntryName name)
    (directory : Location) : h.isTooLong directory name = false := by
  have short := isEntry.short
  have notLong : ¬ maxName < name.length := by omega
  simp [isTooLong, notLong]

/-- Everything below `base` lies in a directory, and entries can be added and taken away there. -/
structure Grows (h : Host) (base : Location) : Prop where
  top : h.node? base = some .directory
  parents : ∀ names name, (h.node? (base ++ (names ++ [name]))).isSome →
    h.node? (base ++ names) = some .directory
  free : ∀ names, h.refusalIn? (base ++ names) = none

theorem Grows.directory_of_prefix (grows : Grows h base) {above below : List Bytes} (h₁ : below ≠ [])
    (there : (h.node? (base ++ (above ++ below))).isSome) :
    h.node? (base ++ above) = some .directory := by
  induction below using List.reverseRecOn with
  | nil => exact absurd rfl h₁
  | append_singleton rest last ih =>
    rw [← List.append_assoc above] at there
    have directory := grows.parents (above ++ rest) last there
    by_cases empty : rest = []
    · rwa [empty, List.append_nil] at directory
    · exact ih empty (by rw [directory]; rfl)

theorem Grows.walk_of_found (grows : Grows h base) {names : List Bytes}
    (entries : ∀ name ∈ names, IsEntryName name) (there : (h.node? (base ++ names)).isSome) :
    names.foldlM h.enter (.at base) = .ok (.at (base ++ names)) := by
  induction names using List.reverseRecOn with
  | nil =>
    rw [List.append_nil]
    rfl
  | append_singleton above name ih =>
    have directory := grows.parents above name there
    have isEntry := entries name (List.mem_append_right above List.mem_cons_self)
    have walked := ih (fun other member => entries other (List.mem_append_left [name] member))
      (by rw [directory]; rfl)
    have entered : h.enter (.at (base ++ above)) name = .ok (.at (base ++ (above ++ [name]))) := by
      rw [← List.append_assoc] at there ⊢
      exact enter_eq_ok.mpr ⟨directory, .inr (.inr ⟨isEntry.not_here, isEntry.not_above,
        isEntry.isTooLong_eq_false _, there, rfl⟩)⟩
    rw [walk_append_of_ok walked, walk_singleton, entered]

/-- A file on the way or at its end. -/
def MeetsFile (h : Host) (base : Location) (names : List Bytes) : Prop :=
  ∃ above below content, names = above ++ below ∧ h.node? (base ++ above) = some (.file content)

theorem meetsFile_concat {names : List Bytes} {name : Bytes}
    (absent : h.node? (base ++ (names ++ [name])) = none) :
    h.MeetsFile base (names ++ [name]) ↔ h.MeetsFile base names := by
  constructor
  · rintro ⟨above, below, content, split, file⟩
    rcases List.eq_nil_or_concat' below with rfl | ⟨rest, last, rfl⟩
    · rw [List.append_nil] at split
      rw [← split, absent] at file
      cases file
    · rw [← List.append_assoc] at split
      obtain ⟨split, -⟩ := List.append_inj' split rfl
      exact ⟨above, rest, content, split, file⟩
  · rintro ⟨above, below, content, rfl, file⟩
    exact ⟨above, below ++ [name], content, List.append_assoc above below [name], file⟩

theorem Grows.not_meetsFile (grows : Grows h base) {names : List Bytes}
    (directory : h.node? (base ++ names) = some .directory) : ¬ h.MeetsFile base names := by
  rintro ⟨above, below, content, rfl, file⟩
  by_cases empty : below = []
  · rw [empty, List.append_nil, file] at directory
    cases directory
  · have isDirectory := grows.directory_of_prefix empty (by rw [directory]; rfl)
    rw [isDirectory] at file
    cases file

/-- A walk to nothing ends at a file on the way, or else where an entry is missing. -/
theorem Grows.walk_of_absent (grows : Grows h base) {names : List Bytes}
    (entries : ∀ name ∈ names, IsEntryName name) (absent : h.node? (base ++ names) = none) :
    (h.MeetsFile base names ∧ names.foldlM h.enter (.at base) = .error .notADirectory) ∨
    (¬ h.MeetsFile base names ∧ names.foldlM h.enter (.at base) = .error .noEntry) := by
  -- from the end, since it is the last directory reached that settles the error
  induction names using List.reverseRecOn with
  | nil =>
    rw [List.append_nil, grows.top] at absent
    cases absent
  | append_singleton above name ih =>
    have isEntry := entries name (List.mem_append_right above List.mem_cons_self)
    have entries' : ∀ other ∈ above, IsEntryName other := fun other member =>
      entries other (List.mem_append_left [name] member)
    rw [meetsFile_concat absent]
    cases there : h.node? (base ++ above) with
    | none =>
      rcases ih entries' there with ⟨meets, walked⟩ | ⟨clear, walked⟩
      · exact .inl ⟨meets, walk_append_of_error walked⟩
      · exact .inr ⟨clear, walk_append_of_error walked⟩
    | some node =>
      have walked := grows.walk_of_found entries' (by rw [there]; rfl)
      rw [walk_append_of_ok walked, walk_singleton]
      cases node with
      | file content =>
        refine .inl ⟨⟨above, [], content, (List.append_nil above).symm, there⟩, ?_⟩
        simp only [enter, there]
      | directory =>
        refine .inr ⟨grows.not_meetsFile there, ?_⟩
        have notLong := isEntry.isTooLong_eq_false (h := h) (base ++ above)
        rw [← List.append_assoc] at absent
        simp only [enter, there, isEntry.not_here, isEntry.not_above, notLong, absent,
          Bool.false_eq_true, ↓reduceIte]

end FileRemoval.Host
