import FileRemoval.Proofs.Host.Calls

/-! # Files at host paths

Which regular file a host path leads to, where a file can be made, and what the calls do in either
case. -/

namespace FileRemoval.Host

open HostPath (names)

variable {h : Host} {path : Bytes} {location directory : Location} {name : Bytes}

/-- The path leads to a regular file. -/
def FileAt (h : Host) (path : Bytes) (location : Location) : Prop :=
  h.find path = .ok (.at location) ∧ ∃ content, h.node? location = some (.file content)

/-- Nothing is there, but all names of the path before the last lead to a directory, and the last
is a name that an entry can have. -/
structure VacantAt (h : Host) (path : Bytes) (location : Location) : Prop where
  absent : h.node? location = none
  accepted : accept path = .ok ()
  below : ∃ front name directory, names path = front ++ [name] ∧ IsEntryName name ∧
    front.foldlM h.enter (h.startOf path) = .ok (.at directory) ∧
    h.node? directory = some .directory ∧ location = directory ++ [name]

/-! ### Where the last step aims -/

theorem targetIn_eq_entry {place : Place} {last : Bytes} :
    h.targetIn place last = .ok (.entry directory name) ↔ place = .at directory ∧ last = name ∧
      h.node? directory = some .directory ∧ name ≠ HostPath.here ∧ name ≠ HostPath.above ∧
      h.isTooLong directory name = false := by
  cases place with
  | takenFrom parent =>
    simp only [targetIn, reduceCtorEq, false_and, iff_false]
    split <;> simp
  | «at» location =>
    unfold targetIn
    constructor
    · intro aimed
      cases there : h.node? location with
      | none => simp [there] at aimed
      | some node =>
        cases node with
        | file content => simp [there] at aimed
        | directory =>
          by_cases dots : last = HostPath.here ∨ last = HostPath.above
          · simp [there, dots] at aimed
          · cases long : h.isTooLong location last with
            | true => simp [there, dots, long] at aimed
            | false =>
              simp only [there, dots, long, Bool.false_eq_true, ↓reduceIte] at aimed
              cases aimed
              rw [not_or] at dots
              exact ⟨rfl, rfl, there, dots.1, dots.2, long⟩
    · rintro ⟨⟨⟩, rfl, there, notHere, notAbove, notLong⟩
      simp only [there, notHere, notAbove, notLong, or_self, Bool.false_eq_true, ↓reduceIte]

theorem target_eq_entry :
    h.target path = .ok (.entry directory name) ↔ accept path = .ok () ∧
      ∃ front, names path = front ++ [name] ∧
        front.foldlM h.enter (h.startOf path) = .ok (.at directory) ∧
        h.node? directory = some .directory ∧ name ≠ HostPath.here ∧ name ≠ HostPath.above ∧
        h.isTooLong directory name = false := by
  unfold target
  cases accepted : accept path with
  | error refusal => simp
  | ok _ =>
    rcases List.eq_nil_or_concat' (names path) with empty | ⟨front, last, split⟩
    · simp [empty]
    · simp only [split, List.getLast?_concat, List.dropLast_concat, true_and]
      cases walked : front.foldlM h.enter (h.startOf path) with
      | error refusal =>
        simp only [reduceCtorEq, false_iff, not_exists]
        rintro other ⟨same, led, -⟩
        obtain ⟨rfl, -⟩ := List.append_inj' same rfl
        cases walked.symm.trans led
      | ok place =>
        simp only [targetIn_eq_entry]
        constructor
        · rintro ⟨rfl, rfl, entry⟩
          exact ⟨front, rfl, walked, entry⟩
        · rintro ⟨other, same, led, entry⟩
          obtain ⟨rfl, last⟩ := List.append_inj' same rfl
          cases last
          cases walked.symm.trans led
          exact ⟨rfl, rfl, entry⟩

theorem find_of_target (aimed : h.target path = .ok (.entry directory name))
    (there : (h.node? (directory ++ [name])).isSome) :
    h.find path = .ok (.at (directory ++ [name])) := by
  obtain ⟨accepted, front, split, walked, isDirectory, notHere, notAbove, notLong⟩ :=
    target_eq_entry.mp aimed
  have entered : h.enter (.at directory) name = .ok (.at (directory ++ [name])) :=
    enter_eq_ok.mpr ⟨isDirectory, .inr (.inr ⟨notHere, notAbove, notLong, there, rfl⟩)⟩
  simp only [find, accepted]
  rw [split, walk_append_of_ok walked, walk_singleton, entered]

theorem fileAt_of_target {content : Bytes} (aimed : h.target path = .ok (.entry directory name))
    (file : h.node? (directory ++ [name]) = some (.file content)) :
    h.FileAt path (directory ++ [name]) :=
  ⟨find_of_target aimed (by rw [file]; rfl), content, file⟩

/-- A path that leads somewhere by a name at its end aims at the entry of that name. -/
theorem target_of_find {front : List Bytes} (found : h.find path = .ok (.at location))
    (split : names path = front ++ [name]) (notHere : name ≠ HostPath.here)
    (notAbove : name ≠ HostPath.above) :
    ∃ directory, h.target path = .ok (.entry directory name) ∧ location = directory ++ [name] := by
  have walked := (find_eq_ok.mp found).2
  have accepted : accept path = .ok () := by
    rw [find] at found
    cases answer : accept path with
    | error refusal => simp [answer] at found
    | ok _ => rfl
  rw [split] at walked
  cases led : front.foldlM h.enter (h.startOf path) with
  | error refusal =>
    rw [walk_append_of_error led] at walked
    cases walked
  | ok place =>
    rw [walk_append_of_ok led, walk_singleton] at walked
    cases place with
    | takenFrom parent =>
      simp only [enter, notHere, notAbove, ↓reduceIte] at walked
      cases walked
    | «at» directory =>
      obtain ⟨isDirectory, stays | up | ⟨-, -, notLong, -, same⟩⟩ := enter_eq_ok.mp walked
      · exact absurd stays.1 notHere
      · exact absurd up.1 notAbove
      · cases same
        exact ⟨directory, target_eq_entry.mpr ⟨accepted, front, split, led, isDirectory, notHere,
          notAbove, notLong⟩, rfl⟩

/-- A file that is made or emptied does not change where a path aims. -/
theorem target_withFile {touched : Location} (nonempty : touched ≠ [])
    (notDirectory : h.node? touched ≠ some .directory)
    (aimed : h.target path = .ok (.entry directory name)) :
    (h.withFile touched).target path = .ok (.entry directory name) := by
  obtain ⟨accepted, front, split, walked, isDirectory, entry⟩ := target_eq_entry.mp aimed
  have kept := directories_withFile nonempty notDirectory
  exact target_eq_entry.mpr ⟨accepted, front, split, walk_congr kept rfl walked isDirectory,
    kept directory isDirectory, entry⟩

theorem fileAt_withFile (aimed : h.target path = .ok (.entry directory name))
    (notDirectory : h.node? (directory ++ [name]) ≠ some .directory) :
    (h.withFile (directory ++ [name])).FileAt path (directory ++ [name]) := by
  have nonempty := List.concat_ne_nil name directory
  exact fileAt_of_target (target_withFile nonempty notDirectory aimed)
    (by rw [node?_withFile nonempty, if_pos rfl])

theorem target_of_vacantAt (vacant : h.VacantAt path location) :
    ∃ directory name, h.target path = .ok (.entry directory name) ∧
      location = directory ++ [name] := by
  obtain ⟨-, accepted, front, name, directory, split, isEntry, walked, isDirectory, rfl⟩ := vacant
  have notLong := isEntry.isTooLong_eq_false (h := h) directory
  exact ⟨directory, name, target_eq_entry.mpr ⟨accepted, front, split, walked, isDirectory,
    isEntry.not_here, isEntry.not_above, notLong⟩, rfl⟩

theorem without_withFile (h : Host) (location : Location) :
    (h.withFile location).without location = h.without location := by
  have nodes : (h.nodes.insert location (.file [])).erase location = h.nodes.erase location := by
    refine SortedMap.ext_get? fun other => ?_
    rw [SortedMap.get?_erase, SortedMap.get?_erase, SortedMap.get?_insert]
    split
    · rfl
    · rfl
  rw [without, withFile, nodes, without]

theorem without_of_absent (absent : h.node? location = none) : h.without location = h := by
  have missing : h.nodes.get? location = none := by
    unfold node? at absent
    split at absent
    · cases absent
    · exact absent
  have nodes : h.nodes.erase location = h.nodes := by
    refine SortedMap.ext_get? fun other => ?_
    rw [SortedMap.get?_erase]
    split
    · rename_i same
      rw [same, missing]
    · rfl
  rw [without, nodes]

/-! ### Trees without fixed parts -/

section

variable (unfixed : h.fixed = [])
include unfixed

theorem refusalIn?_of_fixed (other : Location) : h.refusalIn? other = none := by
  rw [refusalIn?, unfixed]
  rfl

theorem isTooLong_eq_false_iff (other : Location) (name : Bytes) :
    h.isTooLong other name = false ↔ name.length ≤ maxName := by
  rw [isTooLong, refusalIn?_of_fixed unfixed]
  simp

theorem fileAt_or_vacantAt (aimed : h.target path = .ok (.entry directory name))
    (notDirectory : h.node? (directory ++ [name]) ≠ some .directory) :
    h.FileAt path (directory ++ [name]) ∨ h.VacantAt path (directory ++ [name]) := by
  cases found : h.node? (directory ++ [name]) with
  | none =>
    obtain ⟨accepted, front, split, walked, isDirectory, notHere, notAbove, notLong⟩ :=
      target_eq_entry.mp aimed
    have short := (isTooLong_eq_false_iff unfixed directory name).mp notLong
    exact .inr ⟨found, accepted, front, name, directory, split, ⟨notHere, notAbove, short⟩, walked,
      isDirectory, rfl⟩
  | some node =>
    cases node with
    | directory => exact absurd found notDirectory
    | file content =>
      exact .inl (fileAt_of_target aimed found)

theorem openEmpty_of_vacantAt (vacant : h.VacantAt path location)
    (unslashed : HostPath.endsInSlash path = false) :
    h.openEmpty path = (.ok (), h.withFile location) := by
  obtain ⟨directory, name, aimed, rfl⟩ := target_of_vacantAt vacant
  have notDirectory : h.node? (directory ++ [name]) ≠ some .directory := by
    rw [vacant.absent]
    exact (Option.some_ne_none _).symm
  exact openEmpty_of_entry aimed unslashed notDirectory (refusalIn?_of_fixed unfixed directory)

theorem unlink_of_fileAt (file : h.FileAt path location) (endsInName : HostPath.EndsInName path) :
    h.unlink path = (.ok (), h.without location) := by
  obtain ⟨found, content, isFile⟩ := file
  obtain ⟨unslashed, front, name, split, notHere, notAbove⟩ := endsInName
  obtain ⟨directory, aimed, rfl⟩ := target_of_find found split notHere notAbove
  exact unlink_of_file aimed unslashed isFile (refusalIn?_of_fixed unfixed directory)

end

end FileRemoval.Host
