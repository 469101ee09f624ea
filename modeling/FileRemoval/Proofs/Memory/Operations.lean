import FileRemoval.Memory.Request
import FileRemoval.Proofs.Path.Names
import FileRemoval.Proofs.Step.Invariant

/-! # What the operations of a store in memory do

Each operation either fails and leaves the store as it was, or makes one of a few changes, under
conditions that are said here once. -/

namespace FileRemoval.Memory

open Path

variable {α : Type}

def IsDirectory (m : Memory) (key : Text) : Prop :=
  ∃ node, m.nodes.get? key = some node ∧ node.kind = .directory

def IsFile (m : Memory) (key : Text) : Prop :=
  ∃ node, m.nodes.get? key = some node ∧ node.kind = .regular

theorem node_cases (m : Memory) (key : Text) :
    m.nodes.get? key = none ∨ m.IsFile key ∨ m.IsDirectory key := by
  cases found : m.nodes.get? key with
  | none => exact .inl rfl
  | some node =>
    cases kind : node.kind with
    | regular => exact .inr (.inl ⟨node, found, kind⟩)
    | directory => exact .inr (.inr ⟨node, found, kind⟩)

theorem not_isFile_of_isDirectory {m : Memory} {key : Text} (h : m.IsDirectory key) :
    ¬ m.IsFile key := by
  rintro ⟨node, found, regular⟩
  obtain ⟨other, foundOther, directory⟩ := h
  rw [found] at foundOther
  cases foundOther
  rw [regular] at directory
  cases directory

/-! ### Resolution -/

theorem run_resolving_error {path : Text} {cause : FileError}
    (act : Text → Step Memory (Except FileError α)) (m : Memory)
    (h : resolve top path = .error cause) : (resolving path act).run m = m.failure cause := by
  simp only [Step.run, resolving, resolveNoted, h]
  rfl

theorem run_resolving_ok {path key : Text} (act : Text → Step Memory (Except FileError α))
    (m : Memory) (h : resolve top path = .ok key) :
    (resolving path act).run m = ⟨((act key).run m).answer, ((act key).run m).state,
      .resolved path key :: ((act key).run m).events⟩ := by
  simp only [Step.run, resolving, resolveNoted, h]
  rfl

theorem run_holds_error {path : Text} {cause : FileError} (m : Memory)
    (h : resolve top path = .error cause) : (holds path).run m = ⟨false, m, []⟩ := by
  simp only [Step.run, holds, resolveNoted, h]

theorem run_holds_ok {path key : Text} (m : Memory) (h : resolve top path = .ok key) :
    (holds path).run m = ⟨m.nodes.contains key, m, [.resolved path key]⟩ := by
  simp only [Step.run, holds, resolveNoted, h]

/-! ### The directory of a path -/

theorem checkParent_top (m : Memory) : m.checkParent top = .error .isADirectory := rfl

section

variable {m : Memory} {names : List Text} {name : Text}

theorem checkParent_of_absent (areNames : AreNames (names ++ [name]))
    (h : m.nodes.get? (ofNames names) = none) :
    m.checkParent (ofNames (names ++ [name])) = .error .notFound := by
  simp only [checkParent, parentFile_ofNames areNames, h]

theorem checkParent_of_isFile (areNames : AreNames (names ++ [name]))
    (h : m.IsFile (ofNames names)) :
    m.checkParent (ofNames (names ++ [name])) = .error .notADirectory := by
  obtain ⟨node, found, regular⟩ := h
  simp only [checkParent, parentFile_ofNames areNames, found, regular]

theorem checkParent_of_isDirectory (areNames : AreNames (names ++ [name]))
    (h : m.IsDirectory (ofNames names)) : m.checkParent (ofNames (names ++ [name])) = .ok () := by
  obtain ⟨node, found, directory⟩ := h
  simp only [checkParent, parentFile_ofNames areNames, found, directory]

end

theorem checkParent_eq_ok {m : Memory} {key : Text} :
    m.checkParent key = .ok () ↔
      ∃ parent name, parentFile key = some (parent, name) ∧ m.IsDirectory parent := by
  unfold checkParent IsDirectory
  cases parentFile key with
  | none => simp
  | some parts =>
    obtain ⟨parent, name⟩ := parts
    cases found : m.nodes.get? parent with
    | none => simp [found]
    | some node => cases kind : node.kind <;> simp [found, kind]

/-! ### One operation at a canonical path -/

section

variable {m : Memory} {key : Text}

theorem createAt_of_error {cause : FileError} (parent : m.checkParent key = .error cause) :
    (createAt key).run m = m.failure cause := by
  simp only [Step.run, createAt, parent]

theorem createAt_of_full (parent : m.checkParent key = .ok ())
    (full : maxOpenFiles ≤ m.handles.occupied) :
    (createAt key).run m = m.failure .tooManyOpenFiles := by
  simp only [Step.run, createAt, parent, full, ↓reduceIte]

section

variable (parent : m.checkParent key = .ok ()) (room : m.handles.occupied < maxOpenFiles)
include parent room

theorem createAt_of_absent (absent : m.nodes.get? key = none) :
    (createAt key).run m = (m.addNode key .regular).openAt key := by
  have notFull : ¬ maxOpenFiles ≤ m.handles.occupied := by omega
  simp only [Step.run, createAt, parent, notFull, absent, ↓reduceIte]

theorem createAt_of_isFile {node : Node} (found : m.nodes.get? key = some node)
    (regular : node.kind = .regular) :
    (createAt key).run m = (m.setData key node []).openAt key := by
  have notFull : ¬ maxOpenFiles ≤ m.handles.occupied := by omega
  simp only [Step.run, createAt, parent, notFull, found, regular, ↓reduceIte]

theorem createAt_of_isDirectory (directory : m.IsDirectory key) :
    (createAt key).run m = m.failure .isADirectory := by
  have notFull : ¬ maxOpenFiles ≤ m.handles.occupied := by omega
  obtain ⟨node, found, kind⟩ := directory
  simp only [Step.run, createAt, parent, notFull, found, kind, ↓reduceIte]

end

theorem removeAt_of_error {cause : FileError} (parent : m.checkParent key = .error cause) :
    (removeAt key).run m = m.failure cause := by
  simp only [Step.run, removeAt, parent]

section

variable (parent : m.checkParent key = .ok ())
include parent

theorem removeAt_of_absent (absent : m.nodes.get? key = none) :
    (removeAt key).run m = m.failure .notFound := by
  simp only [Step.run, removeAt, parent, absent]

theorem removeAt_of_isFile (file : m.IsFile key) : (removeAt key).run m = m.dropAt key := by
  obtain ⟨node, found, regular⟩ := file
  simp only [Step.run, removeAt, parent, found, regular]

theorem removeAt_of_isDirectory (directory : m.IsDirectory key) :
    (removeAt key).run m = m.failure .isADirectory := by
  obtain ⟨node, found, kind⟩ := directory
  simp only [Step.run, removeAt, parent, found, kind]

theorem makeDirectoryAt_of_absent (absent : m.nodes.get? key = none) :
    (makeDirectoryAt key).run m = success (m.addNode key .directory) () [] := by
  simp [Step.run, makeDirectoryAt, SortedMap.contains, absent, parent]

end

end

theorem createAt_cases (m : Memory) (key : Text) :
    (∃ cause, (createAt key).run m = m.failure cause) ∨
    (m.checkParent key = .ok () ∧ m.handles.occupied < maxOpenFiles ∧ m.nodes.get? key = none ∧
      (createAt key).run m = (m.addNode key .regular).openAt key) ∨
    (∃ node, m.checkParent key = .ok () ∧ m.handles.occupied < maxOpenFiles ∧
      m.nodes.get? key = some node ∧ node.kind = .regular ∧
      (createAt key).run m = (m.setData key node []).openAt key) := by
  cases parent : m.checkParent key with
  | error cause => exact .inl ⟨cause, createAt_of_error parent⟩
  | ok _ =>
    by_cases full : maxOpenFiles ≤ m.handles.occupied
    · exact .inl ⟨.tooManyOpenFiles, createAt_of_full parent full⟩
    · have room : m.handles.occupied < maxOpenFiles := Nat.lt_of_not_le full
      rcases m.node_cases key with absent | ⟨node, found, regular⟩ | directory
      · exact .inr (.inl ⟨rfl, room, absent, createAt_of_absent parent room absent⟩)
      · exact .inr (.inr ⟨node, rfl, room, found, regular,
          createAt_of_isFile parent room found regular⟩)
      · exact .inl ⟨.isADirectory, createAt_of_isDirectory parent room directory⟩

theorem removeAt_cases (m : Memory) (key : Text) :
    (∃ cause, (removeAt key).run m = m.failure cause) ∨
    (m.checkParent key = .ok () ∧ m.IsFile key ∧ (removeAt key).run m = m.dropAt key) := by
  cases parent : m.checkParent key with
  | error cause => exact .inl ⟨cause, removeAt_of_error parent⟩
  | ok _ =>
    rcases m.node_cases key with absent | file | directory
    · exact .inl ⟨.notFound, removeAt_of_absent parent absent⟩
    · exact .inr ⟨rfl, file, removeAt_of_isFile parent file⟩
    · exact .inl ⟨.isADirectory, removeAt_of_isDirectory parent directory⟩

theorem makeDirectoryAt_cases (m : Memory) (key : Text) :
    (∃ cause, (makeDirectoryAt key).run m = m.failure cause) ∨
    (m.checkParent key = .ok () ∧ m.nodes.get? key = none ∧
      (makeDirectoryAt key).run m = success (m.addNode key .directory) () []) := by
  by_cases present : m.nodes.contains key
  · exact .inl ⟨.alreadyExists, by simp only [Step.run, makeDirectoryAt, present, ↓reduceIte]⟩
  · have absent : m.nodes.get? key = none := by
      rw [SortedMap.contains, Option.isSome_iff_ne_none] at present
      exact Classical.not_not.mp present
    cases parent : m.checkParent key with
    | error cause =>
      exact .inl ⟨cause, by simp [Step.run, makeDirectoryAt, present, parent]⟩
    | ok _ => exact .inr ⟨rfl, absent, makeDirectoryAt_of_absent parent absent⟩

theorem state_listAt (m : Memory) (key : Text) :
    ((listAt key).run m).state = m ∧ ((listAt key).run m).events = [] := by
  simp only [Step.run, listAt]
  cases m.nodes.get? key with
  | none => exact ⟨rfl, rfl⟩
  | some node =>
    dsimp only
    cases node.kind <;> exact ⟨rfl, rfl⟩

theorem state_list (path : Text) (m : Memory) : ((list path).run m).state = m := by
  cases resolved : resolve top path with
  | error cause =>
    rw [list, run_resolving_error listAt m resolved]
    rfl
  | ok key =>
    rw [list, run_resolving_ok listAt m resolved]
    exact (state_listAt m key).1

theorem state_holds (path : Text) (m : Memory) : ((holds path).run m).state = m := by
  cases resolved : resolve top path with
  | error cause => rw [run_holds_error m resolved]
  | ok key => rw [run_holds_ok m resolved]

/-! ### Operations on handles -/

theorem close_cases (m : Memory) (handle : Handle) :
    (m.handles.get? handle.index = none ∧ (close handle).run m = m.failure .badHandle) ∨
    (∃ key, m.handles.get? handle.index = some key ∧ (close handle).run m =
      success { m with handles := m.handles.erase handle.index } () [.closed handle key]) := by
  simp only [Step.run, close]
  cases found : m.handles.get? handle.index with
  | none => exact .inl ⟨rfl, rfl⟩
  | some key => exact .inr ⟨key, rfl, rfl⟩

theorem write_cases (m : Memory) (handle : Handle) (data : Bytes) :
    (write handle data).run m = m.failure .badHandle ∨
    (∃ key node, m.handles.get? handle.index = some key ∧ m.nodes.get? key = some node ∧
      (write handle data).run m =
        success (m.setData key node (node.data ++ data)) data.length []) := by
  simp only [Step.run, write]
  cases handleFound : m.handles.get? handle.index with
  | none => exact .inl rfl
  | some key =>
    cases found : m.nodes.get? key with
    | none => exact .inl (by simp only [found])
    | some node => exact .inr ⟨key, node, rfl, found, by simp only [found]⟩

/-! ### Operations that fail -/

theorem atomic_createAt (key : Text) : Step.Atomic (createAt key) := by
  intro m cause failed
  rcases createAt_cases m key with ⟨other, same⟩ | ⟨-, -, -, made⟩ | ⟨node, -, -, -, -, emptied⟩
  · rw [same]
    rfl
  · rw [made] at failed
    cases failed
  · rw [emptied] at failed
    cases failed

theorem atomic_removeAt (key : Text) : Step.Atomic (removeAt key) := by
  intro m cause failed
  rcases removeAt_cases m key with ⟨other, same⟩ | ⟨-, -, dropped⟩
  · rw [same]
    rfl
  · rw [dropped] at failed
    cases failed

theorem atomic_makeDirectoryAt (key : Text) : Step.Atomic (makeDirectoryAt key) := by
  intro m cause failed
  rcases makeDirectoryAt_cases m key with ⟨other, same⟩ | ⟨-, -, made⟩
  · rw [same]
    rfl
  · rw [made] at failed
    cases failed

theorem atomic_listAt (key : Text) : Step.Atomic (listAt key) :=
  fun m _ _ => (state_listAt m key).1

theorem atomic_resolving {act : Text → Step Memory (Except FileError α)}
    (h : ∀ key, Step.Atomic (act key)) (path : Text) : Step.Atomic (resolving path act) := by
  intro m cause failed
  cases resolved : resolve top path with
  | error other =>
    rw [run_resolving_error act m resolved]
    rfl
  | ok key =>
    rw [run_resolving_ok act m resolved] at failed ⊢
    exact h key m cause failed

theorem atomic_close (handle : Handle) : Step.Atomic (close handle) := by
  intro m cause failed
  rcases close_cases m handle with ⟨-, same⟩ | ⟨key, -, closed⟩
  · rw [same]
    rfl
  · rw [closed] at failed
    cases failed

theorem atomic_write (handle : Handle) (data : Bytes) : Step.Atomic (write handle data) := by
  intro m cause failed
  rcases write_cases m handle data with same | ⟨key, node, -, -, written⟩
  · rw [same]
    rfl
  · rw [written] at failed
    cases failed

theorem atomic_fileSystem : fileSystem.Atomic where
  create := atomic_resolving atomic_createAt
  close := atomic_close
  remove := atomic_resolving atomic_removeAt

end FileRemoval.Memory
