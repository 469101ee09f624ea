import FileRemoval.Proofs.Memory.Histories
import FileRemoval.Proofs.Memory.Usage
import FileRemoval.Proofs.Remover.Runs

/-! # What one run of the remover does to a store in memory

A creation that succeeds is followed by a removal that succeeds, so a run that fails has left
nothing behind, and one that succeeds has taken one file away and done nothing else. -/

namespace FileRemoval.Memory

open Path

variable {m m' : Memory} {key path : Text}

/-! ### The file that is created first -/

/-- A store that differs from `m` in nothing but the file at `key`, which is new or was there. -/
structure Touched (m m' : Memory) (key : Text) : Prop where
  file : m'.IsFile key
  nodes : ∀ other, other ≠ key → m'.nodes.get? other = m.nodes.get? other
  handles : ∀ index, m'.handles.get? index = m.handles.get? index
  nextInode : m'.nextInode = m.nextInode + if m.nodes.contains key then 0 else 1

theorem Touched.of_isFile (file : m.IsFile key) : Touched m m key where
  file := file
  nodes _ _ := rfl
  handles _ := rfl
  nextInode := by
    obtain ⟨node, found, -⟩ := file
    simp [SortedMap.contains, found]

theorem Touched.nodes_erase (h : Touched m m' key) :
    m'.nodes.erase key = m.nodes.erase key := by
  refine SortedMap.ext_get? fun other => ?_
  rw [SortedMap.get?_erase, SortedMap.get?_erase]
  split
  · rfl
  · exact h.nodes other ‹_›

theorem Touched.checkParent (h : Touched m m' key) (parent : m.checkParent key = .ok ())
    (notDirectory : ¬ m.IsDirectory key) : m'.checkParent key = .ok () := by
  obtain ⟨above, name, split, node, found, directory⟩ := checkParent_eq_ok.mp parent
  -- the file lies in that directory, and is none itself
  have apart : above ≠ key := by
    rintro rfl
    exact notDirectory ⟨node, found, directory⟩
  exact checkParent_eq_ok.mpr ⟨above, name, split, node, by rw [h.nodes above apart, found], directory⟩

theorem index_of_openAt {handle : Handle} (opened : (m.openAt key).answer = .ok handle) :
    (m.handles.insert key).2 = handle.index := by
  injection opened with same
  exact congrArg Handle.index same

theorem live_of_openAt {handle : Handle} (opened : (m.openAt key).answer = .ok handle) :
    (m.openAt key).state.handles.get? handle.index = some key := by
  show (m.handles.insert key).1.get? handle.index = some key
  rw [SlotTable.get?_insert, if_pos (index_of_openAt opened).symm]

theorem close_openAt (m : Memory) (key : Text) {handle : Handle}
    (opened : (m.openAt key).answer = .ok handle) :
    ∃ handles, ((close handle).run (m.openAt key).state).state = { m with handles } ∧
      ∀ index, handles.get? index = m.handles.get? index := by
  rcases close_cases (m.openAt key).state handle with ⟨free, -⟩ | ⟨target, -, closed⟩
  · rw [live_of_openAt opened] at free
    cases free
  · refine ⟨(m.handles.insert key).1.erase handle.index, by rw [closed]; rfl, fun other => ?_⟩
    rw [← index_of_openAt opened, SlotTable.get?_erase_insert]

theorem touched_addNode (absent : m.nodes.get? key = none) {handles : SlotTable Text}
    (same : ∀ index, handles.get? index = m.handles.get? index) :
    Touched m { m.addNode key .regular with handles } key where
  file := ⟨_, SortedMap.get?_insert_self m.nodes key _, rfl⟩
  nodes _ apart := SortedMap.get?_insert_of_ne m.nodes _ apart
  handles := same
  nextInode := by
    simp [addNode, SortedMap.contains, absent]

theorem touched_setData {node : Node} (found : m.nodes.get? key = some node)
    (regular : node.kind = .regular) {handles : SlotTable Text}
    (same : ∀ index, handles.get? index = m.handles.get? index) :
    Touched m { m.setData key node [] with handles } key where
  file := ⟨_, SortedMap.get?_insert_self m.nodes key _, regular⟩
  nodes _ apart := SortedMap.get?_insert_of_ne m.nodes _ apart
  handles := same
  nextInode := by
    simp [setData, SortedMap.contains, found]

theorem touched_of_createAt {handle : Handle} (opened : ((createAt key).run m).answer = .ok handle) :
    m.checkParent key = .ok () ∧ ¬ m.IsDirectory key ∧ m.handles.occupied < maxOpenFiles ∧
      Touched m ((close handle).run ((createAt key).run m).state).state key := by
  rcases createAt_cases m key with ⟨cause, failed⟩ | ⟨parent, room, absent, made⟩ |
    ⟨node, parent, room, found, regular, emptied⟩
  · rw [failed] at opened
    cases opened
  · rw [made] at opened ⊢
    obtain ⟨handles, closed, same⟩ := close_openAt _ key opened
    have notDirectory : ¬ m.IsDirectory key := by
      rintro ⟨node, found, -⟩
      rw [absent] at found
      cases found
    rw [closed]
    exact ⟨parent, notDirectory, room, touched_addNode absent same⟩
  · rw [emptied] at opened ⊢
    obtain ⟨handles, closed, same⟩ := close_openAt _ key opened
    have notDirectory : ¬ m.IsDirectory key := fun isDirectory =>
      not_isFile_of_isDirectory isDirectory ⟨node, found, regular⟩
    rw [closed]
    exact ⟨parent, notDirectory, room, touched_setData found regular same⟩

/-- The store from which the file is removed: as it was, or with a touched file. -/
theorem prepared_cases (resolved : resolve top path = .ok key) (createFirst : Bool) :
    let m' := Remover.prepared ⟨fileSystem, createFirst⟩ path m
    (m' = m ∧ ¬ (createFirst = true ∧ m.checkParent key = .ok () ∧ m.nodes.get? key = none ∧
      m.handles.occupied < maxOpenFiles)) ∨
    (createFirst = true ∧ m.checkParent key = .ok () ∧ ¬ m.IsDirectory key ∧
      m.handles.occupied < maxOpenFiles ∧ Touched m m' key) := by
  intro m'
  cases createFirst with
  | false =>
    refine .inl ⟨rfl, ?_⟩
    rintro ⟨isFirst, -⟩
    cases isFirst
  | true =>
    have created := run_resolving_ok Memory.createAt m resolved
    cases answer : ((Memory.createAt key).run m).answer with
    | error cause =>
      have failed : ((create path).run m).answer = .error cause := by rw [create, created, answer]
      refine .inl ⟨?_, ?_⟩
      · have same := Remover.run_prepare_error ⟨fileSystem, true⟩ path m failed
        have state : ((create path).run m).state = m := by
          rw [create, created, atomic_createAt key m cause answer]
        exact same.trans state
      · rintro ⟨-, parent, absent, room⟩
        rw [createAt_of_absent parent room absent] at answer
        cases answer
    | ok handle =>
      have opened : ((create path).run m).answer = .ok handle := by rw [create, created, answer]
      obtain ⟨parent, notDirectory, room, touched⟩ := touched_of_createAt answer
      have same : m' = ((close handle).run ((Memory.createAt key).run m).state).state := by
        have closed := Remover.run_prepare_ok ⟨fileSystem, true⟩ path m opened
        have state : ((create path).run m).state = ((Memory.createAt key).run m).state := by
          rw [create, created]
        exact closed.trans (congrArg (fun s => ((close handle).run s).state) state)
      rw [same]
      exact .inr ⟨rfl, parent, notDirectory, room, touched⟩

theorem prepared_of_error {cause : FileError} (resolved : resolve top path = .error cause)
    (createFirst : Bool) : Remover.prepared ⟨fileSystem, createFirst⟩ path m = m := by
  have created := run_resolving_error Memory.createAt m resolved
  have failed : ((create path).run m).answer = .error cause := by
    rw [create, created]
    rfl
  cases createFirst with
  | false => rfl
  | true =>
    have same := Remover.run_prepare_error ⟨fileSystem, true⟩ path m failed
    have state : ((create path).run m).state = m := by
      rw [create, created]
      rfl
    exact same.trans state

/-! ### The removal -/

theorem remove_eq (path : Text) : fileSystem.remove path = remove path := rfl

/-- What a run can remove: a file in a directory, or, if it creates the file first, one that is not
there yet while there is a handle left. -/
def Removable (m : Memory) (createFirst : Bool) (key : Text) : Prop :=
  key ≠ top ∧ (∃ parent name, parentFile key = some (parent, name) ∧ m.IsDirectory parent) ∧
    (m.IsFile key ∨
      (createFirst = true ∧ m.nodes.get? key = none ∧ m.openHandles < maxOpenFiles))

theorem checkParent_of_removable {createFirst : Bool} (h : m.Removable createFirst key) :
    m.checkParent key = .ok () :=
  checkParent_eq_ok.mpr h.2.1

theorem removable_of_checkParent {createFirst : Bool} (parent : m.checkParent key = .ok ())
    (h : m.IsFile key ∨
      (createFirst = true ∧ m.nodes.get? key = none ∧ m.openHandles < maxOpenFiles)) :
    m.Removable createFirst key := by
  refine ⟨?_, checkParent_eq_ok.mp parent, h⟩
  rintro rfl
  cases parent

/-- Either the removal takes the file away, or nothing happened at all. -/
theorem removal_cases (m : Memory) (createFirst : Bool) (path : Text) :
    let m' := Remover.prepared ⟨fileSystem, createFirst⟩ path m
    (∃ key, resolve top path = .ok key ∧ m.Removable createFirst key ∧ Touched m m' key ∧
      ((remove path).run m').answer = .ok () ∧
      ((remove path).run m').state = (m'.dropAt key).state) ∨
    (∃ cause, m' = m ∧ ((remove path).run m).answer = .error cause ∧
      ((remove path).run m).state = m ∧
      ¬ ∃ key, resolve top path = .ok key ∧ m.Removable createFirst key) := by
  intro m'
  cases resolved : resolve top path with
  | error cause =>
    have failed := run_resolving_error Memory.removeAt m resolved
    refine .inr ⟨cause, prepared_of_error resolved createFirst, ?_, ?_, fun ⟨key, bad, _⟩ => ?_⟩
    · rw [remove, failed]
      rfl
    · rw [remove, failed]
      rfl
    · cases bad
  | ok key =>
    have removed (s : Memory) := run_resolving_ok Memory.removeAt s resolved
    have dropped : ∀ s : Memory, s.checkParent key = .ok () → s.IsFile key →
        ((remove path).run s).answer = .ok () ∧
          ((remove path).run s).state = (s.dropAt key).state := by
      intro s parent file
      rw [remove, removed, removeAt_of_isFile parent file]
      exact ⟨rfl, rfl⟩
    -- a file that was just created is there to be removed, so only the first case can fail
    rcases prepared_cases (m := m) resolved createFirst with ⟨same, notNew⟩ |
      ⟨isFirst, parent, notDirectory, room, touched⟩
    · rw [show m' = m from same]
      rcases removeAt_cases m key with ⟨cause, failed⟩ | ⟨parent, file, -⟩
      · refine .inr ⟨cause, rfl, ?_, ?_, fun ⟨other, same, removable⟩ => ?_⟩
        · rw [remove, removed, failed]
          rfl
        · rw [remove, removed, failed]
          rfl
        · cases same
          have parent := checkParent_of_removable removable
          rcases removable.2.2 with file | ⟨isFirst, absent, room⟩
          · rw [removeAt_of_isFile parent file] at failed
            cases congrArg Outcome.answer failed
          · exact notNew ⟨isFirst, parent, absent, room⟩
      · obtain ⟨answer, state⟩ := dropped m parent file
        exact .inl ⟨key, rfl, removable_of_checkParent parent (.inl file), .of_isFile file, answer,
          state⟩
    · obtain ⟨answer, state⟩ := dropped m' (touched.checkParent parent notDirectory) touched.file
      refine .inl ⟨key, rfl, removable_of_checkParent parent ?_, touched, answer, state⟩
      rcases m.node_cases key with absent | file | directory
      · exact .inr ⟨isFirst, absent, room⟩
      · exact .inl file
      · exact absurd directory notDirectory

/-- The outcome of a run over one path, for every store. It succeeds exactly if there is something
that it can remove. Then that file is gone, with the handles on it and with its bytes, and nothing
else has changed; a number was used up if the file was new. Else nothing has changed, and the
report gives the cause for which the file could not be removed. -/
theorem run_outcome (m : Memory) (createFirst : Bool) (path : Text) (out : Sink) :
    let last := (Remover.run ⟨fileSystem, createFirst⟩ [path] out).run m
    (last.answer.1 = .success ↔
      ∃ key, resolve top path = .ok key ∧ m.Removable createFirst key) ∧
    (last.answer.1 = .success → ∀ key, resolve top path = .ok key →
      last.state.nodes = m.nodes.erase key ∧
      (∀ index, last.state.handles.get? index = (m.handles.get? index).filter (· ≠ key)) ∧
      last.state.usedBytes + m.sizeAt key = m.usedBytes ∧
      last.state.nextInode = m.nextInode + (if m.nodes.contains key then 0 else 1) ∧
      last.answer.2 = (out.write (Text.utf8 ("remove successful: ".toList ++ path ++ ['\n']))).1) ∧
    (last.answer.1 = .failure → last.state = m ∧
      ∃ cause, ((remove path).run m).answer = .error cause ∧
        last.answer.2 = (out.write (Text.utf8 ("Unable to remove ".toList ++ path ++
          ": ".toList ++ cause.message ++ ['\n']))).1) := by
  intro last
  obtain ⟨answer, state⟩ := Remover.run_one ⟨fileSystem, createFirst⟩ path out m
  rcases removal_cases m createFirst path with ⟨key, resolved, removable, touched, removed, left⟩ |
    ⟨cause, same, failed, kept, notRemovable⟩
  · rw [remove_eq, removed] at answer
    rw [remove_eq, left] at state
    have nodes : last.state.nodes = m.nodes.erase key := by
      rw [← touched.nodes_erase]
      exact congrArg Memory.nodes state
    have exit : last.answer.1 = .success := congrArg Prod.fst answer
    refine ⟨⟨fun _ => ⟨key, resolved, removable⟩, fun _ => exit⟩, fun _ other sameKey => ?_,
      fun failure => ?_⟩
    · rw [resolved] at sameKey
      cases sameKey
      refine ⟨nodes, fun index => ?_, usedBytes_of_erase nodes, ?_, congrArg Prod.snd answer⟩
      · rw [← touched.handles, ← SlotTable.get?_retain]
        exact congrArg (fun s => s.handles.get? index) state
      · have numbers := congrArg Memory.nextInode state
        rw [← touched.nextInode]
        exact numbers
    · rw [exit] at failure
      cases failure
  · rw [remove_eq, same, failed] at answer
    rw [remove_eq, same, kept] at state
    have exit : last.answer.1 = .failure := congrArg Prod.fst answer
    refine ⟨⟨fun success => ?_, fun removable => absurd removable notRemovable⟩,
      fun success => ?_, fun _ => ⟨state, cause, failed, congrArg Prod.snd answer⟩⟩
    · rw [exit] at success
      cases success
    · rw [exit] at success
      cases success

end FileRemoval.Memory
