import FileRemoval.Proofs.Memory.Disk
import FileRemoval.Proofs.Memory.Histories
import FileRemoval.Proofs.Memory.Listing
import FileRemoval.Proofs.Step.Simulation

/-! # A map of paths as a tree

A store in memory, with its nodes in one map and its handles in one slot table, cannot be told from
a store that keeps a tree of directories. For every store that can be reached there is exactly one
such disk, and whatever is asked of both has the same answer. -/

namespace FileRemoval

open Path

/-- The tree shows the nodes of the map, each at the names of its path, and the handles are bound to
the names of their paths. -/
structure Represents (d : Disk) (m : Memory) : Prop where
  ordered : d.tree.Ordered
  nodes : ∀ names,
    d.tree.look names = if AreNames names then m.nodes.get? (ofNames names) else none
  handles : ∀ index, (m.handles.get? index).map namesOf = d.handles.get? index
  nextInode : d.nextInode = m.nextInode

namespace Represents

variable {d d' : Disk} {m : Memory} {names : List Text} {name : Text}

theorem initial : Represents Disk.initial Memory.initial where
  ordered := .directory topInode .nil fun e member => absurd member List.not_mem_nil
  nodes names := by
    cases names with
    | nil =>
      rw [if_pos areNames_nil]
      exact (SortedMap.get?_insert_self ∅ top _).symm
    | cons first rest =>
      have nothing : Disk.initial.tree.look (first :: rest) = none :=
        (Tree.isLeaf_directory topInode).look_cons first rest
      rw [nothing]
      split
      · rename_i areNames
        have below : ofNames (first :: rest) ≠ top :=
          mt (ofNames_eq_top areNames).mp (List.cons_ne_nil first rest)
        rw [Memory.initial, SortedMap.get?_insert_of_ne _ _ below]
        rfl
      · rfl
  handles _ := rfl
  nextInode := rfl

theorem unique (h : Represents d m) (h' : Represents d' m) : d' = d := by
  have trees : d'.tree = d.tree :=
    h'.ordered.eq_of_look h.ordered fun names => by rw [h'.nodes, h.nodes]
  have handles : d'.handles = d.handles :=
    SortedMap.ext_get? fun index => by rw [← h'.handles, ← h.handles]
  have numbers : d'.nextInode = d.nextInode := by rw [h'.nextInode, h.nextInode]
  cases d
  cases d'
  cases trees
  cases handles
  cases numbers
  rfl

theorem occupied (h : Represents d m) : m.handles.occupied = d.handles.size :=
  SlotTable.occupied_eq_size h.handles

/-! ### Looking a path up -/

theorem descend_eq (h : Represents d m) (areNames : AreNames names) :
    (d.tree.descend names).map Tree.node = m.nodes.get? (ofNames names) := by
  have nodes := h.nodes names
  rwa [if_pos areNames] at nodes

theorem descend_of_absent (h : Represents d m) (areNames : AreNames names)
    (absent : m.nodes.get? (ofNames names) = none) : d.tree.descend names = none := by
  have nodes := h.descend_eq areNames
  rw [absent] at nodes
  exact Option.map_eq_none_iff.mp nodes

theorem descend_of_regular (h : Represents d m) (areNames : AreNames names) {node : Node}
    (found : m.nodes.get? (ofNames names) = some node) (regular : node.kind = .regular) :
    d.tree.descend names = some (.file node.inode node.data) := by
  have nodes := h.descend_eq areNames
  rw [found] at nodes
  obtain ⟨t, there, rfl⟩ := Option.map_eq_some_iff.mp nodes
  cases t with
  | file inode data => exact there
  | directory inode entries => cases regular

theorem descend_of_directory (h : Represents d m) (areNames : AreNames names) {node : Node}
    (found : m.nodes.get? (ofNames names) = some node) (directory : node.kind = .directory) :
    ∃ entries, d.tree.descend names = some (.directory node.inode entries) := by
  have nodes := h.descend_eq areNames
  rw [found] at nodes
  obtain ⟨t, there, rfl⟩ := Option.map_eq_some_iff.mp nodes
  cases t with
  | file inode data => cases directory
  | directory inode entries => exact ⟨entries, there⟩

theorem isLeaf_of_regular (h : Represents d m) (areNames : AreNames names) {node : Node}
    (found : m.nodes.get? (ofNames names) = some node) (regular : node.kind = .regular)
    {old : Tree} (there : d.tree.descend names = some old) : old.IsLeaf := by
  rw [h.descend_of_regular areNames found regular] at there
  cases there
  exact Tree.isLeaf_file _ _

/-- The map and the tree agree on whether an entry can be at a path. -/
theorem holder_cases (h : Represents d m) (areNames : AreNames (names ++ [name])) :
    (∃ cause, m.checkParent (ofNames (names ++ [name])) = .error cause ∧
      d.holder (names ++ [name]) = .error cause) ∨
    (m.checkParent (ofNames (names ++ [name])) = .ok () ∧
      d.holder (names ++ [name]) = .ok (names, name) ∧
      ∃ inode entries, d.tree.descend names = some (.directory inode entries)) := by
  have above := (areNames_concat.mp areNames).1
  have split : (names ++ [name]).reverse = name :: names.reverse := by
    rw [List.reverse_append, List.reverse_singleton, List.singleton_append]
  rcases m.node_cases (ofNames names) with absent | file | directory
  · refine .inl ⟨.notFound, Memory.checkParent_of_absent areNames absent, ?_⟩
    simp only [Disk.holder, split, List.reverse_reverse, h.descend_of_absent above absent]
  · refine .inl ⟨.notADirectory, Memory.checkParent_of_isFile areNames file, ?_⟩
    obtain ⟨node, found, regular⟩ := file
    simp only [Disk.holder, split, List.reverse_reverse,
      h.descend_of_regular above found regular]
  · obtain ⟨node, found, isDirectory⟩ := directory
    obtain ⟨entries, there⟩ := h.descend_of_directory above found isDirectory
    refine .inr ⟨Memory.checkParent_of_isDirectory areNames ⟨node, found, isDirectory⟩, ?_,
      node.inode, entries, there⟩
    simp only [Disk.holder, split, List.reverse_reverse, there]

/-! ### Changes -/

theorem nodes_change {m' : Memory} (h : Represents d m) (areNames : AreNames names)
    {new : Option Node}
    (tree : ∀ other, d'.tree.look other = if other = names then new else d.tree.look other)
    (nodes : ∀ key, m'.nodes.get? key = if key = ofNames names then new else m.nodes.get? key)
    (other : List Text) :
    d'.tree.look other = if AreNames other then m'.nodes.get? (ofNames other) else none := by
  rw [tree, nodes, h.nodes]
  by_cases here : other = names
  · simp only [here, areNames, ↓reduceIte]
  · by_cases otherNames : AreNames other
    · have apart : ofNames other ≠ ofNames names := mt (ofNames_inj otherNames areNames).mp here
      simp only [here, otherNames, apart, ↓reduceIte]
    · simp only [here, otherNames, ↓reduceIte]

theorem setEntry (h : Represents d m) (areNames : AreNames (names ++ [name])) {inode : Nat}
    {entries : List (Text × Tree)} (there : d.tree.descend names = some (.directory inode entries))
    (leaf : ∀ old, d.tree.descend (names ++ [name]) = some old → old.IsLeaf) {new : Tree}
    (leaf' : new.IsLeaf) (ordered : new.Ordered) :
    Represents (d.setEntry names name (some new))
      { m with nodes := m.nodes.insert (ofNames (names ++ [name])) new.node } where
  ordered := h.ordered.alter fun t isOrdered => isOrdered.setEntry fun child same => by
    cases same
    exact ordered
  nodes := h.nodes_change areNames
    (Tree.look_setEntry there leaf fun child same => by
      cases same
      exact leaf')
    (fun key => SortedMap.get?_insert m.nodes _ key _)
  handles := h.handles
  nextInode := h.nextInode

theorem addEntry (h : Represents d m) (areNames : AreNames (names ++ [name])) {inode : Nat}
    {entries : List (Text × Tree)} (there : d.tree.descend names = some (.directory inode entries))
    (absent : d.tree.descend (names ++ [name]) = none) {new : Nat → Tree} {kind : Kind}
    (leaf : ∀ number, (new number).IsLeaf) (ordered : ∀ number, (new number).Ordered)
    (node : ∀ number, (new number).node = ⟨number, kind, []⟩) :
    Represents (d.addEntry names name new) (m.addNode (ofNames (names ++ [name])) kind) := by
  have noLeaf : ∀ old, d.tree.descend (names ++ [name]) = some old → old.IsLeaf := by
    intro old found
    rw [absent] at found
    cases found
  have changed := h.setEntry areNames there noLeaf (leaf d.nextInode) (ordered d.nextInode)
  rw [node, h.nextInode] at changed
  refine ⟨?_, ?_, changed.handles, ?_⟩
  · rw [Disk.addEntry, h.nextInode]
    exact changed.ordered
  · rw [Disk.addEntry, h.nextInode]
    exact changed.nodes
  · show d.nextInode + 1 = m.nextInode + 1
    rw [h.nextInode]

theorem openAt (h : Represents d m) (areNames : AreNames names) :
    (m.openAt (ofNames names)).answer = (d.openAt names).answer ∧
      Represents (d.openAt names).state (m.openAt (ofNames names)).state := by
  have index := SlotTable.insert_index_eq_leastFree (ofNames names) h.handles
  refine ⟨?_, h.ordered, h.nodes, fun other => ?_, h.nextInode⟩
  · show Except.ok (Handle.mk (m.handles.insert (ofNames names)).2) = .ok ⟨d.handles.leastFree⟩
    rw [index]
  · show ((m.handles.insert (ofNames names)).1.get? other).map namesOf =
      (d.handles.insert d.handles.leastFree names).get? other
    rw [SlotTable.get?_insert, SortedMap.get?_insert, index, ← h.handles]
    split
    · rw [Option.map_some, namesOf_ofNames areNames]
    · rfl

end Represents

/-! ### One operation at a canonical path -/

section

variable {d : Disk} {m : Memory} {names : List Text}

theorem createAt_matches (h : Represents d m) (areNames : AreNames names) :
    ((Memory.createAt (ofNames names)).run m).answer = ((Disk.createAt names).run d).answer ∧
      Represents ((Disk.createAt names).run d).state
        ((Memory.createAt (ofNames names)).run m).state := by
  rcases List.eq_nil_or_concat' names with rfl | ⟨directory, name, rfl⟩
  · exact ⟨rfl, h⟩
  rcases h.holder_cases areNames with ⟨cause, parent, holder⟩ |
    ⟨parent, holder, inode, entries, there⟩
  · simp only [Step.run, Memory.createAt, Disk.createAt, parent, holder]
    exact ⟨rfl, h⟩
  by_cases full : maxOpenFiles ≤ m.handles.occupied
  · have full' : maxOpenFiles ≤ d.handles.size := h.occupied ▸ full
    simp only [Step.run, Memory.createAt, Disk.createAt, parent, holder, full, full', ↓reduceIte]
    exact ⟨rfl, h⟩
  have room : ¬ maxOpenFiles ≤ d.handles.size := h.occupied ▸ full
  rcases m.node_cases (ofNames (directory ++ [name])) with absent | ⟨node, found, regular⟩ |
    ⟨node, found, isDirectory⟩
  · have gone := h.descend_of_absent areNames absent
    simp only [Step.run, Memory.createAt, Disk.createAt, parent, holder, full, room, absent, gone,
      ↓reduceIte]
    exact (h.addEntry areNames there gone (fun number => Tree.isLeaf_file number [])
      (fun number => .file number []) (fun number => rfl)).openAt areNames
  · have file := h.descend_of_regular areNames found regular
    have leaf : ∀ old, d.tree.descend (directory ++ [name]) = some old → old.IsLeaf :=
      fun _ => h.isLeaf_of_regular areNames found regular
    simp only [Step.run, Memory.createAt, Disk.createAt, parent, holder, full, room, found, regular,
      file, ↓reduceIte]
    have emptied : (Tree.file node.inode []).node = { node with data := [] } := by
      rw [Tree.node, ← regular]
    have changed := h.setEntry areNames there leaf (Tree.isLeaf_file node.inode [])
      (.file node.inode [])
    rw [emptied] at changed
    exact changed.openAt areNames
  · obtain ⟨below, isThere⟩ := h.descend_of_directory areNames found isDirectory
    simp only [Step.run, Memory.createAt, Disk.createAt, parent, holder, full, room, found,
      isDirectory, isThere, ↓reduceIte]
    exact ⟨rfl, h⟩

theorem removeAt_matches (h : Represents d m) (sound : Memory.Sound m) (areNames : AreNames names) :
    ((Memory.removeAt (ofNames names)).run m).answer = ((Disk.removeAt names).run d).answer ∧
      Represents ((Disk.removeAt names).run d).state
        ((Memory.removeAt (ofNames names)).run m).state := by
  rcases List.eq_nil_or_concat' names with rfl | ⟨directory, name, rfl⟩
  · exact ⟨rfl, h⟩
  rcases h.holder_cases areNames with ⟨cause, parent, holder⟩ |
    ⟨parent, holder, inode, entries, there⟩
  · simp only [Step.run, Memory.removeAt, Disk.removeAt, parent, holder]
    exact ⟨rfl, h⟩
  rcases m.node_cases (ofNames (directory ++ [name])) with absent | ⟨node, found, regular⟩ |
    ⟨node, found, isDirectory⟩
  · have gone := h.descend_of_absent areNames absent
    simp only [Step.run, Memory.removeAt, Disk.removeAt, parent, holder, absent, gone]
    exact ⟨rfl, h⟩
  · have file := h.descend_of_regular areNames found regular
    have leaf : ∀ old, d.tree.descend (directory ++ [name]) = some old → old.IsLeaf :=
      fun _ => h.isLeaf_of_regular areNames found regular
    simp only [Step.run, Memory.removeAt, Disk.removeAt, parent, holder, found, regular, file]
    have noLeaf' : ∀ child, (none : Option Tree) = some child → child.IsLeaf := by
      intro child new
      cases new
    refine ⟨rfl, ?_, ?_, fun index => ?_, h.nextInode⟩
    · refine h.ordered.alter fun t isOrdered => isOrdered.setEntry fun child new => ?_
      cases new
    · exact h.nodes_change areNames (Tree.look_setEntry there leaf noLeaf')
        (fun key => SortedMap.get?_erase m.nodes _ key)
    · show ((m.handles.retain _).1.get? index).map namesOf = (d.handles.filter _).get? index
      rw [SlotTable.get?_retain, SortedMap.get?_filter, ← h.handles]
      cases live : m.handles.get? index with
      | none => rfl
      | some key =>
        -- a live handle is open on a node, so its path is made of names and known by them
        obtain ⟨other, otherFound, -⟩ := sound.handles index key live
        obtain ⟨names, otherNames, rfl⟩ := sound.areNames otherFound
        have same := ofNames_inj otherNames areNames
        simp only [Option.filter_some, Option.map_some, namesOf_ofNames otherNames, ne_eq, same]
        split
        · rw [Option.map_some, namesOf_ofNames otherNames]
        · rfl
  · obtain ⟨below, isThere⟩ := h.descend_of_directory areNames found isDirectory
    simp only [Step.run, Memory.removeAt, Disk.removeAt, parent, holder, found, isDirectory,
      isThere]
    exact ⟨rfl, h⟩

theorem makeDirectoryAt_matches (h : Represents d m) (areNames : AreNames names) :
    ((Memory.makeDirectoryAt (ofNames names)).run m).answer =
        ((Disk.makeDirectoryAt names).run d).answer ∧
      Represents ((Disk.makeDirectoryAt names).run d).state
        ((Memory.makeDirectoryAt (ofNames names)).run m).state := by
  cases found : m.nodes.get? (ofNames names) with
  | some node =>
    have there := h.descend_eq areNames
    rw [found] at there
    obtain ⟨t, isThere, -⟩ := Option.map_eq_some_iff.mp there
    simp only [Step.run, Memory.makeDirectoryAt, Disk.makeDirectoryAt, SortedMap.contains, found,
      isThere, Option.isSome_some, ↓reduceIte]
    exact ⟨rfl, h⟩
  | none =>
    have gone := h.descend_of_absent areNames found
    rcases List.eq_nil_or_concat' names with rfl | ⟨directory, name, rfl⟩
    · cases gone
    rcases h.holder_cases areNames with ⟨cause, parent, holder⟩ |
      ⟨parent, holder, inode, entries, there⟩
    · simp only [Step.run, Memory.makeDirectoryAt, Disk.makeDirectoryAt, SortedMap.contains, found,
        gone, parent, holder, Option.isSome_none, Bool.false_eq_true, ↓reduceIte]
      exact ⟨rfl, h⟩
    · simp only [Step.run, Memory.makeDirectoryAt, Disk.makeDirectoryAt, SortedMap.contains, found,
        gone, parent, holder, Option.isSome_none, Bool.false_eq_true, ↓reduceIte]
      exact ⟨rfl, h.addEntry areNames there gone (fun number => Tree.isLeaf_directory number)
        (fun number => .directory number .nil fun e member => absurd member List.not_mem_nil)
        (fun number => rfl)⟩

/-- The entries of a directory in the tree are the nodes whose path lies in it. -/
theorem entries_eq_childrenOf (h : Represents d m) (sound : Memory.Sound m) (areNames : AreNames names)
    {inode : Nat} {entries : List (Text × Tree)}
    (there : d.tree.descend names = some (.directory inode entries)) :
    m.childrenOf (ofNames names) =
      entries.map fun e => ⟨e.1, e.2.kind, e.2.inode⟩ := by
  have ascending : entries.Pairwise fun a b => compare a.1 b.1 = .lt := by
    cases h.ordered.descend there with
    | directory _ ascending _ => exact ascending
  have entry : ∀ name child, (name, child) ∈ entries ↔
      d.tree.descend (names ++ [name]) = some child := by
    intro name child
    rw [Tree.descend_concat, there]
    exact (SortedMap.get?_eq_some_iff ⟨entries, ascending⟩ name child).symm
  refine Memory.childrenOf_eq sound areNames (List.pairwise_map.mpr ascending) fun line => ?_
  simp only [List.mem_map, Prod.exists]
  constructor
  · rintro ⟨name, child, member, rfl⟩
    have below := (entry name child).mp member
    have shown := h.nodes (names ++ [name])
    rw [Tree.look, below] at shown
    split at shown
    · rename_i allNames
      refine ⟨(areNames_concat.mp allNames).2, child.node, shown.symm, ?_⟩
      cases child <;> exact ⟨rfl, rfl⟩
    · cases shown
  · rintro ⟨isName, node, found, kind, number⟩
    have below := h.descend_eq (areNames_concat.mpr ⟨areNames, isName⟩)
    rw [found] at below
    obtain ⟨child, isThere, rfl⟩ := Option.map_eq_some_iff.mp below
    refine ⟨line.name, child, (entry line.name child).mpr isThere, ?_⟩
    rw [Entry.mk.injEq, ← kind, ← number]
    cases child <;> exact ⟨rfl, rfl, rfl⟩

theorem listAt_matches (h : Represents d m) (sound : Memory.Sound m) (areNames : AreNames names) :
    ((Memory.listAt (ofNames names)).run m).answer = ((Disk.listAt names).run d).answer ∧
      Represents ((Disk.listAt names).run d).state
        ((Memory.listAt (ofNames names)).run m).state := by
  rcases m.node_cases (ofNames names) with absent | ⟨node, found, regular⟩ |
    ⟨node, found, isDirectory⟩
  · have gone := h.descend_of_absent areNames absent
    simp only [Step.run, Memory.listAt, Disk.listAt, absent, gone]
    exact ⟨rfl, h⟩
  · have file := h.descend_of_regular areNames found regular
    simp only [Step.run, Memory.listAt, Disk.listAt, found, regular, file]
    exact ⟨rfl, h⟩
  · obtain ⟨entries, there⟩ := h.descend_of_directory areNames found isDirectory
    simp only [Step.run, Memory.listAt, Disk.listAt, found, isDirectory, there,
      entries_eq_childrenOf h sound areNames there]
    exact ⟨rfl, h⟩

end

/-! ### Operations on handles -/

section

variable {d : Disk} {m : Memory}

theorem close_matches (h : Represents d m) (handle : Handle) :
    ((Memory.close handle).run m).answer = ((Disk.close handle).run d).answer ∧
      Represents ((Disk.close handle).run d).state ((Memory.close handle).run m).state := by
  have bound := h.handles handle.index
  cases live : m.handles.get? handle.index with
  | none =>
    rw [live] at bound
    simp only [Step.run, Memory.close, Disk.close, live, ← bound, Option.map_none]
    exact ⟨rfl, h⟩
  | some key =>
    rw [live] at bound
    simp only [Step.run, Memory.close, Disk.close, live, ← bound, Option.map_some]
    refine ⟨rfl, h.ordered, h.nodes, fun other => ?_, h.nextInode⟩
    show ((m.handles.erase handle.index).get? other).map namesOf =
      (d.handles.erase handle.index).get? other
    rw [SlotTable.get?_erase, SortedMap.get?_erase, ← h.handles]
    split <;> rfl

theorem write_matches (h : Represents d m) (sound : Memory.Sound m) (handle : Handle)
    (data : Bytes) :
    ((Memory.write handle data).run m).answer = ((Disk.write handle data).run d).answer ∧
      Represents ((Disk.write handle data).run d).state
        ((Memory.write handle data).run m).state := by
  have bound := h.handles handle.index
  cases live : m.handles.get? handle.index with
  | none =>
    rw [live] at bound
    simp only [Step.run, Memory.write, Disk.write, live, ← bound, Option.map_none]
    exact ⟨rfl, h⟩
  | some key =>
    obtain ⟨node, found, regular⟩ := sound.handles handle.index key live
    obtain ⟨names, areNames, rfl⟩ := sound.areNames found
    have file := h.descend_of_regular areNames found regular
    rw [live, Option.map_some, namesOf_ofNames areNames] at bound
    simp only [Step.run, Memory.write, Disk.write, live, ← bound, found, file]
    have new : (Tree.file node.inode (node.data ++ data)).node =
        { node with data := node.data ++ data } := by
      rw [Tree.node, ← regular]
    refine ⟨rfl, ?_, ?_, h.handles, h.nextInode⟩
    · exact h.ordered.alter fun t _ => .file node.inode (node.data ++ data)
    · refine h.nodes_change areNames
        (Tree.look_alter_of_isLeaf file (Tree.isLeaf_file _ _) (Tree.isLeaf_file _ _)) fun key => ?_
      rw [new]
      exact SortedMap.get?_insert m.nodes (ofNames names) key _

end

/-! ### All operations -/

/-- A sound store and the disk that it looks like. -/
def Pictured (m : Memory) (d : Disk) : Prop :=
  Memory.Sound m ∧ Represents d m

/-- Soundness is kept anyway, so a match of sound stores only has to keep the picture. -/
theorem matches_of_keeps {α : Type} {x : Step Memory α} {y : Step Disk α}
    (kept : Step.Keeps Memory.Sound Memory.WithinTable x)
    (h : ∀ m d, Memory.Sound m → Represents d m →
      (x.run m).answer = (y.run d).answer ∧ Represents (y.run d).state (x.run m).state) :
    Step.Matches Pictured x y := by
  rintro m d ⟨sound, represents⟩
  obtain ⟨same, represents'⟩ := h m d sound represents
  exact ⟨same, (kept m sound).1, represents'⟩

theorem resolving_matches {α : Type} {act : Text → Step Memory (Except FileError α)}
    {act' : List Text → Step Disk (Except FileError α)} {m : Memory} {d : Disk}
    (represents : Represents d m)
    (h : ∀ names, AreNames names →
      ((act (ofNames names)).run m).answer = ((act' names).run d).answer ∧
        Represents ((act' names).run d).state ((act (ofNames names)).run m).state)
    (path : Text) :
    ((Memory.resolving path act).run m).answer = ((Disk.resolving path act').run d).answer ∧
      Represents ((Disk.resolving path act').run d).state
        ((Memory.resolving path act).run m).state := by
  cases resolved : resolve top path with
  | error cause =>
    rw [Memory.run_resolving_error act m resolved]
    simp only [Step.run, Disk.resolving, resolved]
    exact ⟨rfl, represents⟩
  | ok key =>
    obtain ⟨names, rfl, areNames, -⟩ := resolve_top_eq_ok resolved
    rw [Memory.run_resolving_ok act m resolved]
    simp only [Step.run, Disk.resolving, resolved, namesOf_ofNames areNames]
    exact h names areNames

theorem holds_matches {m : Memory} {d : Disk} (h : Represents d m) (path : Text) :
    ((Memory.holds path).run m).answer = ((Disk.holds path).run d).answer ∧
      Represents ((Disk.holds path).run d).state ((Memory.holds path).run m).state := by
  cases resolved : resolve top path with
  | error cause =>
    rw [Memory.run_holds_error m resolved]
    simp only [Step.run, Disk.holds, resolved]
    exact ⟨trivial, h⟩
  | ok key =>
    obtain ⟨names, rfl, areNames, -⟩ := resolve_top_eq_ok resolved
    rw [Memory.run_holds_ok m resolved]
    simp only [Step.run, Disk.holds, resolved, namesOf_ofNames areNames, SortedMap.contains,
      ← h.descend_eq areNames, Option.isSome_map]
    exact ⟨trivial, h⟩

theorem fileSystem_matches : Memory.fileSystem.Matches Pictured Disk.fileSystem where
  create path := matches_of_keeps (Memory.keeps_fileSystem.create path) fun _ _ _ represents =>
    resolving_matches represents (fun _ areNames => createAt_matches represents areNames) path
  close handle := matches_of_keeps (Memory.keeps_fileSystem.close handle) fun _ _ _ represents =>
    close_matches represents handle
  remove path := matches_of_keeps (Memory.keeps_fileSystem.remove path) fun _ _ sound represents =>
    resolving_matches represents (fun _ areNames => removeAt_matches represents sound areNames) path
  holds path := matches_of_keeps (Memory.keeps_fileSystem.holds path) fun _ _ _ represents =>
    holds_matches represents path

theorem perform_matches (request : Memory.Request) :
    Step.Matches Pictured (Memory.perform request) (Disk.perform request) := by
  cases request with
  | files request =>
    exact .bind (FileSystem.matches_perform fileSystem_matches request) fun _ => .pure _
  | makeDirectory path =>
    refine .bind (matches_of_keeps (Memory.keeps_makeDirectory path) fun m d _ represents => ?_)
      fun _ => .pure _
    exact resolving_matches represents
      (fun _ areNames => makeDirectoryAt_matches represents areNames) path
  | write handle data =>
    exact .bind (matches_of_keeps (Memory.keeps_write handle data) fun _ _ sound represents =>
      write_matches represents sound handle data) fun _ => .pure _
  | list path =>
    refine .bind (matches_of_keeps (Memory.keeps_list path) fun m d sound represents => ?_)
      fun _ => .pure _
    exact resolving_matches represents
      (fun _ areNames => listAt_matches represents sound areNames) path

/-- After every history there is exactly one disk that the store looks like, the one that the same
requests lead to. The two gave the same answers so far, and answer the next request alike. -/
theorem Memory.history_refines_tree (requests : List Memory.Request) :
    let last := (Memory.history requests).run Memory.initial
    let disk := (requests.mapM Disk.perform).run Disk.initial
    last.answer = disk.answer ∧ Represents disk.state last.state ∧
      (∀ other, Represents other last.state → other = disk.state) ∧
      last.state.openHandles = disk.state.handles.size ∧
      ∀ request, ((Memory.perform request).run last.state).answer =
          ((Disk.perform request).run disk.state).answer ∧
        Represents ((Disk.perform request).run disk.state).state
          ((Memory.perform request).run last.state).state := by
  intro last disk
  have start : Pictured Memory.initial Disk.initial := ⟨Memory.sound_initial, .initial⟩
  obtain ⟨answers, pictured⟩ := Step.Matches.mapM perform_matches requests _ _ start
  have represents : Represents disk.state last.state := pictured.2
  refine ⟨answers, represents, fun other same => represents.unique same, represents.occupied,
    fun request => ?_⟩
  obtain ⟨same, pictured'⟩ := perform_matches request last.state disk.state pictured
  exact ⟨same, pictured'.2⟩

end FileRemoval
