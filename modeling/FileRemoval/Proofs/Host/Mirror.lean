import FileRemoval.Host.Store
import FileRemoval.Proofs.Host.Calls
import FileRemoval.Proofs.Memory.Histories

/-! # A host directory that mirrors a store in memory

A host directory and a store in memory hold the same paths, with the same kinds and sizes, and
their handles are bound to the same files. What one call changes on both sides keeps that. -/

namespace FileRemoval

open Path (AreNames namesOf ofNames joined resolve)
open Host (locationBelow pathBelow)

def Node.size? (n : Node) : Option Nat :=
  match n.kind with
  | .directory => none
  | .regular => some n.size

/-- Below `base` the host has what the store has, and nothing else. -/
structure SameTree (base : Location) (h : Host) (m : Memory) : Prop where
  nodes : ∀ names, AreNames names → (h.node? (locationBelow base names)).map HostNode.size? =
    (m.nodes.get? (ofNames names)).map Node.size?
  only : ∀ rest, (h.node? (base ++ rest)).isSome →
    ∃ names, AreNames names ∧ rest = names.map Text.utf8

/-- The same slots are in use, on the host for the paths that go on from the root by the names of
the paths in memory. -/
def SameHandles (s : HostStore) (m : Memory) : Prop :=
  ∀ index, (s.handles.get? index).map HostPath.components =
    (m.handles.get? index).map fun key => HostPath.components (pathBelow s.root (namesOf key))

/-- The root of the session is the directory `base`, which looks like the store. -/
structure Mirrors (base : Location) (s : HostSession) (m : Memory) : Prop where
  reachable : m.Reachable
  root : s.host.find s.store.root = .ok (.at base)
  free : ∀ rest, s.host.refusalIn? (base ++ rest) = none
  tree : SameTree base s.host m
  handles : SameHandles s.store m

variable {base : Location} {h : Host} {m m' : Memory} {ns : List Text}

/-! ### One path on both sides -/

namespace SameTree

theorem absent (same : SameTree base h m) (areNames : AreNames ns) :
    h.node? (locationBelow base ns) = none ↔ m.nodes.get? (ofNames ns) = none := by
  have sizes := same.nodes ns areNames
  rw [← Option.map_eq_none_iff (f := HostNode.size?), sizes, Option.map_eq_none_iff]

theorem directory (same : SameTree base h m) (areNames : AreNames ns) :
    h.node? (locationBelow base ns) = some .directory ↔ m.IsDirectory (ofNames ns) := by
  have sizes := same.nodes ns areNames
  constructor
  · intro there
    rw [there] at sizes
    obtain ⟨node, found, size⟩ := Option.map_eq_some_iff.mp sizes.symm
    refine ⟨node, found, ?_⟩
    cases kind : node.kind with
    | directory => rfl
    | regular =>
      simp only [Node.size?, kind, HostNode.size?] at size
      cases size
  · rintro ⟨node, found, isDirectory⟩
    rw [found, Option.map_some, Node.size?, isDirectory] at sizes
    obtain ⟨hostNode, there, size⟩ := Option.map_eq_some_iff.mp sizes
    cases hostNode with
    | directory => exact there
    | file content => cases size

theorem file (same : SameTree base h m) (areNames : AreNames ns) :
    (∃ content, h.node? (locationBelow base ns) = some (.file content)) ↔
      m.IsFile (ofNames ns) := by
  have none_iff := same.absent areNames
  have directory_iff := same.directory areNames
  constructor
  · rintro ⟨content, there⟩
    rw [there] at none_iff directory_iff
    rcases m.node_cases (ofNames ns) with gone | isFile | isDirectory
    · cases none_iff.mpr gone
    · exact isFile
    · cases directory_iff.mpr isDirectory
  · intro isFile
    cases there : h.node? (locationBelow base ns) with
    | none =>
      obtain ⟨node, found, -⟩ := isFile
      rw [none_iff.mp there] at found
      cases found
    | some node =>
      cases node with
      | directory => exact absurd isFile (Memory.not_isFile_of_isDirectory (directory_iff.mp there))
      | file content => exact ⟨content, rfl⟩

theorem change {h' : Host} (same : SameTree base h m) (areNames : AreNames ns)
    {hostNode : Option HostNode} {node : Option Node}
    (sizes : hostNode.map HostNode.size? = node.map Node.size?)
    (host : ∀ location, h'.node? location =
      if location = locationBelow base ns then hostNode else h.node? location)
    (memory : ∀ key, m'.nodes.get? key = if key = ofNames ns then node else m.nodes.get? key) :
    SameTree base h' m' where
  nodes names otherNames := by
    rw [host, memory]
    by_cases here : names = ns
    · simp only [here, ↓reduceIte]
      exact sizes
    · have apart : locationBelow base names ≠ locationBelow base ns :=
        mt Host.locationBelow_inj.mp here
      have apart' : ofNames names ≠ ofNames ns := mt (Path.ofNames_inj otherNames areNames).mp here
      simp only [apart, apart', ↓reduceIte]
      exact same.nodes names otherNames
  only rest there := by
    rw [host] at there
    split at there
    · rename_i here
      exact ⟨ns, areNames, List.append_cancel_left here⟩
    · exact same.only rest there

end SameTree

theorem Mirrors.grows {s : HostSession} (mirrors : Mirrors base s m) : s.host.Grows base where
  top := by
    obtain ⟨node, found, isDirectory, -⟩ := mirrors.reachable.sound.top
    have top : s.host.node? (locationBelow base []) = some .directory :=
      (mirrors.tree.directory Path.areNames_nil).mpr ⟨node, found, isDirectory⟩
    rwa [locationBelow, List.map_nil, List.append_nil] at top
  parents names name there := by
    obtain ⟨all, areNames, split⟩ := mirrors.tree.only _ there
    rcases List.eq_nil_or_concat' all with rfl | ⟨above, last, rfl⟩
    · simp at split
    rw [List.map_append, List.map_singleton] at split
    obtain ⟨rfl, -⟩ := List.append_inj' split rfl
    cases found : m.nodes.get? (ofNames (above ++ [last])) with
    | none =>
      have gone := (mirrors.tree.absent areNames).mpr found
      rw [locationBelow, List.map_append, List.map_singleton, ← split] at gone
      rw [gone] at there
      cases there
    | some node =>
      obtain ⟨parent, own, parts, isDirectory⟩ := mirrors.reachable.sound.parents _ node found
        (Path.ofNames_concat_ne_top areNames)
      rw [Path.parentFile_ofNames areNames] at parts
      cases parts
      exact (mirrors.tree.directory (Path.areNames_concat.mp areNames).1).mpr isDirectory
  free := mirrors.free

/-! ### The tables of handles -/

namespace SameHandles

variable {s : HostStore}

theorem occupied (same : SameHandles s m) : s.handles.occupied = m.handles.occupied := by
  have host := s.handles.get?_toMap_map HostPath.components
  rw [SlotTable.occupied_eq_size host, ← SlotTable.occupied_eq_size fun index =>
    (same index).symm.trans (host index)]

theorem index (same : SameHandles s m) (path : Bytes) (key : Text) :
    (s.handles.insert path).2 = (m.handles.insert key).2 := by
  have host := s.handles.get?_toMap_map HostPath.components
  rw [SlotTable.insert_index_eq_leastFree path host,
    SlotTable.insert_index_eq_leastFree key fun index => (same index).symm.trans (host index)]

theorem insert (same : SameHandles s m) (areNames : AreNames ns)
    (memory : m'.handles = (m.handles.insert (ofNames ns)).1) :
    SameHandles { s with handles := (s.handles.insert (pathBelow s.root ns)).1 } m' := by
  intro index
  show ((s.handles.insert (pathBelow s.root ns)).1.get? index).map _ = _
  rw [memory, SlotTable.get?_insert, SlotTable.get?_insert, same.index _ (ofNames ns)]
  split
  · rw [Option.map_some, Option.map_some, Path.namesOf_ofNames areNames]
  · exact same index

theorem erase (same : SameHandles s m) (index : Nat) :
    SameHandles { s with handles := s.handles.erase index }
      { m with handles := m.handles.erase index } := by
  intro other
  show ((s.handles.erase index).get? other).map _ = ((m.handles.erase index).get? other).map _
  rw [SlotTable.get?_erase, SlotTable.get?_erase]
  split
  · rfl
  · exact same other

/-- Comparison of host paths tells canonical paths apart. -/
theorem same_pathBelow (root : Bytes) {others : List Text}
    (areNames : AreNames ns) (otherNames : AreNames others) :
    HostPath.same (pathBelow root others) (pathBelow root ns) = true ↔ others = ns := by
  have injective : Function.Injective fun name : Text =>
      HostPath.Component.name (Text.utf8 name) := by
    intro name other equal
    injection equal with equal
    exact Text.utf8_injective equal
  rw [HostPath.same, decide_eq_true_eq, pathBelow, pathBelow,
    HostPath.components_join root otherNames, HostPath.components_join root areNames,
    List.append_cancel_left_eq]
  exact List.map_inj_right injective

theorem retain (same : SameHandles s m) (sound : Memory.Sound m) (areNames : AreNames ns) :
    SameHandles
      { s with handles :=
          (s.handles.retain fun other => !HostPath.same other (pathBelow s.root ns)).1 }
      { m with handles := (m.handles.retain (· ≠ ofNames ns)).1 } := by
  intro index
  have here := same index
  show ((s.handles.retain _).1.get? index).map _ = ((m.handles.retain _).1.get? index).map _
  rw [SlotTable.get?_retain, SlotTable.get?_retain]
  cases live : m.handles.get? index with
  | none =>
    rw [live, Option.map_none, Option.map_eq_none_iff] at here
    rw [here]
    rfl
  | some key =>
    obtain ⟨node, found, -⟩ := sound.handles index key live
    obtain ⟨others, otherNames, rfl⟩ := sound.areNames found
    rw [live, Option.map_some, Path.namesOf_ofNames otherNames] at here
    obtain ⟨path, bound, components⟩ := Option.map_eq_some_iff.mp here
    have kept : HostPath.same path (pathBelow s.root ns) = true ↔ others = ns := by
      rw [HostPath.same, components]
      exact same_pathBelow s.root areNames otherNames
    -- the host compares paths by components, the store by text
    rw [bound, Option.filter_some, Option.filter_some]
    by_cases equal : others = ns
    · have dropped := kept.mpr equal
      simp only [dropped, equal, ne_eq, not_true_eq_false, decide_false, Bool.not_true,
        Bool.false_eq_true, ↓reduceIte]
      rfl
    · have stays : HostPath.same path (pathBelow s.root ns) = false :=
        Bool.eq_false_iff.mpr (mt kept.mp equal)
      have apart : ofNames others ≠ ofNames ns := mt (Path.ofNames_inj otherNames areNames).mp equal
      simp only [stays, apart, ne_eq, not_false_eq_true, decide_true, Bool.not_false, ↓reduceIte,
        Option.map_some, components, Path.namesOf_ofNames otherNames]

end SameHandles

/-! ### One change on both sides -/

section

variable {s : HostSession}

theorem Mirrors.opened (mirrors : Mirrors base s m) (areNames : AreNames ns) (nonempty : ns ≠ [])
    (notDirectory : s.host.node? (locationBelow base ns) ≠ some .directory)
    (reachable : m'.Reachable) {node : Node} (size : node.size? = some 0)
    (nodes : ∀ key, m'.nodes.get? key = if key = ofNames ns then some node else m.nodes.get? key)
    (handles : m'.handles = (m.handles.insert (ofNames ns)).1) :
    Mirrors base
      ⟨{ s.store with handles := (s.store.handles.insert (pathBelow s.store.root ns)).1 },
        s.host.withFile (locationBelow base ns)⟩ m' where
  reachable := reachable
  root := Host.find_congr
    (Host.directories_withFile (Host.locationBelow_ne_nil nonempty) notDirectory) rfl rfl
    mirrors.root mirrors.grows.top
  free := mirrors.free
  tree := by
    have sizes : (some (HostNode.file [])).map HostNode.size? = (some node).map Node.size? := by
      rw [Option.map_some, Option.map_some, size]
      rfl
    exact mirrors.tree.change areNames sizes
      (Host.node?_withFile (Host.locationBelow_ne_nil nonempty) s.host) nodes
  handles := mirrors.handles.insert areNames handles

theorem Mirrors.dropped (mirrors : Mirrors base s m) (areNames : AreNames ns) (nonempty : ns ≠ [])
    (notDirectory : s.host.node? (locationBelow base ns) ≠ some .directory)
    (reachable : (m.dropAt (ofNames ns)).state.Reachable) :
    Mirrors base
      ⟨{ s.store with handles := (s.store.handles.retain fun other =>
          !HostPath.same other (pathBelow s.store.root ns)).1 },
        s.host.without (locationBelow base ns)⟩ (m.dropAt (ofNames ns)).state where
  reachable := reachable
  root := Host.find_congr
    (Host.directories_without (Host.locationBelow_ne_nil nonempty) notDirectory) rfl rfl
    mirrors.root mirrors.grows.top
  free := mirrors.free
  tree := by
    have sizes : (none : Option HostNode).map HostNode.size? =
        (none : Option Node).map Node.size? := rfl
    exact mirrors.tree.change areNames sizes
      (Host.node?_without (Host.locationBelow_ne_nil nonempty) s.host)
      (fun key => SortedMap.get?_erase m.nodes (ofNames ns) key)
  handles := mirrors.handles.retain mirrors.reachable.sound areNames

theorem Mirrors.closed (mirrors : Mirrors base s m) (index : Nat)
    (reachable : Memory.Reachable { m with handles := m.handles.erase index }) :
    Mirrors base ⟨{ s.store with handles := s.store.handles.erase index }, s.host⟩
      { m with handles := m.handles.erase index } where
  reachable := reachable
  root := mirrors.root
  free := mirrors.free
  tree := ⟨mirrors.tree.nodes, mirrors.tree.only⟩
  handles := mirrors.handles.erase index

end

end FileRemoval
