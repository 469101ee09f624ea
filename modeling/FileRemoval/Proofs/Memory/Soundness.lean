import FileRemoval.Proofs.Memory.Operations
import FileRemoval.Proofs.SlotTable.FiniteMap

/-! # What holds of every store in memory

The nodes form a tree of canonical paths below the top directory, node numbers are never used
twice, and live handles are open on regular files. Every change that an operation can make keeps
these facts, so they hold after every history. -/

namespace FileRemoval.Memory

open Path

/-- A path as it stands in the map: names free of NUL, and no longer than what resolution gives. -/
def IsKey (key : Text) : Prop :=
  ∃ names, (∀ name ∈ names, IsName name ∧ '\x00' ∉ name) ∧ key = ofNames names ∧
    key.byteLength ≤ maxLength + 1

theorem isKey_of_resolve {path key : Text} (h : resolve top path = .ok key) : IsKey key := by
  have short := byteLength_of_resolve h
  obtain ⟨names, rfl, areNames, -, -⟩ := resolve_top_eq_ok h
  refine ⟨names, fun name member => ⟨areNames name member, ?_⟩, rfl, short⟩
  apply nul_not_mem_of_resolve h
  rw [namesOf_ofNames areNames]
  exact member

/-- The facts that hold of every store, whatever was asked of it. -/
structure Sound (m : Memory) : Prop where
  top : ∃ node, m.nodes.get? Path.top = some node ∧ node.kind = .directory ∧ node.inode = topInode
  keys : ∀ key node, m.nodes.get? key = some node → IsKey key
  parents : ∀ key node, m.nodes.get? key = some node → key ≠ Path.top →
    ∃ parent name, parentFile key = some (parent, name) ∧ m.IsDirectory parent
  handles : ∀ index key, m.handles.get? index = some key → m.IsFile key
  inodes : ∀ key other node node', m.nodes.get? key = some node →
    m.nodes.get? other = some node' → node.inode = node'.inode → key = other
  below : ∀ key node, m.nodes.get? key = some node → node.inode < m.nextInode
  bytes : ∀ key node, m.nodes.get? key = some node → node.kind = .directory → node.data = []
  slots : m.handles.slots.length ≤ maxOpenFiles

theorem Sound.areNames {m : Memory} {key : Text} {node : Node} (sound : Sound m)
    (found : m.nodes.get? key = some node) : ∃ names, AreNames names ∧ key = ofNames names := by
  obtain ⟨names, clean, same, -⟩ := sound.keys key node found
  exact ⟨names, fun name member => (clean name member).1, same⟩

theorem sound_initial : Sound initial := by
  have only : ∀ key node, initial.nodes.get? key = some node →
      key = Path.top ∧ node = ⟨topInode, .directory, []⟩ := by
    intro key node found
    rw [initial, SortedMap.get?_insert] at found
    split at found
    · rename_i isTop
      exact ⟨isTop, (Option.some.inj found).symm⟩
    · cases found
  have handleFree : ∀ index, initial.handles.get? index = none := SlotTable.get?_empty
  refine ⟨⟨_, SortedMap.get?_insert_self ∅ Path.top _, rfl, rfl⟩, ?_, ?_, ?_, ?_, ?_, ?_, ?_⟩
  · intro key node found
    obtain ⟨rfl, -⟩ := only key node found
    exact ⟨[], fun name member => absurd member List.not_mem_nil, rfl, by decide⟩
  · intro key node found notTop
    exact absurd (only key node found).1 notTop
  · intro index key found
    rw [handleFree] at found
    cases found
  · intro key other node node' found found' _
    rw [(only key node found).1, (only other node' found').1]
  · intro key node found
    rw [(only key node found).2]
    exact Nat.lt_succ_self topInode
  · intro key node found _
    rw [(only key node found).2]
  · exact Nat.zero_le _

/-! ### One change of the nodes or of the handles -/

section

variable {m : Memory} {key : Text}

theorem Sound.addNode (sound : Sound m) (kind : Kind) (isKey : IsKey key)
    (parent : m.checkParent key = .ok ()) (absent : m.nodes.get? key = none) :
    Sound (m.addNode key kind) := by
  have lookup : ∀ other, (m.addNode key kind).nodes.get? other =
      if other = key then some ⟨m.nextInode, kind, []⟩ else m.nodes.get? other :=
    fun other => SortedMap.get?_insert m.nodes key other _
  have old : ∀ {other node}, m.nodes.get? other = some node →
      (m.addNode key kind).nodes.get? other = some node := by
    intro other node found
    have differs : other ≠ key := by
      rintro rfl
      rw [absent] at found
      cases found
    rw [lookup, if_neg differs, found]
  have directory : ∀ {other}, m.IsDirectory other → (m.addNode key kind).IsDirectory other :=
    fun ⟨node, found, isDirectory⟩ => ⟨node, old found, isDirectory⟩
  obtain ⟨topNode, topFound, isTop⟩ := sound.top
  refine ⟨⟨topNode, old topFound, isTop⟩, ?_, ?_, ?_, ?_, ?_, ?_, sound.slots⟩
  · intro other node found
    rw [lookup] at found
    split at found
    · rename_i same
      rw [same]
      exact isKey
    · exact sound.keys other node found
  · intro other node found notTop
    rw [lookup] at found
    split at found
    · rename_i same
      obtain ⟨above, name, split, isDirectory⟩ := checkParent_eq_ok.mp parent
      rw [same]
      exact ⟨above, name, split, directory isDirectory⟩
    · obtain ⟨above, name, split, isDirectory⟩ := sound.parents other node found notTop
      exact ⟨above, name, split, directory isDirectory⟩
  · intro index target found
    obtain ⟨node, nodeFound, regular⟩ := sound.handles index target found
    exact ⟨node, old nodeFound, regular⟩
  · -- the new number is above all old ones
    intro first second node node' found found' same
    rw [lookup] at found found'
    split at found <;> split at found'
    · rename_i h h'
      rw [h, h']
    · have less := sound.below second node' found'
      cases found
      rw [← same] at less
      exact absurd less (Nat.lt_irrefl m.nextInode)
    · have less := sound.below first node found
      cases found'
      rw [same] at less
      exact absurd less (Nat.lt_irrefl m.nextInode)
    · exact sound.inodes first second node node' found found' same
  · intro other node found
    rw [lookup] at found
    show node.inode < m.nextInode + 1
    split at found
    · cases found
      exact Nat.lt_succ_self _
    · exact Nat.lt_succ_of_lt (sound.below other node found)
  · intro other node found isDirectory
    rw [lookup] at found
    split at found
    · cases found
      rfl
    · exact sound.bytes other node found isDirectory

theorem get?_setData {node : Node} (found : m.nodes.get? key = some node) (data : Bytes)
    {other : Text} {new : Node} (h : (m.setData key node data).nodes.get? other = some new) :
    ∃ old, m.nodes.get? other = some old ∧ new.inode = old.inode ∧ new.kind = old.kind ∧
      (other ≠ key → new = old) := by
  rw [setData, SortedMap.get?_insert] at h
  split at h
  · rename_i same
    cases h
    exact ⟨node, by rw [same, found], rfl, rfl, fun differs => absurd same differs⟩
  · exact ⟨new, h, rfl, rfl, fun _ => rfl⟩

theorem exists_get?_setData {node : Node} (found : m.nodes.get? key = some node) (data : Bytes)
    {other : Text} {old : Node} (h : m.nodes.get? other = some old) :
    ∃ new, (m.setData key node data).nodes.get? other = some new ∧ new.inode = old.inode ∧
      new.kind = old.kind := by
  rw [setData, SortedMap.get?_insert]
  split
  · rename_i same
    rw [same, found] at h
    cases h
    exact ⟨_, rfl, rfl, rfl⟩
  · exact ⟨old, h, rfl, rfl⟩

theorem Sound.setData (sound : Sound m) {node : Node} (found : m.nodes.get? key = some node)
    (regular : node.kind = .regular) (data : Bytes) : Sound (m.setData key node data) := by
  have directory : ∀ {other}, m.IsDirectory other →
      (m.setData key node data).IsDirectory other := by
    rintro other ⟨old, oldFound, isDirectory⟩
    obtain ⟨new, newFound, -, kind⟩ := exists_get?_setData found data oldFound
    exact ⟨new, newFound, kind.trans isDirectory⟩
  obtain ⟨topNode, topFound, isDirectory, isFirst⟩ := sound.top
  obtain ⟨newTop, newTopFound, inode, kind⟩ := exists_get?_setData found data topFound
  refine ⟨⟨newTop, newTopFound, kind.trans isDirectory, inode.trans isFirst⟩,
    ?_, ?_, ?_, ?_, ?_, ?_, sound.slots⟩
  · intro other new newFound
    obtain ⟨old, oldFound, -⟩ := get?_setData found data newFound
    exact sound.keys other old oldFound
  · intro other new newFound notTop
    obtain ⟨old, oldFound, -⟩ := get?_setData found data newFound
    obtain ⟨above, name, split, isDirectory⟩ := sound.parents other old oldFound notTop
    exact ⟨above, name, split, directory isDirectory⟩
  · intro index target live
    obtain ⟨old, oldFound, isRegular⟩ := sound.handles index target live
    obtain ⟨new, newFound, -, kind⟩ := exists_get?_setData found data oldFound
    exact ⟨new, newFound, kind.trans isRegular⟩
  · intro first second new new' newFound newFound' same
    obtain ⟨old, oldFound, inode, -⟩ := get?_setData found data newFound
    obtain ⟨old', oldFound', inode', -⟩ := get?_setData found data newFound'
    rw [inode, inode'] at same
    exact sound.inodes first second old old' oldFound oldFound' same
  · intro other new newFound
    obtain ⟨old, oldFound, inode, -⟩ := get?_setData found data newFound
    rw [inode]
    exact sound.below other old oldFound
  · intro other new newFound isDirectory
    obtain ⟨old, oldFound, -, kind, unchanged⟩ := get?_setData found data newFound
    have differs : other ≠ key := by
      rintro rfl
      rw [found] at oldFound
      cases oldFound
      rw [kind, regular] at isDirectory
      cases isDirectory
    rw [unchanged differs]
    exact sound.bytes other old oldFound (kind ▸ isDirectory)

theorem Sound.openAt (sound : Sound m) (isFile : m.IsFile key)
    (room : m.handles.occupied < maxOpenFiles) : Sound (m.openAt key).state := by
  refine { sound with handles := ?_, slots := ?_ }
  · intro index target found
    change (m.handles.insert key).1.get? index = some target at found
    rw [SlotTable.get?_insert] at found
    split at found
    · cases found
      exact isFile
    · exact sound.handles index target found
  · have slots := sound.slots
    have index := m.handles.insert_index_le_occupied key
    change (m.handles.insert key).1.slots.length ≤ maxOpenFiles
    rw [SlotTable.length_insert]
    omega

theorem Sound.eraseHandle (sound : Sound m) (index : Nat) :
    Sound { m with handles := m.handles.erase index } := by
  refine { sound with handles := ?_, slots := ?_ }
  · intro other target found
    change (m.handles.erase index).get? other = some target at found
    rw [SlotTable.get?_erase] at found
    split at found
    · cases found
    · exact sound.handles other target found
  · change (m.handles.erase index).slots.length ≤ maxOpenFiles
    rw [SlotTable.length_erase]
    exact sound.slots

theorem Sound.dropAt (sound : Sound m) (isFile : m.IsFile key) : Sound (m.dropAt key).state := by
  have lookup : ∀ other, (m.dropAt key).state.nodes.get? other =
      if other = key then none else m.nodes.get? other :=
    fun other => SortedMap.get?_erase m.nodes key other
  have old : ∀ {other node}, (m.dropAt key).state.nodes.get? other = some node →
      m.nodes.get? other = some node := by
    intro other node found
    rw [lookup] at found
    split at found
    · cases found
    · exact found
  -- a file holds no entries, so whatever is left has its parent still
  have directory : ∀ {other}, m.IsDirectory other → (m.dropAt key).state.IsDirectory other := by
    intro other isDirectory
    have differs : other ≠ key := by
      rintro rfl
      exact not_isFile_of_isDirectory isDirectory isFile
    obtain ⟨node, found, kind⟩ := isDirectory
    exact ⟨node, by rw [lookup, if_neg differs, found], kind⟩
  obtain ⟨topNode, topFound, isDirectory, isFirst⟩ := sound.top
  obtain ⟨newTop, newTopFound, kind⟩ := directory ⟨topNode, topFound, isDirectory⟩
  refine ⟨⟨newTop, newTopFound, kind, ?_⟩, ?_, ?_, ?_, ?_, ?_, ?_, ?_⟩
  · rw [old newTopFound] at topFound
    cases topFound
    exact isFirst
  · exact fun other node found => sound.keys other node (old found)
  · intro other node found notTop
    obtain ⟨above, name, split, isDirectory⟩ := sound.parents other node (old found) notTop
    exact ⟨above, name, split, directory isDirectory⟩
  · intro index target found
    change (m.handles.retain _).1.get? index = some target at found
    rw [SlotTable.get?_retain, Option.filter_eq_some_iff] at found
    -- `kept` is what the sweep of the handles is for
    obtain ⟨live, kept⟩ := found
    obtain ⟨node, nodeFound, regular⟩ := sound.handles index target live
    exact ⟨node, by rw [lookup, if_neg (by simpa using kept), nodeFound], regular⟩
  · exact fun first second node node' found found' =>
      sound.inodes first second node node' (old found) (old found')
  · exact fun other node found => sound.below other node (old found)
  · exact fun other node found => sound.bytes other node (old found)
  · change (m.handles.retain _).1.slots.length ≤ maxOpenFiles
    rw [SlotTable.length_retain]
    exact sound.slots

end

end FileRemoval.Memory
