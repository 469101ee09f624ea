import Mathlib.Data.List.Sort
import FileRemoval.Proofs.Memory.Soundness

/-! # Lists of directories

The list of a directory has one line for every node directly below it and no other, in the order of
the names. -/

namespace FileRemoval

open Path

def Entry.Before (a b : Entry) : Prop :=
  compare a.name b.name = .lt

instance : Std.Irrefl Entry.Before where
  irrefl a before := by
    have same : compare a.name a.name = .eq := Std.ReflCmp.compare_self
    rw [Entry.Before, same] at before
    cases before

instance : Std.Antisymm Entry.Before where
  antisymm a b before after := by
    have swapped : compare a.name b.name = (compare b.name a.name).swap :=
      Std.OrientedCmp.eq_swap
    have below : compare b.name a.name = .lt := after
    rw [Entry.Before, swapped, below] at before
    cases before

theorem Entry.Before.name_ne {a b : Entry} (before : a.Before b) : a.name ≠ b.name := by
  intro same
  rw [Entry.Before, same, Std.ReflOrd.compare_self] at before
  cases before

namespace Memory

variable {m : Memory} {names : List Text}

/-- The line for a node in the list of the directory `key`, if it lies there. -/
def lineIn (key : Text) (e : Text × Node) : Option Entry :=
  (parentFile e.1).bind fun parts =>
    if parts.1 = key then some ⟨parts.2, e.2.kind, e.2.inode⟩ else none

theorem childrenOf_eq_filterMap (m : Memory) (key : Text) :
    m.childrenOf key = m.nodes.entries.filterMap (lineIn key) := by
  unfold childrenOf
  congr 1
  funext e
  obtain ⟨path, node⟩ := e
  dsimp only [lineIn]
  cases parentFile path <;> rfl

/-- A line tells the path that it was made from. -/
theorem lineIn_eq_some (sound : Sound m) (areNames : AreNames names) {e : Text × Node}
    (member : e ∈ m.nodes.entries) {entry : Entry} :
    lineIn (ofNames names) e = some entry ↔
      IsName entry.name ∧ e.1 = ofNames (names ++ [entry.name]) ∧ e.2.kind = entry.kind ∧
        e.2.inode = entry.inode := by
  obtain ⟨path, node⟩ := e
  obtain ⟨all, allNames, rfl⟩ :=
    sound.areNames ((SortedMap.get?_eq_some_iff m.nodes path node).mpr member)
  constructor
  · intro listed
    rcases List.eq_nil_or_concat' all with rfl | ⟨above, name, rfl⟩
    · cases listed
    · obtain ⟨aboveNames, isName⟩ := areNames_concat.mp allNames
      rw [lineIn, parentFile_ofNames allNames, Option.bind_some] at listed
      split at listed
      · rename_i same
        rw [ofNames_inj aboveNames areNames] at same
        cases listed
        exact ⟨isName, by rw [same], rfl, rfl⟩
      · cases listed
  · rintro ⟨isName, same, kind, inode⟩
    have areAll := areNames_concat.mpr ⟨areNames, isName⟩
    rw [lineIn, same, parentFile_ofNames areAll, Option.bind_some, if_pos rfl, kind, inode]

theorem mem_childrenOf (sound : Sound m) (areNames : AreNames names) (entry : Entry) :
    entry ∈ m.childrenOf (ofNames names) ↔
      IsName entry.name ∧ ∃ node, m.nodes.get? (ofNames (names ++ [entry.name])) = some node ∧
        node.kind = entry.kind ∧ node.inode = entry.inode := by
  rw [childrenOf_eq_filterMap, List.mem_filterMap]
  constructor
  · rintro ⟨⟨path, node⟩, member, listed⟩
    obtain ⟨isName, same, kind, inode⟩ := (lineIn_eq_some sound areNames member).mp listed
    have found := (SortedMap.get?_eq_some_iff m.nodes path node).mpr member
    rw [show path = _ from same] at found
    exact ⟨isName, node, found, kind, inode⟩
  · rintro ⟨isName, node, found, kind, inode⟩
    have member := (SortedMap.get?_eq_some_iff m.nodes _ node).mp found
    exact ⟨_, member, (lineIn_eq_some sound areNames member).mpr ⟨isName, rfl, kind, inode⟩⟩

theorem childrenOf_ascending (sound : Sound m) (areNames : AreNames names) :
    (m.childrenOf (ofNames names)).Pairwise Entry.Before := by
  rw [childrenOf_eq_filterMap, List.pairwise_filterMap]
  refine m.nodes.ascending.imp_of_mem fun first second before => ?_
  intro a listed b listed'
  -- the map is in the order of the paths, and within one directory that is the order of the names
  obtain ⟨-, path, -⟩ := (lineIn_eq_some sound areNames first).mp listed
  obtain ⟨-, path', -⟩ := (lineIn_eq_some sound areNames second).mp listed'
  have order : compare (ofNames (names ++ [a.name])) (ofNames (names ++ [b.name])) = .lt := by
    rw [← path, ← path']
    exact before
  rwa [compare_ofNames_concat] at order

/-- A list of lines in order is settled by the nodes directly below the directory. -/
theorem childrenOf_eq (sound : Sound m) (areNames : AreNames names) {entries : List Entry}
    (ascending : entries.Pairwise Entry.Before)
    (h : ∀ entry, entry ∈ entries ↔
      IsName entry.name ∧ ∃ node, m.nodes.get? (ofNames (names ++ [entry.name])) = some node ∧
        node.kind = entry.kind ∧ node.inode = entry.inode) :
    m.childrenOf (ofNames names) = entries :=
  (childrenOf_ascending sound areNames).eq_of_mem_iff ascending fun entry => by
    rw [mem_childrenOf sound areNames, h]

end Memory

end FileRemoval
