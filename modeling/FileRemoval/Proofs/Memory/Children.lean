import FileRemoval.Proofs.Memory.Histories
import FileRemoval.Proofs.Memory.Walk

/-! # Children of a directory

Of every store that requests lead to, the list of a directory shows its direct children and nothing
else, in the byte order of their names, and there is something at a path exactly if its directory
lists the name. A directory that a path leads into is never too long to be listed. -/

namespace FileRemoval.Memory

open Path

variable {m : Memory} {key : Text} {entries : List Entry}

/-- What the list of the directory `key` is to be: a line for every node whose directory that is,
and those are the nodes with one name more on their path. -/
structure Lists (m : Memory) (key : Text) (entries : List Entry) : Prop where
  mem_iff (entry : Entry) : entry ∈ entries ↔
    ∃ path node, m.nodes.get? path = some node ∧ parentFile path = some (key, entry.name) ∧
      node.kind = entry.kind ∧ node.inode = entry.inode
  direct {path name : Text} {node : Node} (found : m.nodes.get? path = some node) :
    parentFile path = some (key, name) ↔ namesOf path = namesOf key ++ [name]
  ascending : entries.Pairwise fun a b => compare a.name.utf8 b.name.utf8 = .lt
  nodup : (entries.map Entry.name).Nodup

theorem parentFile_eq_some_iff {all names : List Text} (allNames : AreNames all)
    (areNames : AreNames names) (name : Text) :
    parentFile (ofNames all) = some (ofNames names, name) ↔ all = names ++ [name] := by
  rcases List.eq_nil_or_concat' all with rfl | ⟨front, last, rfl⟩
  · simp
  · rw [parentFile_ofNames allNames, Option.some.injEq, Prod.mk.injEq,
      ofNames_inj (areNames_concat.mp allNames).1 areNames, List.append_singleton_inj]

theorem Sound.lists_childrenOf {names : List Text} (sound : Sound m) (areNames : AreNames names) :
    Lists m (ofNames names) (m.childrenOf (ofNames names)) := by
  have before := childrenOf_ascending sound areNames
  refine ⟨fun entry => ?_, fun {path name node} found => ?_, before.imp fun {a b} less => ?_, ?_⟩
  · rw [mem_childrenOf sound areNames]
    constructor
    · rintro ⟨isName, node, found, kind, inode⟩
      exact ⟨_, node, found, parentFile_ofNames (areNames_concat.mpr ⟨areNames, isName⟩), kind,
        inode⟩
    · rintro ⟨path, node, found, split, kind, inode⟩
      obtain ⟨all, allNames, rfl⟩ := sound.areNames found
      rw [parentFile_eq_some_iff allNames areNames] at split
      subst split
      exact ⟨(areNames_concat.mp allNames).2, node, found, kind, inode⟩
  · obtain ⟨all, allNames, rfl⟩ := sound.areNames found
    rw [parentFile_eq_some_iff allNames areNames, namesOf_ofNames allNames,
      namesOf_ofNames areNames]
  · rw [Text.compare_utf8]
    exact less
  · exact List.pairwise_map.mpr (before.imp Entry.Before.name_ne)

/-- The directory that a path leads into is shorter than the path, so it can be named. -/
theorem resolve_parent {path name : Text} {names : List Text}
    (resolved : resolve top path = .ok (ofNames (names ++ [name])))
    (areNames : AreNames (names ++ [name])) :
    resolve top (ofNames names) = .ok (ofNames names) := by
  obtain ⟨above, isName⟩ := areNames_concat.mp areNames
  have bound := byteLength_of_resolve resolved
  have longer := byteLength_ofNames_concat names isName
  refine resolve_ofNames top above (nul_not_mem_ofNames fun other member => ?_) (by omega)
  apply nul_not_mem_of_resolve resolved
  rw [namesOf_ofNames areNames]
  exact List.mem_append_left _ member

theorem Sound.contains_iff_listed {names : List Text} {name : Text} (sound : Sound m)
    (areNames : AreNames (names ++ [name]))
    (resolved : resolve Path.top (ofNames names) = .ok (ofNames names)) :
    m.nodes.contains (ofNames (names ++ [name])) = true ↔
      ∃ entries, ((list (ofNames names)).run m).answer = .ok entries ∧
        name ∈ entries.map Entry.name := by
  obtain ⟨above, isName⟩ := areNames_concat.mp areNames
  rw [SortedMap.contains, Option.isSome_iff_exists]
  constructor
  · rintro ⟨node, found⟩
    refine ⟨_, list_of_isDirectory resolved (sound.isDirectory_above areNames found), ?_⟩
    have listed : ⟨name, node.kind, node.inode⟩ ∈ m.childrenOf (ofNames names) :=
      (mem_childrenOf sound above _).mpr ⟨isName, node, found, rfl, rfl⟩
    exact List.mem_map_of_mem listed
  · rintro ⟨entries, answer, member⟩
    obtain ⟨key, same, -, rfl⟩ := list_eq_ok answer
    cases resolved.symm.trans same
    obtain ⟨entry, listed, rfl⟩ := List.mem_map.mp member
    obtain ⟨-, node, found, -⟩ := (mem_childrenOf sound above entry).mp listed
    exact ⟨node, found⟩

/-- A directory is listed as it is, and a path leads to something exactly if its directory can be
listed and has its name. That directory has a path that can be resolved, also if the path itself is
a byte too long for that. -/
theorem lists_agree (reachable : Reachable m) (path key : Text)
    (resolved : resolve top path = .ok key) :
    (m.IsDirectory key → ∃ entries, ((list path).run m).answer = .ok entries ∧
      Lists m key entries) ∧
    (key ≠ top → ∃ parent name, parentFile key = some (parent, name) ∧
      fileName key = some name ∧ resolve top parent = .ok parent ∧
      (((holds path).run m).answer = true ↔
        ∃ entries, ((list parent).run m).answer = .ok entries ∧
          name ∈ entries.map Entry.name)) := by
  have sound := reachable.sound
  have atKey := run_holds_ok m resolved
  obtain ⟨names, rfl, areNames, -⟩ := resolve_top_eq_ok resolved
  refine ⟨fun directory => ⟨_, list_of_isDirectory resolved directory,
    sound.lists_childrenOf areNames⟩, fun notTop => ?_⟩
  rcases List.eq_nil_or_concat' names with rfl | ⟨front, last, rfl⟩
  · exact absurd ofNames_nil notTop
  · have split := parentFile_ofNames areNames
    have short := resolve_parent resolved areNames
    refine ⟨_, last, split, by rw [fileName, split, Option.map_some], short, ?_⟩
    rw [atKey]
    exact sound.contains_iff_listed areNames short

/-- Neither the sibling `/ab` nor the file in `/a/d` is on the list of `/a`. -/
theorem lists_agree_with_prefixed_sibling :
    let text (s : String) : Text := s.toList
    let m := ((history [.makeDirectory (text "a"), .files (.create (text "ab")),
      .files (.create (text "a/é")), .makeDirectory (text "a/d"),
      .files (.create (text "a/d/x"))]).run initial).state
    Reachable m ∧ resolve top (text "d/../a") = .ok (text "/a") ∧ m.IsDirectory (text "/a") ∧
    text "/a" ≠ top ∧
    Lists m (text "/a") [⟨text "d", .directory, 5⟩, ⟨text "é", .regular, 4⟩] ∧
    ∃ parent name, parentFile (text "/a") = some (parent, name) ∧
      resolve top parent = .ok parent := by
  intro text m
  have reachable : Reachable m := ⟨_, rfl⟩
  have resolved : resolve top (text "d/../a") = .ok (text "/a") := by decide +kernel
  have found : m.nodes.get? (text "/a") = some ⟨2, .directory, []⟩ := by decide +kernel
  have directory : m.IsDirectory (text "/a") := ⟨_, found, rfl⟩
  have notTop : text "/a" ≠ top := by decide
  have answer : ((list (text "d/../a")).run m).answer =
      .ok [⟨text "d", .directory, 5⟩, ⟨text "é", .regular, 4⟩] := by decide +kernel
  obtain ⟨listed, above⟩ := lists_agree reachable (text "d/../a") (text "/a") resolved
  obtain ⟨entries, same, lists⟩ := listed directory
  have shown := Except.ok.inj (same.symm.trans answer)
  obtain ⟨parent, name, split, -, short, -⟩ := above notTop
  exact ⟨reachable, resolved, directory, notTop, shown ▸ lists, parent, name, split, short⟩

end FileRemoval.Memory
