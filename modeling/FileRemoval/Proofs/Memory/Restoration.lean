import FileRemoval.Proofs.Memory.Removal
import FileRemoval.Proofs.Memory.Walk
import FileRemoval.Proofs.Text.Order

/-! # Restoring a store from its dump

A dump is in the order of the bytes of its paths, and there a directory comes before all that lies
in it. So the nodes can be made again one line after the other, on a store that is new. -/

namespace FileRemoval.Memory

open Path

variable {m r : Memory} {names : List Text} {key : Text}

/-! ### Restoring -/

/-- Makes the node that a line of a dump tells of. Its path is taken from the top directory,
without the slash in front, which may be one byte too many. -/
def restoreNode (path : Text) : Kind → Step Memory (Except FileError Unit)
  | .directory => makeDirectory (path.drop 1)
  | .regular => do
    match ← create (path.drop 1) with
    | .error cause => pure (.error cause)
    | .ok handle => close handle

def restore (lines : List (Text × Entry)) : Step Memory (List (Except FileError Unit)) :=
  lines.mapM fun f => restoreNode f.1 f.2.kind

/-- The paths that a walk found, and what is there. -/
def outline (found : List (Text × Entry)) : List (Text × Kind) :=
  found.map fun f => (f.1, f.2.kind)

def kindAt (m : Memory) (path : Text) : Option Kind :=
  (m.nodes.get? path).map Node.kind

theorem kindAt_eq_some {path : Text} {kind : Kind} :
    m.kindAt path = some kind ↔ ∃ node, m.nodes.get? path = some node ∧ node.kind = kind :=
  Option.map_eq_some_iff

theorem kindAt_addNode (m : Memory) (key path : Text) (kind : Kind) (handles : SlotTable Text) :
    kindAt { m.addNode key kind with handles } path =
      if path = key then some kind else m.kindAt path := by
  simp only [kindAt, addNode, SortedMap.get?_insert]
  split <;> rfl

/-- What a sound store has at a path can be told from its dump. -/
theorem Sound.kindAt_eq_some_iff (sound : Sound m) {path : Text} {kind : Kind} :
    m.kindAt path = some kind ↔ (path = Path.top ∧ kind = .directory) ∨
      ∃ entry, (path, entry) ∈ m.dump ∧ entry.kind = kind := by
  simp only [kindAt_eq_some, m.dump_perm.mem_iff, sound.mem_walk]
  constructor
  · rintro ⟨node, found, rfl⟩
    by_cases isTop : path = Path.top
    · obtain ⟨topNode, topFound, directory, -⟩ := sound.top
      rw [isTop, topFound] at found
      cases found
      exact .inl ⟨isTop, directory⟩
    · obtain ⟨parent, name, split, -⟩ := sound.parents path node found isTop
      refine .inr ⟨⟨name, node.kind, node.inode⟩, ⟨isTop, ?_, node, found, rfl, rfl⟩, rfl⟩
      rw [fileName, split]
      rfl
  · rintro (⟨rfl, rfl⟩ | ⟨entry, ⟨-, -, node, found, same, -⟩, rfl⟩)
    · obtain ⟨node, found, directory, -⟩ := sound.top
      exact ⟨node, found, directory⟩
    · exact ⟨node, found, same⟩

/-! ### One line -/

theorem keeps_restoreNode (path : Text) (kind : Kind) :
    Step.Keeps Sound WithinTable (restoreNode path kind) := by
  cases kind with
  | directory => exact keeps_makeDirectory (path.drop 1)
  | regular =>
    refine .bind (keeps_fileSystem.create (path.drop 1)) fun created => ?_
    cases created with
    | error cause => exact .pure _
    | ok handle => exact keeps_close handle

/-- A node can be made where its directory is and it is not, and no handle stays open. -/
theorem run_restoreNode {path : Text} (resolved : resolve top (path.drop 1) = .ok key)
    (parent : m.checkParent key = .ok ()) (absent : m.nodes.get? key = none)
    (room : m.handles.occupied < maxOpenFiles) (kind : Kind) :
    ((restoreNode path kind).run m).answer = .ok () ∧
      ∃ handles, ((restoreNode path kind).run m).state = { m.addNode key kind with handles } ∧
        ∀ index, handles.get? index = m.handles.get? index := by
  cases kind with
  | directory =>
    rw [restoreNode, makeDirectory, run_resolving_ok makeDirectoryAt m resolved,
      makeDirectoryAt_of_absent parent absent]
    exact ⟨rfl, m.handles, rfl, fun _ => rfl⟩
  | regular =>
    have created : (create (path.drop 1)).run m = ⟨((m.addNode key .regular).openAt key).answer,
        ((m.addNode key .regular).openAt key).state,
        .resolved (path.drop 1) key :: ((m.addNode key .regular).openAt key).events⟩ := by
      rw [create, run_resolving_ok createAt m resolved, createAt_of_absent parent room absent]
    cases opened : ((m.addNode key .regular).openAt key).answer with
    | error cause => cases opened
    | ok handle =>
      have live := live_of_openAt opened
      obtain ⟨handles, state, same⟩ := close_openAt _ key opened
      rw [restoreNode, Step.run_bind, created, opened]
      refine ⟨?_, handles, state, same⟩
      rcases close_cases ((m.addNode key .regular).openAt key).state handle with
        ⟨free, -⟩ | ⟨target, -, closed⟩
      · rw [live] at free
        cases free
      · dsimp only
        rw [closed]
        rfl

/-! ### All lines -/

/-- A store with the nodes that some lines tell of, and no others, and no open file. -/
structure Restored (lines : List (Text × Entry)) (r : Memory) : Prop where
  sound : Sound r
  closed : ∀ index, r.handles.get? index = none
  kinds : ∀ path kind, r.kindAt path = some kind ↔ (path = Path.top ∧ kind = .directory) ∨
    ∃ entry, (path, entry) ∈ lines ∧ entry.kind = kind

theorem restored_initial : Restored [] initial where
  sound := sound_initial
  closed := SlotTable.get?_empty
  kinds path kind := by
    rw [kindAt, initial, SortedMap.get?_insert]
    by_cases isTop : path = Path.top <;> simp [isTop, eq_comm]

theorem Restored.room {lines : List (Text × Entry)} (h : Restored lines r) :
    r.handles.occupied < maxOpenFiles := by
  have none : r.handles.occupied = (∅ : SortedMap Nat Text).size :=
    SlotTable.occupied_eq_size (f := id) fun index => by rw [h.closed index]; rfl
  rw [none]
  decide

/-- What comes before a line in the order of the paths is on an earlier line. -/
theorem mem_front_of_lt {front rest : List (Text × Entry)} {f g : Text × Entry}
    (ascending : (front ++ f :: rest).Pairwise fun a b => compare a.1 b.1 = .lt)
    (member : g ∈ front ++ f :: rest) (before : compare g.1 f.1 = .lt) : g ∈ front := by
  obtain ⟨-, later, -⟩ := List.pairwise_append.mp ascending
  have after := (List.pairwise_cons.mp later).1
  rcases List.mem_append.mp member with early | late
  · exact early
  · rcases List.mem_cons.mp late with rfl | late
    · rw [Std.ReflOrd.compare_self] at before
      cases before
    · rw [Std.OrientedCmp.gt_of_lt (after g late)] at before
      cases before

/-- The directory of a line is on an earlier line, or it is the top. -/
theorem Restored.isDirectory_above (sound : Sound m) {front rest : List (Text × Entry)}
    {f : Text × Entry} {name : Text} (areNames : AreNames (names ++ [name]))
    (path : f.1 = ofNames (names ++ [name])) (dump : front ++ f :: rest = m.dump)
    (h : Restored front r) (above : m.IsDirectory (ofNames names)) :
    r.IsDirectory (ofNames names) := by
  by_cases atTop : names = []
  · obtain ⟨node, found, directory, -⟩ := h.sound.top
    rw [atTop]
    exact ⟨node, found, directory⟩
  · rcases sound.kindAt_eq_some_iff.mp (kindAt_eq_some.mpr above) with
      ⟨isTop, -⟩ | ⟨entry, member, kind⟩
    · exact absurd ((ofNames_eq_top (areNames_concat.mp areNames).1).mp isTop) atTop
    · have ascending := sound.dump_ascending
      rw [← dump] at member ascending
      have early := mem_front_of_lt ascending member
        (by rw [path]; exact compare_ofNames_lt_concat name atTop)
      exact kindAt_eq_some.mp ((h.kinds _ _).mpr (.inr ⟨entry, early, kind⟩))

theorem Restored.kinds_concat {front : List (Text × Entry)} {f : Text × Entry}
    {handles : SlotTable Text} (h : Restored front r) (notTop : f.1 ≠ Path.top)
    (noLine : ∀ entry, (f.1, entry) ∉ front) (path : Text) (kind : Kind) :
    kindAt { r.addNode f.1 f.2.kind with handles } path = some kind ↔
      (path = Path.top ∧ kind = .directory) ∨
        ∃ entry, (path, entry) ∈ front ++ [f] ∧ entry.kind = kind := by
  rw [kindAt_addNode]
  by_cases isHere : path = f.1
  · rw [if_pos isHere, isHere]
    constructor
    · intro same
      exact .inr ⟨f.2, List.mem_append_right front List.mem_cons_self, Option.some.inj same⟩
    · rintro (⟨isTop, -⟩ | ⟨entry, member, rfl⟩)
      · exact absurd isTop notTop
      · rcases List.mem_append.mp member with early | last
        · exact absurd early (noLine entry)
        · rw [← List.mem_singleton.mp last]
  · have others : ∀ entry, (path, entry) ∈ front ++ [f] ↔ (path, entry) ∈ front := by
      intro entry
      rw [List.mem_append, List.mem_singleton, or_iff_left]
      rintro rfl
      exact isHere rfl
    rw [if_neg isHere, h.kinds]
    simp only [others]

/-- No line before one has the same path. -/
theorem Sound.not_mem_front (sound : Sound m) {front rest : List (Text × Entry)}
    {f : Text × Entry} (dump : front ++ f :: rest = m.dump) (entry : Entry) :
    (f.1, entry) ∉ front := by
  intro early
  have ascending := sound.dump_ascending
  rw [← dump] at ascending
  have twice := (List.pairwise_append.mp ascending).2.2 _ early f List.mem_cons_self
  rw [Std.ReflOrd.compare_self] at twice
  cases twice

theorem Restored.absent {lines : List (Text × Entry)} {path : Text} (h : Restored lines r)
    (notTop : path ≠ Path.top) (noLine : ∀ entry, (path, entry) ∉ lines) :
    r.nodes.get? path = none := by
  cases there : r.nodes.get? path with
  | none => rfl
  | some node =>
    rcases (h.kinds path node.kind).mp (kindAt_eq_some.mpr ⟨node, there, rfl⟩) with
      ⟨isTop, -⟩ | ⟨entry, member, -⟩
    · exact absurd isTop notTop
    · exact absurd member (noLine entry)

/-- The next line of a dump can be restored once those before it have been. -/
theorem Restored.concat (sound : Sound m) {front rest : List (Text × Entry)} {f : Text × Entry}
    (dump : front ++ f :: rest = m.dump) (h : Restored front r) :
    ((restoreNode f.1 f.2.kind).run r).answer = .ok () ∧
      Restored (front ++ [f]) ((restoreNode f.1 f.2.kind).run r).state := by
  have member : f ∈ m.dump := by
    rw [← dump]
    exact List.mem_append_right front List.mem_cons_self
  obtain ⟨notTop, -, node, found, -⟩ := sound.mem_walk.mp (m.dump_perm.mem_iff.mp member)
  obtain ⟨-, -, -, short⟩ := sound.keys f.1 node found
  have noNul := sound.nul_not_mem found
  have noLine := sound.not_mem_front dump
  have absent := h.absent notTop noLine
  obtain ⟨above, name, areNames, path⟩ := sound.exists_concat found notTop
  rw [path] at short noNul found
  have resolved : resolve Path.top (f.1.drop 1) = .ok f.1 := by
    rw [path]
    exact resolve_joined areNames (by simp) noNul short
  have parent : r.checkParent f.1 = .ok () := by
    rw [path]
    exact checkParent_of_isDirectory areNames
      (h.isDirectory_above sound areNames path dump (sound.isDirectory_above areNames found))
  obtain ⟨made, handles, state, same⟩ := run_restoreNode resolved parent absent h.room f.2.kind
  have kept := (keeps_restoreNode f.1 f.2.kind r h.sound).1
  rw [state] at kept ⊢
  exact ⟨made, kept, fun index => (same index).trans (h.closed index),
    h.kinds_concat notTop noLine⟩

theorem Restored.append (sound : Sound m) {front rest : List (Text × Entry)}
    (dump : front ++ rest = m.dump) (h : Restored front r) :
    ((restore rest).run r).answer = rest.map (fun _ => .ok ()) ∧
      Restored m.dump ((restore rest).run r).state := by
  induction rest generalizing front r with
  | nil =>
    rw [List.append_nil] at dump
    rw [← dump]
    exact ⟨rfl, h⟩
  | cons f rest ih =>
    obtain ⟨made, next⟩ := h.concat sound dump
    obtain ⟨answers, last⟩ := ih (by rw [← dump, List.append_assoc]; rfl) next
    rw [restore] at answers
    rw [restore, List.mapM_cons, Step.run_bind, Step.run_bind, made]
    refine ⟨?_, last⟩
    dsimp only
    rw [answers]
    rfl

/-- All of a dump can be restored on a new store, which then has the same at every path. -/
theorem Sound.restore_dump (sound : Sound m) :
    let restored := (restore m.dump).run initial
    restored.answer = m.dump.map (fun _ => .ok ()) ∧ Sound restored.state ∧
      ∀ path, restored.state.kindAt path = m.kindAt path := by
  intro restored
  obtain ⟨answers, last⟩ := restored_initial.append sound (List.nil_append m.dump)
  refine ⟨answers, last.sound, fun path => Option.ext fun kind => ?_⟩
  rw [last.kinds, sound.kindAt_eq_some_iff]

/-! ### Walks of stores with the same nodes -/

/-- The name of an entry and what it is, without the number. -/
def unnumbered (entry : Entry) : Text × Kind :=
  (entry.name, entry.kind)

theorem Sound.mem_map_unnumbered (sound : Sound m) (areNames : AreNames names) {name : Text}
    {kind : Kind} :
    (name, kind) ∈ (m.childrenOf (ofNames names)).map unnumbered ↔
      IsName name ∧ m.kindAt (ofNames (names ++ [name])) = some kind := by
  rw [List.mem_map, kindAt_eq_some]
  constructor
  · rintro ⟨entry, member, line⟩
    obtain ⟨isName, node, found, same, -⟩ := (mem_childrenOf sound areNames entry).mp member
    cases line
    exact ⟨isName, node, found, same⟩
  · rintro ⟨isName, node, found, same⟩
    exact ⟨⟨name, kind, node.inode⟩,
      (mem_childrenOf sound areNames _).mpr ⟨isName, node, found, same, rfl⟩, rfl⟩

theorem Sound.map_unnumbered_eq (sound : Sound m) (sound' : Sound r)
    (same : ∀ path, r.kindAt path = m.kindAt path) (areNames : AreNames names) :
    (r.childrenOf (ofNames names)).map unnumbered =
      (m.childrenOf (ofNames names)).map unnumbered := by
  have ascending {s : Memory} (sound : Sound s) :
      ((s.childrenOf (ofNames names)).map unnumbered).Pairwise fun a b => compare a.1 b.1 = .lt :=
    List.pairwise_map.mpr (childrenOf_ascending sound areNames)
  -- as maps from names to kinds the two have the same entries
  have maps : (⟨_, ascending sound'⟩ : SortedMap Text Kind) = ⟨_, ascending sound⟩ := by
    refine SortedMap.ext_get? fun name => Option.ext fun kind => ?_
    rw [SortedMap.get?_eq_some_iff, SortedMap.get?_eq_some_iff,
      sound'.mem_map_unnumbered areNames, sound.mem_map_unnumbered areNames, same]
  exact congrArg SortedMap.entries maps

/-- The part of an outline that comes from one entry. -/
def outlineEntry (m : Memory) (depth : Nat) (directory : Text) (line : Text × Kind) :
    List (Text × Kind) :=
  (childPath directory line.1, line.2) ::
    match line.2 with
    | .regular => []
    | .directory => outline (m.walkFrom depth (childPath directory line.1))

theorem outline_walkFrom_succ (m : Memory) (depth : Nat) (directory : Text) :
    outline (m.walkFrom (depth + 1) directory) =
      ((m.entriesOf directory).map unnumbered).flatMap (m.outlineEntry depth directory) := by
  rw [walkFrom_succ, outline, List.map_flatMap, List.flatMap_map]
  refine List.flatMap_congr fun entry _ => ?_
  rw [walkEntry, outlineEntry, unnumbered, List.map_cons]
  cases entry.kind <;> rfl

/-- Walks of two stores that have the same at every path find the same. -/
theorem Sound.outline_walkFrom_eq (sound : Sound m) (sound' : Sound r)
    (same : ∀ path, r.kindAt path = m.kindAt path) (areNames : AreNames names) (depth : Nat) :
    outline (r.walkFrom depth (ofNames names)) = outline (m.walkFrom depth (ofNames names)) := by
  induction depth generalizing names with
  | zero => rfl
  | succ depth ih =>
    rw [outline_walkFrom_succ, outline_walkFrom_succ, sound'.entriesOf_eq areNames,
      sound.entriesOf_eq areNames, sound.map_unnumbered_eq sound' same areNames]
    refine List.flatMap_congr fun ⟨name, kind⟩ member => ?_
    have isName := ((sound.mem_map_unnumbered areNames).mp member).1
    have below := ih (areNames_concat.mpr ⟨areNames, isName⟩)
    simp only [outlineEntry, childPath_ofNames areNames, below]

/-! ### Dump and restoration -/

/-- Whatever was asked of a store, a walk from the top comes to an end, in one way only, and finds
every node but the top once, with its kind and its number. A directory is listed unless its path is
too long, and then it has no entries. The dump is the walk in the order of the bytes of the paths.
Restored line by line on a new store, without the slash in front of each path, no line of it fails,
and a walk of what is there then finds the same paths with the same kinds. -/
theorem dump_restores (requests : List Request) :
    let m := ((history requests).run initial).state
    let restored := (restore m.dump).run initial
    (∀ found, Visits m Path.top found ↔ found = m.walk) ∧
    (∀ path entry, (path, entry) ∈ m.walk ↔ path ≠ Path.top ∧ fileName path = some entry.name ∧
      m.HasNode path entry.kind entry.inode) ∧
    (m.walk.map (·.1)).Nodup ∧
    (∀ key, m.IsDirectory key →
      (key.byteLength ≤ maxLength → ((list key).run m).answer = .ok (m.childrenOf key)) ∧
      (maxLength < key.byteLength → ((list key).run m).answer = .error .nameTooLong ∧
        ∀ child node name, m.nodes.get? child = some node → parentFile child ≠ some (key, name))) ∧
    m.dump.Perm m.walk ∧
    (m.dump.map (·.1.utf8)).Pairwise (compare · · = .lt) ∧
    restored.answer = m.dump.map (fun _ => .ok ()) ∧
    Visits restored.state Path.top restored.state.walk ∧
    outline restored.state.walk = outline m.walk := by
  intro m restored
  have sound : Sound m := Reachable.sound ⟨requests, rfl⟩
  obtain ⟨answers, soundAfter, same⟩ := sound.restore_dump
  refine ⟨fun found => sound.visits_iff, fun path entry => sound.mem_walk,
    List.pairwise_map.mpr sound.walk_distinct, fun key directory => ⟨?_, fun long => ⟨?_, ?_⟩⟩,
    m.dump_perm, ?_, answers, soundAfter.visits_iff.mpr rfl,
    sound.outline_walkFrom_eq soundAfter same areNames_nil (maxLength + 1)⟩
  · exact sound.list_key directory
  · obtain ⟨node, found, -⟩ := directory
    exact sound.list_long_key found long
  · exact fun child node name found => sound.parentFile_ne_long long found
  · refine List.pairwise_map.mpr (sound.dump_ascending.imp fun {f g} before => ?_)
    rw [Text.compare_utf8]
    exact before

/-- The two orders differ: `!` comes before the slash. -/
example :
    let m := ((history [.makeDirectory "d".toList, .files (.create "d/f".toList),
      .makeDirectory "d!".toList]).run initial).state
    outline m.walk =
      [("/d".toList, .directory), ("/d/f".toList, .regular), ("/d!".toList, .directory)] ∧
    outline m.dump =
      [("/d".toList, .directory), ("/d!".toList, .directory), ("/d/f".toList, .regular)] := by
  cbv

end FileRemoval.Memory
