import Mathlib.Data.List.Induction
import Mathlib.Data.List.Nodup
import FileRemoval.Memory.Walk
import FileRemoval.Proofs.Memory.Listing
import FileRemoval.Proofs.Path.Canonical

/-! # Walking a store

A walk lists the top directory and then every directory that turns up. It comes to an end, and finds
every node but the top once: a directory whose path is too long to be listed has no entries. -/

namespace FileRemoval.Memory

open Path

variable {m : Memory} {names : List Text} {key : Text}

/-! ### Listing a directory by its path -/

theorem childPath_ofNames (areNames : AreNames names) (name : Text) :
    childPath (ofNames names) name = ofNames (names ++ [name]) := by
  cases names with
  | nil =>
    rw [ofNames_nil, childPath, if_pos rfl]
    simp [ofNames, joined, top]
  | cons first rest =>
    have notTop : ofNames (first :: rest) ≠ top :=
      mt (ofNames_eq_top areNames).mp (List.cons_ne_nil first rest)
    rw [childPath, if_neg notTop, ofNames_concat_of_ne_nil name (List.cons_ne_nil first rest)]

theorem list_eq_ok {path : Text} {entries : List Entry}
    (h : ((list path).run m).answer = .ok entries) :
    ∃ key, resolve top path = .ok key ∧ m.IsDirectory key ∧ entries = m.childrenOf key := by
  cases resolved : resolve top path with
  | error cause =>
    rw [list, run_resolving_error listAt m resolved] at h
    cases h
  | ok key =>
    rw [list, run_resolving_ok listAt m resolved] at h
    simp only [Step.run, listAt] at h
    cases found : m.nodes.get? key with
    | none =>
      rw [found] at h
      cases h
    | some node =>
      rw [found] at h
      dsimp only at h
      cases kind : node.kind with
      | regular =>
        rw [kind] at h
        cases h
      | directory =>
        rw [kind] at h
        cases h
        exact ⟨key, rfl, ⟨node, found, kind⟩, rfl⟩

theorem list_of_isDirectory {path : Text} (resolved : resolve top path = .ok key)
    (directory : m.IsDirectory key) :
    ((list path).run m).answer = .ok (m.childrenOf key) := by
  obtain ⟨node, found, kind⟩ := directory
  rw [list, run_resolving_ok listAt m resolved]
  simp only [Step.run, listAt, found, kind]
  rfl

theorem Sound.nul_not_mem (sound : Sound m) {node : Node}
    (found : m.nodes.get? key = some node) : '\x00' ∉ key := by
  obtain ⟨names, clean, rfl, -⟩ := sound.keys key node found
  exact nul_not_mem_ofNames fun name member => (clean name member).2

theorem Sound.resolve_key (sound : Sound m) {node : Node}
    (found : m.nodes.get? key = some node) (short : key.byteLength ≤ maxLength) :
    resolve Path.top key = .ok key := by
  have noNul := sound.nul_not_mem found
  obtain ⟨names, areNames, rfl⟩ := sound.areNames found
  exact resolve_ofNames Path.top areNames noNul short

theorem Sound.list_key (sound : Sound m) (directory : m.IsDirectory key)
    (short : key.byteLength ≤ maxLength) :
    ((list key).run m).answer = .ok (m.childrenOf key) := by
  have ⟨_, found, _⟩ := directory
  exact list_of_isDirectory (sound.resolve_key found short) directory

theorem Sound.list_long_key (sound : Sound m) {node : Node}
    (found : m.nodes.get? key = some node) (long : maxLength < key.byteLength) :
    ((list key).run m).answer = .error .nameTooLong := by
  have noNul := sound.nul_not_mem found
  have nonempty : key ≠ [] := by
    rintro rfl
    exact absurd long (by decide)
  have refused : resolve Path.top key = .error .nameTooLong := by
    rw [resolve, validate, if_neg (not_or.mpr ⟨nonempty, noNul⟩), if_pos long]
  rw [list, run_resolving_error listAt m refused]
  rfl

/-! ### Entries and the nodes above them -/

/-- There is a node of that kind at the path, under that number. -/
def HasNode (m : Memory) (path : Text) (kind : Kind) (inode : Nat) : Prop :=
  ∃ node, m.nodes.get? path = some node ∧ node.kind = kind ∧ node.inode = inode

/-- The directory at `names` has the node that the entry tells of. -/
def HasEntry (m : Memory) (names : List Text) (entry : Entry) : Prop :=
  IsName entry.name ∧ m.HasNode (ofNames (names ++ [entry.name])) entry.kind entry.inode

/-- A node other than the top has a name in some directory. -/
theorem Sound.exists_concat (sound : Sound m) {node : Node}
    (found : m.nodes.get? key = some node) (notTop : key ≠ Path.top) :
    ∃ above name, AreNames (above ++ [name]) ∧ key = ofNames (above ++ [name]) := by
  obtain ⟨all, areNames, rfl⟩ := sound.areNames found
  rcases List.eq_nil_or_concat' all with rfl | ⟨above, name, rfl⟩
  · exact absurd ofNames_nil notTop
  · exact ⟨above, name, areNames, rfl⟩

theorem Sound.isDirectory_above (sound : Sound m) {name : Text} {node : Node}
    (areNames : AreNames (names ++ [name]))
    (found : m.nodes.get? (ofNames (names ++ [name])) = some node) :
    m.IsDirectory (ofNames names) := by
  obtain ⟨parent, last, split, directory⟩ :=
    sound.parents _ node found (ofNames_concat_ne_top areNames)
  rw [parentFile_ofNames areNames] at split
  cases split
  exact directory

theorem Sound.byteLength_above (sound : Sound m) {name : Text} {node : Node} (isName : IsName name)
    (found : m.nodes.get? (ofNames (names ++ [name])) = some node) :
    (ofNames names).byteLength ≤ maxLength := by
  obtain ⟨-, -, -, bound⟩ := sound.keys _ node found
  have longer := byteLength_ofNames_concat names isName
  omega

/-- Every node on the way to another is a directory. -/
theorem Sound.isDirectory_of_below (sound : Sound m) {more : List Text} {node : Node}
    (areNames : AreNames (names ++ more)) (nonempty : more ≠ [])
    (found : m.nodes.get? (ofNames (names ++ more)) = some node) :
    m.IsDirectory (ofNames names) := by
  induction more using List.reverseRecOn generalizing node with
  | nil => exact absurd rfl nonempty
  | append_singleton front last ih =>
    rw [← List.append_assoc] at areNames found
    have above := sound.isDirectory_above areNames found
    by_cases isFirst : front = []
    · rw [isFirst, List.append_nil] at above
      exact above
    · obtain ⟨parent, parentFound, -⟩ := above
      exact ih (areNames_concat.mp areNames).1 isFirst parentFound

/-- No node lies in a directory that is too long to be listed. -/
theorem Sound.parentFile_ne_long (sound : Sound m) {child name : Text} {node : Node}
    (long : maxLength < key.byteLength) (found : m.nodes.get? child = some node) :
    parentFile child ≠ some (key, name) := by
  intro split
  have notTop : child ≠ Path.top := by
    rintro rfl
    cases split
  obtain ⟨above, last, areNames, rfl⟩ := sound.exists_concat found notTop
  rw [parentFile_ofNames areNames] at split
  cases split
  have short := sound.byteLength_above (areNames_concat.mp areNames).2 found
  omega

theorem entriesOf_of_error {directory : Text} {cause : FileError}
    (answer : ((list directory).run m).answer = .error cause) : m.entriesOf directory = [] := by
  rw [Step.run] at answer
  rw [entriesOf, answer]

theorem entriesOf_of_ok {directory : Text} {entries : List Entry}
    (answer : ((list directory).run m).answer = .ok entries) : m.entriesOf directory = entries := by
  rw [Step.run] at answer
  rw [entriesOf, answer]

/-- What a caller finds in a directory is all that lies in it, whatever is at its path. -/
theorem Sound.entriesOf_eq (sound : Sound m) (areNames : AreNames names) :
    m.entriesOf (ofNames names) = m.childrenOf (ofNames names) := by
  cases answer : ((list (ofNames names)).run m).answer with
  | ok entries =>
    obtain ⟨key, resolved, -, same⟩ := list_eq_ok answer
    obtain ⟨-, -, -, canonical⟩ := resolve_eq_ok.mp resolved
    rw [canonicalize_ofNames Path.top areNames] at canonical
    cases canonical
    rw [entriesOf_of_ok answer, same]
  | error cause =>
    rw [entriesOf_of_error answer]
    refine (List.eq_nil_iff_forall_not_mem.mpr fun entry member => ?_).symm
    obtain ⟨isName, node, found, -⟩ := (mem_childrenOf sound areNames entry).mp member
    have listed := sound.list_key
      (sound.isDirectory_above (areNames_concat.mpr ⟨areNames, isName⟩) found)
      (sound.byteLength_above isName found)
    rw [answer] at listed
    cases listed

theorem Sound.mem_entriesOf (sound : Sound m) (areNames : AreNames names) {entry : Entry} :
    entry ∈ m.entriesOf (ofNames names) ↔ m.HasEntry names entry := by
  rw [sound.entriesOf_eq areNames]
  exact mem_childrenOf sound areNames entry

/-! ### What a walk finds -/

/-- What a walk finds of one entry: the entry and, if that is a directory, all below it. -/
def walkEntry (m : Memory) (depth : Nat) (directory : Text) (entry : Entry) :
    List (Text × Entry) :=
  (childPath directory entry.name, entry) ::
    match entry.kind with
    | .regular => []
    | .directory => m.walkFrom depth (childPath directory entry.name)

theorem walkFrom_succ (m : Memory) (depth : Nat) (directory : Text) :
    m.walkFrom (depth + 1) directory =
      (m.entriesOf directory).flatMap (m.walkEntry depth directory) := rfl

section

variable {entry : Entry} (depth : Nat) (directory : Text)

theorem walkEntry_of_regular (kind : entry.kind = .regular) :
    m.walkEntry depth directory entry = [(childPath directory entry.name, entry)] := by
  rw [walkEntry, kind]

theorem walkEntry_of_directory (kind : entry.kind = .directory) :
    m.walkEntry depth directory entry =
      (childPath directory entry.name, entry) ::
        m.walkFrom depth (childPath directory entry.name) := by
  rw [walkEntry, kind]

end

theorem mem_walkEntry (areNames : AreNames names) {depth : Nat} {entry : Entry}
    {f : Text × Entry} :
    f ∈ m.walkEntry depth (ofNames names) entry ↔ f = (ofNames (names ++ [entry.name]), entry) ∨
      entry.kind = .directory ∧ f ∈ m.walkFrom depth (ofNames (names ++ [entry.name])) := by
  rw [walkEntry, childPath_ofNames areNames, List.mem_cons]
  cases entry.kind <;> simp

/-- A walk finds what lies below a directory, down to its depth. -/
theorem Sound.mem_walkFrom (sound : Sound m) (areNames : AreNames names) (depth : Nat)
    {f : Text × Entry} :
    f ∈ m.walkFrom depth (ofNames names) ↔ ∃ below, below.length < depth ∧
      AreNames (names ++ below) ∧ f.1 = ofNames (names ++ below ++ [f.2.name]) ∧
      m.HasEntry (names ++ below) f.2 := by
  induction depth generalizing names with
  | zero => simp [walkFrom]
  | succ depth ih =>
    simp only [walkFrom_succ, List.mem_flatMap, sound.mem_entriesOf areNames,
      mem_walkEntry areNames]
    constructor
    · rintro ⟨entry, has, rfl | ⟨-, deeper⟩⟩
      · exact ⟨[], Nat.succ_pos depth, by simpa using areNames, by simp, by simpa using has⟩
      · have areAll := areNames_concat.mpr ⟨areNames, has.1⟩
        obtain ⟨below, less, areBelow, path, hasBelow⟩ := (ih areAll).mp deeper
        have split : names ++ [entry.name] ++ below = names ++ entry.name :: below := by simp
        rw [split] at areBelow path hasBelow
        exact ⟨entry.name :: below, Nat.succ_lt_succ less, areBelow, path, hasBelow⟩
    · rintro ⟨below, less, areBelow, path, has⟩
      cases below with
      | nil =>
        rw [List.append_nil] at path has
        exact ⟨f.2, has, .inl (Prod.ext path rfl)⟩
      | cons first rest =>
        -- the walk goes down by the first name, which is that of a directory
        have split : names ++ first :: rest = names ++ [first] ++ rest := by simp
        rw [split] at areBelow path has
        have areFirst := (areNames_append.mp areBelow).1
        have ⟨isName, _, found, _⟩ := has
        have areAll := areNames_concat.mpr ⟨areBelow, isName⟩
        rw [List.append_assoc] at areAll found
        have directory : m.IsDirectory (ofNames (names ++ [first])) :=
          sound.isDirectory_of_below areAll (by simp) found
        obtain ⟨node, nodeFound, kind⟩ := directory
        refine ⟨⟨first, .directory, node.inode⟩,
          ⟨(areNames_concat.mp areFirst).2, node, nodeFound, kind, rfl⟩, .inr ⟨rfl, ?_⟩⟩
        exact (ih areFirst).mpr ⟨rest, Nat.lt_of_succ_lt_succ less, areBelow, path, has⟩

theorem Sound.path_of_mem_walkEntry (sound : Sound m) (areNames : AreNames names) {depth : Nat}
    {entry : Entry} (isName : IsName entry.name) {f : Text × Entry}
    (member : f ∈ m.walkEntry depth (ofNames names) entry) :
    ∃ more, AreNames (names ++ entry.name :: more) ∧
      f.1 = ofNames (names ++ entry.name :: more) := by
  have areAll := areNames_concat.mpr ⟨areNames, isName⟩
  rcases (mem_walkEntry areNames).mp member with rfl | ⟨-, deeper⟩
  · exact ⟨[], areAll, rfl⟩
  · obtain ⟨below, -, areBelow, path, has⟩ := (sound.mem_walkFrom areAll depth).mp deeper
    have split : names ++ [entry.name] ++ below ++ [f.2.name] =
        names ++ entry.name :: (below ++ [f.2.name]) := by simp
    refine ⟨below ++ [f.2.name], ?_, by rw [path, split]⟩
    rw [← split]
    exact areNames_concat.mpr ⟨areBelow, has.1⟩

/-- What is found of two entries of one directory has no path in common. -/
theorem Sound.ne_of_mem_walkEntry (sound : Sound m) (areNames : AreNames names) {depth : Nat}
    {a b : Entry} (isName : IsName a.name) (isName' : IsName b.name) (apart : a.name ≠ b.name)
    {f g : Text × Entry} (first : f ∈ m.walkEntry depth (ofNames names) a)
    (second : g ∈ m.walkEntry depth (ofNames names) b) : f.1 ≠ g.1 := by
  intro same
  obtain ⟨more, areMore, path⟩ := sound.path_of_mem_walkEntry areNames isName first
  obtain ⟨more', areMore', path'⟩ := sound.path_of_mem_walkEntry areNames isName' second
  rw [path, path', ofNames_inj areMore areMore', List.append_cancel_left_eq] at same
  exact apart (List.cons.inj same).1

theorem Sound.ne_of_mem_walkFrom (sound : Sound m) (areNames : AreNames names) {depth : Nat}
    {f : Text × Entry} (member : f ∈ m.walkFrom depth (ofNames names)) : ofNames names ≠ f.1 := by
  intro same
  obtain ⟨below, -, areBelow, path, has⟩ := (sound.mem_walkFrom areNames depth).mp member
  rw [path, ofNames_inj areNames (areNames_concat.mpr ⟨areBelow, has.1⟩)] at same
  simp at same

/-- No path turns up twice. -/
theorem Sound.walkFrom_distinct (sound : Sound m) (areNames : AreNames names) (depth : Nat) :
    (m.walkFrom depth (ofNames names)).Pairwise fun f g => f.1 ≠ g.1 := by
  induction depth generalizing names with
  | zero => exact .nil
  | succ depth ih =>
    rw [walkFrom_succ, List.pairwise_flatMap]
    constructor
    · intro entry member
      have has := (sound.mem_entriesOf areNames).mp member
      have areAll := areNames_concat.mpr ⟨areNames, has.1⟩
      cases kind : entry.kind with
      | regular =>
        rw [walkEntry_of_regular depth _ kind]
        exact List.pairwise_singleton _ _
      | directory =>
        rw [walkEntry_of_directory depth _ kind, childPath_ofNames areNames]
        exact List.pairwise_cons.mpr ⟨fun g => sound.ne_of_mem_walkFrom areAll, ih areAll⟩
    · rw [sound.entriesOf_eq areNames]
      refine (childrenOf_ascending sound areNames).imp_of_mem fun first second before => ?_
      rw [mem_childrenOf sound areNames] at first second
      exact fun f ofFirst g ofSecond =>
        sound.ne_of_mem_walkEntry areNames first.1 second.1 before.name_ne ofFirst ofSecond

/-! ### Walks without a bound on the depth -/

/-- What a walk finds from a directory down that goes on for as long as there are directories to
list: nothing if the directory cannot be listed, and else its entries, each of them that is a
directory with what the walk found below it. -/
inductive Visits (m : Memory) : Text → List (Text × Entry) → Prop
  | refused {directory : Text} {cause : FileError}
      (answer : ((list directory).run m).answer = .error cause) : Visits m directory []
  | listed {directory : Text} {entries : List Entry} (below : Text → List (Text × Entry))
      (answer : ((list directory).run m).answer = .ok entries)
      (visited : ∀ entry ∈ entries, entry.kind = .directory →
        Visits m (childPath directory entry.name) (below (childPath directory entry.name))) :
      Visits m directory (entries.flatMap fun entry =>
        (childPath directory entry.name, entry) ::
          match entry.kind with
          | .regular => []
          | .directory => below (childPath directory entry.name))

theorem Visits.unique {directory : Text} {found other : List (Text × Entry)}
    (h : Visits m directory found) (h' : Visits m directory other) : found = other := by
  induction h generalizing other with
  | refused answer =>
    cases h' with
    | refused => rfl
    | listed below answer' =>
      rw [answer] at answer'
      cases answer'
  | listed below answer visited ih =>
    cases h' with
    | refused answer' =>
      rw [answer] at answer'
      cases answer'
    | listed below' answer' visited' =>
      rw [answer] at answer'
      cases answer'
      refine List.flatMap_congr fun entry member => ?_
      cases kind : entry.kind with
      | regular => rfl
      | directory =>
        have same := ih entry member kind (visited' entry member kind)
        dsimp only
        rw [same]

/-- The depth that a walk needs is what the path may still grow by. -/
theorem Sound.visits_walkFrom (sound : Sound m) (areNames : AreNames names) {depth : Nat}
    (deep : maxLength < depth + (ofNames names).byteLength) :
    Visits m (ofNames names) (m.walkFrom depth (ofNames names)) := by
  induction depth generalizing names with
  | zero =>
    cases answer : ((list (ofNames names)).run m).answer with
    | error cause => exact .refused answer
    | ok entries =>
      obtain ⟨key, resolved, -⟩ := list_eq_ok answer
      obtain ⟨-, -, short, -⟩ := resolve_eq_ok.mp resolved
      omega
  | succ depth ih =>
    rw [walkFrom_succ]
    cases answer : ((list (ofNames names)).run m).answer with
    | error cause =>
      rw [entriesOf_of_error answer]
      exact .refused answer
    | ok entries =>
      rw [entriesOf_of_ok answer]
      refine .listed (m.walkFrom depth) answer fun entry member _ => ?_
      rw [← entriesOf_of_ok answer, sound.mem_entriesOf areNames] at member
      have longer := byteLength_ofNames_concat names member.1
      rw [childPath_ofNames areNames]
      exact ih (areNames_concat.mpr ⟨areNames, member.1⟩) (by omega)

/-- A walk from the top comes to an end, and always in the same way. -/
theorem Sound.visits_iff (sound : Sound m) {found : List (Text × Entry)} :
    Visits m Path.top found ↔ found = m.walk := by
  have visited : Visits m Path.top m.walk :=
    sound.visits_walkFrom areNames_nil (by rw [ofNames_nil]; decide)
  constructor
  · exact fun h => h.unique visited
  · rintro rfl
    exact visited

/-! ### The walk from the top -/

/-- A walk from the top finds every node but the top itself. -/
theorem Sound.mem_walk (sound : Sound m) {path : Text} {entry : Entry} :
    (path, entry) ∈ m.walk ↔ path ≠ Path.top ∧ fileName path = some entry.name ∧
      m.HasNode path entry.kind entry.inode := by
  have found_iff := sound.mem_walkFrom (f := (path, entry)) areNames_nil (maxLength + 1)
  simp only [List.nil_append] at found_iff
  refine found_iff.trans ?_
  constructor
  · rintro ⟨above, -, areAbove, rfl, isName, found⟩
    have areAll := areNames_concat.mpr ⟨areAbove, isName⟩
    refine ⟨ofNames_concat_ne_top areAll, ?_, found⟩
    rw [fileName, parentFile_ofNames areAll]
    rfl
  · rintro ⟨notTop, named, node, found, same⟩
    obtain ⟨-, -, -, short⟩ := sound.keys path node found
    obtain ⟨above, name, areNames, rfl⟩ := sound.exists_concat found notTop
    rw [fileName, parentFile_ofNames areNames] at named
    obtain rfl : name = entry.name := Option.some.inj named
    obtain ⟨areAbove, isName⟩ := areNames_concat.mp areNames
    -- every name takes a byte of the path at least
    have levels := length_le_weight (above ++ [entry.name])
    rw [byteLength_ofNames (by simp)] at short
    rw [List.length_append, List.length_singleton] at levels
    exact ⟨above, by omega, areAbove, rfl, isName, node, found, same⟩

theorem Sound.walk_distinct (sound : Sound m) : m.walk.Pairwise fun f g => f.1 ≠ g.1 :=
  sound.walkFrom_distinct areNames_nil (maxLength + 1)

/-! ### The dump -/

theorem dump_perm (m : Memory) : m.dump.Perm m.walk :=
  List.mergeSort_perm m.walk _

/-- A dump is in the order of its paths, each path once. -/
theorem Sound.dump_ascending (sound : Sound m) :
    m.dump.Pairwise fun f g => compare f.1 g.1 = .lt := by
  have total : ∀ f g : Text × Entry,
      ((compare f.1 g.1).isLE || (compare g.1 f.1).isLE) = true := by
    intro f g
    have swapped : compare f.1 g.1 = (compare g.1 f.1).swap := Std.OrientedCmp.eq_swap
    rw [swapped]
    cases compare g.1 f.1 <;> rfl
  have ordered : m.dump.Pairwise fun f g => (compare f.1 g.1).isLE = true :=
    List.pairwise_mergeSort (fun _ _ _ => Std.TransCmp.isLE_trans) total m.walk
  have distinct : m.dump.Pairwise fun f g => f.1 ≠ g.1 :=
    (m.dump_perm.pairwise_iff Ne.symm).mpr sound.walk_distinct
  refine (ordered.and distinct).imp fun {f g} ⟨notAbove, apart⟩ => ?_
  rcases Ordering.isLE_iff_eq_lt_or_eq_eq.mp notAbove with below | same
  · exact below
  · exact absurd (Std.LawfulEqCmp.eq_of_compare same) apart

end FileRemoval.Memory
