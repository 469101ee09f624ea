import FileRemoval.FileSystem.Request
import FileRemoval.Host.Listing
import FileRemoval.Proofs.Host.Mirror
import FileRemoval.Proofs.Host.Session
import FileRemoval.Proofs.Step.Simulation

/-! # The host and the store in memory in lockstep

The same requests, made of a session on the host and of a store in memory that mirrors its root,
are answered alike and leave the two alike. There are two exceptions. They concern the cause that
is given for a failure, and on both sides nothing has changed. -/

namespace FileRemoval

open Path (AreNames namesOf ofNames resolve)
open Host (locationBelow pathBelow Readable)

/-! ### Requests that both sides can be asked -/

/-- A relative path that the host can read when it goes on from `root`. A path that is one name of
as many bytes as a path may have is too long for the host as a name. -/
structure Admissible (root : Bytes) (path : Text) : Prop where
  relative : Path.isRelative path = true
  notSingle : ¬ ('/' ∉ path ∧ path.byteLength = Path.maxLength)
  fits : ∀ key, resolve Path.top path = .ok key →
    (pathBelow root (namesOf key)).length < Host.pathRoom

/-- A single call with an admissible path, or with a handle. -/
def Request.IsAdmissible (root : Bytes) : Request → Prop
  | .create path => Admissible root path
  | .close _ => True
  | .remove path => Admissible root path
  | .holds path => Admissible root path
  | .run .. => False

theorem Admissible.readable {root : Bytes} {path : Text} {ns : List Text}
    (admissible : Admissible root path) (resolved : resolve Path.top path = .ok (ofNames ns))
    (areNames : AreNames ns) : Readable root ns := by
  obtain ⟨-, -, short, -⟩ := Path.resolve_eq_ok.mp resolved
  have fits := admissible.fits _ resolved
  rw [Path.namesOf_ofNames areNames] at fits
  obtain ⟨others, same, otherNames, inside, -⟩ := Path.resolve_top_eq_ok resolved
  rw [Path.ofNames_inj areNames otherNames] at same
  refine ⟨areNames, fun name member => ?_, fun name member => ?_, fits⟩
  · apply Path.nul_not_mem_of_resolve resolved
    rw [Path.namesOf_ofNames areNames]
    exact member
  · have piece := inside name (same ▸ member)
    rw [Path.steps_of_isRelative admissible.relative] at piece
    have bound := Path.byteLength_le_of_mem_pieces piece
    -- one name that long is all that the path has room for
    by_contra long
    have limits : Host.maxName + 1 = Path.maxLength := rfl
    have whole := Path.eq_of_mem_pieces piece (by omega)
    refine admissible.notSingle ⟨?_, by omega⟩
    rw [← whole]
    exact (areNames name member).slashless

/-! ### Where the answers differ -/

/-- A file lies on the way to `key`, above the directory that would hold it. -/
def Memory.FileAboveParent (m : Memory) (key : Text) : Prop :=
  ∃ above middle name, middle ≠ [] ∧ AreNames (above ++ (middle ++ [name])) ∧
    key = ofNames (above ++ (middle ++ [name])) ∧ m.IsFile (ofNames above)

/-- The requests that the host and a store in memory refuse for different causes, with the answer
of the host and that of the store. The host counts open files before it looks at the path, and it
meets a file where the store finds nothing. -/
inductive Diverges (m : Memory) : Request → Answer → Answer → Prop
  | tableFull {path key : Text} {cause : FileError} (resolved : resolve Path.top path = .ok key)
      (full : maxOpenFiles ≤ m.openHandles) (parent : m.checkParent key = .error cause) :
      Diverges m (.create path) (.opened (.error .tooManyOpenFiles)) (.opened (.error cause))
  | createBelowFile {path key : Text} (resolved : resolve Path.top path = .ok key)
      (room : m.openHandles < maxOpenFiles) (below : m.FileAboveParent key) :
      Diverges m (.create path) (.opened (.error .notADirectory)) (.opened (.error .notFound))
  | removeBelowFile {path key : Text} (resolved : resolve Path.top path = .ok key)
      (below : m.FileAboveParent key) :
      Diverges m (.remove path) (.settled (.error .notADirectory)) (.settled (.error .notFound))

variable {base : Location} {s : HostSession} {m : Memory}

/-- A request and what comes of it: the two sides mirror each other again, and either their answers
are the same and no exception applies, or one does and nothing has changed. -/
structure Agree (base : Location) (s : HostSession) (m : Memory) (request : Request)
    (answer : Answer) (s' : HostSession) (answer' : Answer) (m' : Memory) : Prop where
  mirrors : Mirrors base s' m'
  root : s'.store.root = s.store.root
  answers : (answer = answer' ∧ ∀ a b, ¬ Diverges m request a b) ∨
    (Diverges m request answer answer' ∧ s' = s ∧ m' = m)

theorem Agree.refused {request : Request} {answer : Answer} (mirrors : Mirrors base s m)
    (alike : ∀ a b, ¬ Diverges m request a b) : Agree base s m request answer s answer m :=
  ⟨mirrors, rfl, .inl ⟨rfl, alike⟩⟩

theorem Agree.diverged {request : Request} {answer answer' : Answer} (mirrors : Mirrors base s m)
    (diverges : Diverges m request answer answer') :
    Agree base s m request answer s answer' m :=
  ⟨mirrors, rfl, .inr ⟨diverges, rfl, rfl⟩⟩

/-! ### When the exceptions apply -/

theorem fileAboveParent_iff {parent : List Text} {name : Text}
    (areNames : AreNames (parent ++ [name])) :
    m.FileAboveParent (ofNames (parent ++ [name])) ↔
      ∃ above middle, middle ≠ [] ∧ parent = above ++ middle ∧ m.IsFile (ofNames above) := by
  constructor
  · rintro ⟨above, middle, last, nonempty, otherNames, same, file⟩
    rw [Path.ofNames_inj areNames otherNames, ← List.append_assoc] at same
    obtain ⟨split, -⟩ := List.append_inj' same rfl
    exact ⟨above, middle, nonempty, split, file⟩
  · rintro ⟨above, middle, nonempty, rfl, file⟩
    rw [List.append_assoc] at areNames ⊢
    exact ⟨above, middle, name, nonempty, areNames, rfl, file⟩

theorem not_fileAboveParent_top : ¬ m.FileAboveParent Path.top := by
  rintro ⟨above, middle, last, -, areNames, same, -⟩
  rw [← List.append_assoc] at areNames same
  exact Path.ofNames_concat_ne_top areNames same.symm

section

variable {parent : List Text} {name : Text}

/-- What has a directory or a file for a parent has no file above that. -/
theorem Mirrors.not_fileAboveParent (mirrors : Mirrors base s m)
    (areNames : AreNames (parent ++ [name])) (present : m.nodes.get? (ofNames parent) ≠ none) :
    ¬ m.FileAboveParent (ofNames (parent ++ [name])) := by
  rw [fileAboveParent_iff areNames]
  rintro ⟨above, middle, nonempty, rfl, file⟩
  have parentNames := (Path.areNames_concat.mp areNames).1
  have aboveNames := (Path.areNames_append.mp parentNames).1
  have there : (s.host.node? (base ++ (above.map Text.utf8 ++ middle.map Text.utf8))).isSome := by
    rw [← List.map_append]
    exact Option.isSome_iff_ne_none.mpr (mt (mirrors.tree.absent parentNames).mp present)
  have directory := mirrors.grows.directory_of_prefix (by simpa using nonempty) there
  exact Memory.not_isFile_of_isDirectory ((mirrors.tree.directory aboveNames).mp directory) file

/-- Where there is no parent, a walk of the host meets a file exactly if one lies above it. -/
theorem Mirrors.meetsFile_iff (mirrors : Mirrors base s m)
    (areNames : AreNames (parent ++ [name])) (absent : m.nodes.get? (ofNames parent) = none) :
    s.host.MeetsFile base (parent.map Text.utf8) ↔
      m.FileAboveParent (ofNames (parent ++ [name])) := by
  have parentNames := (Path.areNames_concat.mp areNames).1
  rw [fileAboveParent_iff areNames]
  constructor
  · rintro ⟨front, back, content, split, file⟩
    obtain ⟨above, middle, rfl, rfl, rfl⟩ := List.map_eq_append_iff.mp split
    have aboveNames := (Path.areNames_append.mp parentNames).1
    have isFile := (mirrors.tree.file aboveNames).mp ⟨content, file⟩
    refine ⟨above, middle, ?_, rfl, isFile⟩
    rintro rfl
    obtain ⟨node, found, -⟩ := isFile
    rw [List.append_nil, found] at absent
    cases absent
  · rintro ⟨above, middle, -, rfl, file⟩
    have aboveNames := (Path.areNames_append.mp parentNames).1
    obtain ⟨content, there⟩ := (mirrors.tree.file aboveNames).mpr file
    exact ⟨above.map Text.utf8, middle.map Text.utf8, content, List.map_append, there⟩

end

section

variable {path key : Text}

theorem not_diverges_create (resolved : resolve Path.top path = .ok key)
    (parent : maxOpenFiles ≤ m.openHandles → m.checkParent key = .ok ())
    (clear : m.openHandles < maxOpenFiles → ¬ m.FileAboveParent key) :
    ∀ a b, ¬ Diverges m (.create path) a b := by
  intro a b diverges
  cases diverges with
  | tableFull resolved' full failed =>
    rw [resolved] at resolved'
    cases resolved'
    rw [parent full] at failed
    cases failed
  | createBelowFile resolved' room below =>
    rw [resolved] at resolved'
    cases resolved'
    exact clear room below

theorem not_diverges_remove (resolved : resolve Path.top path = .ok key)
    (clear : ¬ m.FileAboveParent key) : ∀ a b, ¬ Diverges m (.remove path) a b := by
  intro a b diverges
  cases diverges with
  | removeBelowFile resolved' below =>
    rw [resolved] at resolved'
    cases resolved'
    exact clear below

theorem not_diverges_of_error {cause : FileError} (resolved : resolve Path.top path = .error cause) :
    ∀ a b, ¬ Diverges m (.create path) a b ∧ ¬ Diverges m (.remove path) a b := by
  refine fun a b => ⟨fun diverges => ?_, fun diverges => ?_⟩
  · cases diverges with
    | tableFull resolved' => rw [resolved] at resolved'; cases resolved'
    | createBelowFile resolved' => rw [resolved] at resolved'; cases resolved'
  · cases diverges with
    | removeBelowFile resolved' => rw [resolved] at resolved'; cases resolved'

end

/-! ### One request -/

theorem Mirrors.parent_cases {above : List Text} {name : Text} (mirrors : Mirrors base s m)
    (readable : Readable s.store.root (above ++ [name])) :
    (m.checkParent (ofNames (above ++ [name])) = .ok () ∧
      ¬ m.FileAboveParent (ofNames (above ++ [name])) ∧
      s.host.target (pathBelow s.store.root (above ++ [name])) =
        .ok (.entry (locationBelow base above) (Text.utf8 name))) ∨
    (∃ refusal, m.checkParent (ofNames (above ++ [name])) = .error (HostError.shown refusal) ∧
      ¬ m.FileAboveParent (ofNames (above ++ [name])) ∧
      s.host.target (pathBelow s.store.root (above ++ [name])) = .error refusal) ∨
    (m.checkParent (ofNames (above ++ [name])) = .error .notFound ∧
      m.FileAboveParent (ofNames (above ++ [name])) ∧
      s.host.target (pathBelow s.store.root (above ++ [name])) = .error .notADirectory) := by
  have areNames := readable.names
  have aboveNames := (Path.areNames_concat.mp areNames).1
  rcases Host.target_cases mirrors.root mirrors.grows readable with ⟨there, aimed⟩ |
    ⟨there, aimed⟩ | ⟨there, meets, aimed⟩ | ⟨there, clear, aimed⟩
  · have directory := (mirrors.tree.directory aboveNames).mp there
    have present := mt (mirrors.tree.absent aboveNames).mpr
      (by rw [there]; exact Option.some_ne_none _)
    have clear := mirrors.not_fileAboveParent areNames present
    exact .inl ⟨Memory.checkParent_of_isDirectory areNames directory, clear, aimed⟩
  · have file := (mirrors.tree.file aboveNames).mp there
    obtain ⟨content, isThere⟩ := there
    have present := mt (mirrors.tree.absent aboveNames).mpr
      (by rw [isThere]; exact Option.some_ne_none _)
    have clear := mirrors.not_fileAboveParent areNames present
    exact .inr (.inl ⟨.notADirectory, Memory.checkParent_of_isFile areNames file, clear, aimed⟩)
  · have absent := (mirrors.tree.absent aboveNames).mp there
    exact .inr (.inr ⟨Memory.checkParent_of_absent areNames absent,
      (mirrors.meetsFile_iff areNames absent).mp meets, aimed⟩)
  · have absent := (mirrors.tree.absent aboveNames).mp there
    exact .inr (.inl ⟨.noEntry, Memory.checkParent_of_absent areNames absent,
      mt (mirrors.meetsFile_iff areNames absent).mpr clear, aimed⟩)

section

variable {path : Text}

theorem Memory.create_of_ok {key : Text} (m : Memory) (resolved : resolve Path.top path = .ok key) :
    ((Memory.create path).run m).answer = ((Memory.createAt key).run m).answer ∧
      ((Memory.create path).run m).state = ((Memory.createAt key).run m).state := by
  rw [Memory.create, Memory.run_resolving_ok _ m resolved]
  exact ⟨rfl, rfl⟩

theorem Memory.remove_of_ok {key : Text} (m : Memory) (resolved : resolve Path.top path = .ok key) :
    ((Memory.remove path).run m).answer = ((Memory.removeAt key).run m).answer ∧
      ((Memory.remove path).run m).state = ((Memory.removeAt key).run m).state := by
  rw [Memory.remove, Memory.run_resolving_ok _ m resolved]
  exact ⟨rfl, rfl⟩

theorem agree_create_entry {above : List Text} {name : Text} (mirrors : Mirrors base s m)
    (readable : Readable s.store.root (above ++ [name]))
    (toOpen : (s.store.hostPathToOpen path).1 = .ok (pathBelow s.store.root (above ++ [name])))
    (resolved : resolve Path.top path = .ok (ofNames (above ++ [name])))
    (aimed : s.host.target (pathBelow s.store.root (above ++ [name])) =
      .ok (.entry (locationBelow base above) (Text.utf8 name)))
    (parent : m.checkParent (ofNames (above ++ [name])) = .ok ())
    (room : m.handles.occupied < maxOpenFiles)
    (alike : ∀ a b, ¬ Diverges m (.create path) a b) :
    Agree base s m (.create path)
      (.opened ((HostSession.create path).run s).answer) ((HostSession.create path).run s).state
      (.opened ((Memory.create path).run m).answer) ((Memory.create path).run m).state := by
  have areNames := readable.names
  have nonempty : above ++ [name] ≠ [] := by simp
  have reachable : ((Memory.create path).run m).state.Reachable :=
    mirrors.reachable.perform (.files (.create path))
  obtain ⟨created, left⟩ := Memory.create_of_ok m resolved
  rw [left] at reachable
  rw [created, left]
  have unslashed := Host.endsInSlash_pathBelow s.store.root areNames nonempty
  have location := Host.locationBelow_concat base above name
  by_cases isDirectory : m.IsDirectory (ofNames (above ++ [name]))
  · have blocked := (mirrors.tree.directory areNames).mpr isDirectory
    rw [location] at blocked
    obtain ⟨answer, state⟩ := HostSession.create_of_refusal toOpen
      (Host.openEmpty_of_directory aimed unslashed blocked)
    rw [answer, state, Memory.createAt_of_isDirectory parent room isDirectory]
    exact .refused mirrors alike
  · have notDirectory := mt (mirrors.tree.directory areNames).mp isDirectory
    have opened := Host.openEmpty_of_entry aimed unslashed (location ▸ notDirectory)
      (mirrors.free _)
    rw [← location] at opened
    obtain ⟨answer, state⟩ := HostSession.create_of_ok toOpen opened
    have index := mirrors.handles.index (pathBelow s.store.root (above ++ [name]))
      (ofNames (above ++ [name]))
    rw [answer, state, index]
    rcases m.node_cases (ofNames (above ++ [name])) with absent | ⟨node, found, regular⟩ | bad
    · rw [Memory.createAt_of_absent parent room absent] at reachable ⊢
      exact ⟨mirrors.opened areNames nonempty notDirectory reachable rfl
        (fun key => SortedMap.get?_insert m.nodes _ key _) rfl, rfl, .inl ⟨rfl, alike⟩⟩
    · rw [Memory.createAt_of_isFile parent room found regular] at reachable ⊢
      have size : Node.size? { node with data := [] } = some 0 := by
        simp only [Node.size?, regular]
        rfl
      exact ⟨mirrors.opened areNames nonempty notDirectory reachable size
        (fun key => SortedMap.get?_insert m.nodes _ key _) rfl, rfl, .inl ⟨rfl, alike⟩⟩
    · exact absurd bad isDirectory

theorem agree_create (mirrors : Mirrors base s m) (admissible : Admissible s.store.root path) :
    Agree base s m (.create path)
      (.opened ((HostSession.create path).run s).answer) ((HostSession.create path).run s).state
      (.opened ((Memory.create path).run m).answer) ((Memory.create path).run m).state := by
  have occupied := mirrors.handles.occupied
  cases resolved : resolve Path.top path with
  | error cause =>
    obtain ⟨answer, state⟩ := HostSession.create_of_error
      (HostStore.hostPathToOpen_of_error (HostStore.hostPath_of_error (s := s.store) resolved))
    rw [answer, state, Memory.create, Memory.run_resolving_error _ m resolved]
    exact .refused mirrors fun a b => (not_diverges_of_error resolved a b).1
  | ok key =>
    obtain ⟨ns, rfl, areNames, -⟩ := Path.resolve_top_eq_ok resolved
    have readable := admissible.readable resolved areNames
    have target := HostStore.hostPath_of_ok (s := s.store) resolved areNames
    rw [HostStore.anchor_of_isRelative admissible.relative] at target
    obtain ⟨created, left⟩ := Memory.create_of_ok m resolved
    -- the host asks for room before it looks at the path, the store after it found the parent
    by_cases full : maxOpenFiles ≤ m.handles.occupied
    · obtain ⟨answer, state⟩ := HostSession.create_of_error
        (HostStore.hostPathToOpen_of_full target (occupied ▸ full))
      rw [answer, state, created, left]
      cases parent : m.checkParent (ofNames ns) with
      | error cause =>
        rw [Memory.createAt_of_error parent]
        exact .diverged mirrors (.tableFull resolved full parent)
      | ok _ =>
        rw [Memory.createAt_of_full parent full]
        exact .refused mirrors (not_diverges_create resolved (fun _ => parent) fun room =>
          absurd full (Nat.not_le.mpr room))
    have room : m.handles.occupied < maxOpenFiles := by omega
    have notFull : maxOpenFiles ≤ m.openHandles → m.checkParent (ofNames ns) = .ok () :=
      fun isFull => absurd isFull full
    have toOpen := HostStore.hostPathToOpen_of_room target (by omega)
    rcases List.eq_nil_or_concat' ns with rfl | ⟨above, name, rfl⟩
    · obtain ⟨answer, state⟩ := HostSession.create_of_refusal toOpen
        (Host.openEmpty_root mirrors.root mirrors.grows.top readable)
      have parent : m.checkParent (ofNames []) = .error .isADirectory := m.checkParent_top
      rw [answer, state, created, left, Memory.createAt_of_error parent]
      exact .refused mirrors (not_diverges_create resolved notFull fun _ => not_fileAboveParent_top)
    rcases mirrors.parent_cases readable with ⟨parent, clear, aimed⟩ |
      ⟨refusal, parent, clear, aimed⟩ | ⟨parent, below, aimed⟩
    · exact agree_create_entry mirrors readable toOpen resolved aimed parent room
        (not_diverges_create resolved notFull fun _ => clear)
    · obtain ⟨answer, state⟩ := HostSession.create_of_refusal toOpen (Host.openEmpty_of_error aimed)
      rw [answer, state, created, left, Memory.createAt_of_error parent]
      exact .refused mirrors (not_diverges_create resolved notFull fun _ => clear)
    · obtain ⟨answer, state⟩ := HostSession.create_of_refusal toOpen (Host.openEmpty_of_error aimed)
      rw [answer, state, created, left, Memory.createAt_of_error parent]
      exact .diverged mirrors (.createBelowFile resolved room below)

theorem agree_remove_entry {above : List Text} {name : Text} (mirrors : Mirrors base s m)
    (readable : Readable s.store.root (above ++ [name]))
    (target : (s.store.hostPath path).1 = .ok (pathBelow s.store.root (above ++ [name])))
    (resolved : resolve Path.top path = .ok (ofNames (above ++ [name])))
    (aimed : s.host.target (pathBelow s.store.root (above ++ [name])) =
      .ok (.entry (locationBelow base above) (Text.utf8 name)))
    (parent : m.checkParent (ofNames (above ++ [name])) = .ok ())
    (alike : ∀ a b, ¬ Diverges m (.remove path) a b) :
    Agree base s m (.remove path)
      (.settled ((HostSession.remove path).run s).answer) ((HostSession.remove path).run s).state
      (.settled ((Memory.remove path).run m).answer) ((Memory.remove path).run m).state := by
  have areNames := readable.names
  have nonempty : above ++ [name] ≠ [] := by simp
  have reachable : ((Memory.remove path).run m).state.Reachable :=
    mirrors.reachable.perform (.files (.remove path))
  obtain ⟨removed, left⟩ := Memory.remove_of_ok m resolved
  rw [left] at reachable
  rw [removed, left]
  have location := Host.locationBelow_concat base above name
  rcases m.node_cases (ofNames (above ++ [name])) with absent | file | directory
  · have gone := (mirrors.tree.absent areNames).mpr absent
    rw [location] at gone
    obtain ⟨answer, state⟩ := HostSession.remove_of_refusal target (Host.unlink_of_absent aimed gone)
    rw [answer, state, Memory.removeAt_of_absent parent absent]
    exact .refused mirrors alike
  · obtain ⟨content, there⟩ := (mirrors.tree.file areNames).mpr file
    have notDirectory := mt (mirrors.tree.directory areNames).mp fun directory =>
      Memory.not_isFile_of_isDirectory directory file
    have unlinked := Host.unlink_of_file aimed
      (Host.endsInSlash_pathBelow s.store.root areNames nonempty) (location ▸ there) (mirrors.free _)
    rw [← location] at unlinked
    obtain ⟨answer, state⟩ := HostSession.remove_of_ok target unlinked
    rw [Memory.removeAt_of_isFile parent file] at reachable ⊢
    rw [answer, state]
    exact ⟨mirrors.dropped areNames nonempty notDirectory reachable, rfl, .inl ⟨rfl, alike⟩⟩
  · have blocked := (mirrors.tree.directory areNames).mpr directory
    rw [location] at blocked
    obtain ⟨answer, state⟩ := HostSession.remove_of_refusal target
      (Host.unlink_of_directory aimed blocked)
    rw [answer, state, Memory.removeAt_of_isDirectory parent directory]
    exact .refused mirrors alike

theorem agree_remove (mirrors : Mirrors base s m) (admissible : Admissible s.store.root path) :
    Agree base s m (.remove path)
      (.settled ((HostSession.remove path).run s).answer) ((HostSession.remove path).run s).state
      (.settled ((Memory.remove path).run m).answer) ((Memory.remove path).run m).state := by
  cases resolved : resolve Path.top path with
  | error cause =>
    obtain ⟨answer, state⟩ := HostSession.remove_of_error
      (HostStore.hostPath_of_error (s := s.store) resolved)
    rw [answer, state, Memory.remove, Memory.run_resolving_error _ m resolved]
    exact .refused mirrors fun a b => (not_diverges_of_error resolved a b).2
  | ok key =>
    obtain ⟨ns, rfl, areNames, -⟩ := Path.resolve_top_eq_ok resolved
    have readable := admissible.readable resolved areNames
    have target := HostStore.hostPath_of_ok (s := s.store) resolved areNames
    rw [HostStore.anchor_of_isRelative admissible.relative] at target
    obtain ⟨removed, left⟩ := Memory.remove_of_ok m resolved
    rcases List.eq_nil_or_concat' ns with rfl | ⟨above, name, rfl⟩
    · obtain ⟨answer, state⟩ := HostSession.remove_of_refusal target
        (Host.unlink_root mirrors.root mirrors.grows.top readable)
      have parent : m.checkParent (ofNames []) = .error .isADirectory := m.checkParent_top
      rw [answer, state, removed, left, Memory.removeAt_of_error parent]
      exact .refused mirrors (not_diverges_remove resolved not_fileAboveParent_top)
    rcases mirrors.parent_cases readable with ⟨parent, clear, aimed⟩ |
      ⟨refusal, parent, clear, aimed⟩ | ⟨parent, below, aimed⟩
    · exact agree_remove_entry mirrors readable target resolved aimed parent
        (not_diverges_remove resolved clear)
    · obtain ⟨answer, state⟩ := HostSession.remove_of_refusal target (Host.unlink_of_error aimed)
      rw [answer, state, removed, left, Memory.removeAt_of_error parent]
      exact .refused mirrors (not_diverges_remove resolved clear)
    · obtain ⟨answer, state⟩ := HostSession.remove_of_refusal target (Host.unlink_of_error aimed)
      rw [answer, state, removed, left, Memory.removeAt_of_error parent]
      exact .diverged mirrors (.removeBelowFile resolved below)

theorem agree_holds (mirrors : Mirrors base s m) (admissible : Admissible s.store.root path) :
    Agree base s m (.holds path)
      (.held ((HostSession.holds path).run s).answer) ((HostSession.holds path).run s).state
      (.held ((Memory.holds path).run m).answer) ((Memory.holds path).run m).state := by
  have alike : ∀ a b, ¬ Diverges m (.holds path) a b := fun a b diverges => nomatch diverges
  rw [HostSession.state_holds]
  cases resolved : resolve Path.top path with
  | error cause =>
    rw [HostSession.holds_of_error (HostStore.hostPath_of_error (s := s.store) resolved),
      Memory.run_holds_error m resolved]
    exact .refused mirrors alike
  | ok key =>
    obtain ⟨ns, rfl, areNames, -⟩ := Path.resolve_top_eq_ok resolved
    have readable := admissible.readable resolved areNames
    have target := HostStore.hostPath_of_ok (s := s.store) resolved areNames
    rw [HostStore.anchor_of_isRelative admissible.relative] at target
    have same : (s.host.node? (locationBelow base ns)).isSome = m.nodes.contains (ofNames ns) := by
      rw [SortedMap.contains, ← Option.isSome_map (f := Node.size?), ← mirrors.tree.nodes ns areNames,
        Option.isSome_map]
    rw [HostSession.holds_of_ok target, Host.holds_pathBelow mirrors.root mirrors.grows readable,
      same, Memory.run_holds_ok m resolved]
    exact .refused mirrors alike

end

theorem agree_close (mirrors : Mirrors base s m) (handle : Handle) :
    Agree base s m (.close handle)
      (.settled ((HostSession.close handle).run s).answer) ((HostSession.close handle).run s).state
      (.settled ((Memory.close handle).run m).answer) ((Memory.close handle).run m).state := by
  have alike : ∀ a b, ¬ Diverges m (.close handle) a b := fun a b diverges => nomatch diverges
  have reachable : ((Memory.close handle).run m).state.Reachable :=
    mirrors.reachable.perform (.files (.close handle))
  have bound := mirrors.handles handle.index
  rcases m.close_cases handle with ⟨free, failed⟩ | ⟨key, live, closed⟩
  · rw [free, Option.map_none, Option.map_eq_none_iff] at bound
    rcases s.close_cases handle with ⟨-, answer, state⟩ | ⟨taken, -, -⟩
    · rw [failed, answer, state]
      exact .refused mirrors alike
    · rw [bound] at taken
      cases taken
  · rcases s.close_cases handle with ⟨free, -, -⟩ | ⟨-, answer, state⟩
    · rw [free, live] at bound
      cases bound
    · rw [closed] at reachable ⊢
      rw [answer, state]
      exact ⟨mirrors.closed handle.index reachable, rfl, .inl ⟨rfl, alike⟩⟩

theorem agree_perform {request : Request} (mirrors : Mirrors base s m)
    (admissible : request.IsAdmissible s.store.root) :
    let host := (HostSession.fileSystem.perform request).run s
    let memory := (Memory.fileSystem.perform request).run m
    Agree base s m request host.answer host.state memory.answer memory.state := by
  cases request with
  | create path => exact agree_create mirrors admissible
  | close handle => exact agree_close mirrors handle
  | remove path => exact agree_remove mirrors admissible
  | holds path => exact agree_holds mirrors admissible
  | run createFirst paths room => exact absurd admissible id

/-! ### Where lockstep starts -/

theorem mirrors_initial {host : Host} {root : Bytes} (found : host.find root = .ok (.at base))
    (directory : host.node? base = some .directory)
    (empty : ∀ rest, rest ≠ [] → host.node? (base ++ rest) = none)
    (free : ∀ rest, host.refusalIn? (base ++ rest) = none) :
    Mirrors base ⟨.anchoredAt root, host⟩ Memory.initial where
  reachable := Memory.reachable_initial
  root := found
  free := free
  tree := by
    constructor
    · intro names areNames
      cases names with
      | nil =>
        rw [locationBelow, List.map_nil, List.append_nil, directory]
        rfl
      | cons first rest =>
        have below : ofNames (first :: rest) ≠ Path.top :=
          mt (Path.ofNames_eq_top areNames).mp (List.cons_ne_nil first rest)
        rw [locationBelow, empty _ (by simp), Memory.initial,
          SortedMap.get?_insert_of_ne _ _ below]
        rfl
    · intro rest there
      by_cases isBase : rest = []
      · exact ⟨[], Path.areNames_nil, isBase⟩
      · rw [empty rest isBase] at there
        cases there
  handles _ := rfl

theorem fits_of_root {root : Bytes} {path key : Text}
    (short : root.length + Path.maxLength + 1 < Host.pathRoom)
    (resolved : resolve Path.top path = .ok key) :
    (pathBelow root (namesOf key)).length < Host.pathRoom := by
  have bound := Path.byteLength_of_resolve resolved
  obtain ⟨ns, rfl, areNames, -⟩ := Path.resolve_top_eq_ok resolved
  have relative := HostPath.isAbsolute_utf8_joined areNames
  rw [Path.namesOf_ofNames areNames, pathBelow]
  have rest : (Text.utf8 (Path.joined ns)).length ≤ Path.maxLength := by
    have size : Char.utf8Size '/' = 1 := rfl
    rw [ofNames, Text.byteLength_cons, size] at bound
    rw [← Text.byteLength]
    omega
  have whole : (HostPath.join root (Text.utf8 (Path.joined ns))).length ≤
      root.length + (Text.utf8 (Path.joined ns)).length + 1 := by
    unfold HostPath.join
    rw [relative]
    split
    · rename_i bad
      cases bad
    · split
      · rw [List.length_append]
        omega
      · rw [List.length_append, List.length_cons]
        omega
  omega

/-! ### All requests -/

theorem Mirrors.performAll (mirrors : Mirrors base s m) {requests : List Request}
    (admissible : ∀ request ∈ requests, request.IsAdmissible s.store.root) :
    Mirrors base ((HostSession.fileSystem.performAll requests).run s).state
        ((Memory.fileSystem.performAll requests).run m).state ∧
      ((HostSession.fileSystem.performAll requests).run s).state.store.root = s.store.root := by
  induction requests generalizing s m with
  | nil => exact ⟨mirrors, rfl⟩
  | cons request rest ih =>
    have agree := agree_perform mirrors (admissible request List.mem_cons_self)
    -- what is admissible depends on the root alone
    have later : ∀ other ∈ rest, other.IsAdmissible
        ((HostSession.fileSystem.perform request).run s).state.store.root := by
      intro other member
      rw [agree.root]
      exact admissible other (List.mem_cons_of_mem request member)
    obtain ⟨kept, root⟩ := ih agree.mirrors later
    rw [FileSystem.state_performAll_cons, FileSystem.state_performAll_cons]
    exact ⟨kept, root.trans agree.root⟩

/-- From a session and a store in memory that mirror each other, any admissible requests keep them
so, and each request agrees on both sides at the point where it is made. -/
theorem lockstep (mirrors : Mirrors base s m) (requests : List Request)
    (admissible : ∀ request ∈ requests, request.IsAdmissible s.store.root) :
    Mirrors base ((HostSession.fileSystem.performAll requests).run s).state
      ((Memory.fileSystem.performAll requests).run m).state ∧
    ∀ earlier request later, requests = earlier ++ request :: later →
      let s' := ((HostSession.fileSystem.performAll earlier).run s).state
      let m' := ((Memory.fileSystem.performAll earlier).run m).state
      let host := (HostSession.fileSystem.perform request).run s'
      let memory := (Memory.fileSystem.perform request).run m'
      Mirrors base s' m' ∧
        Agree base s' m' request host.answer host.state memory.answer memory.state := by
  refine ⟨(mirrors.performAll admissible).1, ?_⟩
  rintro earlier request later rfl
  obtain ⟨before, root⟩ := mirrors.performAll fun other member =>
    admissible other (List.mem_append_left _ member)
  have here := admissible request (List.mem_append_right _ List.mem_cons_self)
  exact ⟨before, agree_perform before (root ▸ here)⟩

theorem lockstep_on_empty_directory :
    let srv := Text.utf8 "srv".toList
    let s : HostSession :=
      ⟨.anchoredAt (Text.utf8 "/srv".toList), Host.bare.addDirectory [srv]⟩
    let requests : List Request :=
      [.create "f".toList, .create "f/x/y".toList, .remove "./f".toList, .close ⟨0⟩]
    Mirrors [srv] s Memory.initial ∧
      (∀ request ∈ requests, request.IsAdmissible s.store.root) ∧
      Mirrors [srv] ((HostSession.fileSystem.performAll requests).run s).state
        ((Memory.fileSystem.performAll requests).run Memory.initial).state := by
  intro srv s requests
  have mirrors : Mirrors [srv] s Memory.initial := by
    refine mirrors_initial (by decide) (by decide) (fun rest nonempty => ?_) (fun rest => rfl)
    have apart : [srv] ++ rest ≠ [srv] := by simpa using nonempty
    exact SortedMap.get?_insert_of_ne ∅ _ apart
  have admissible : ∀ request ∈ requests, request.IsAdmissible s.store.root := by
    intro request member
    simp only [requests, List.mem_cons, List.not_mem_nil, or_false] at member
    rcases member with rfl | rfl | rfl | rfl
    · exact ⟨by decide, by decide, fun key => fits_of_root (by decide)⟩
    · exact ⟨by decide, by decide, fun key => fits_of_root (by decide)⟩
    · exact ⟨by decide, by decide, fun key => fits_of_root (by decide)⟩
    · trivial
  exact ⟨mirrors, admissible, (lockstep mirrors requests admissible).1⟩

end FileRemoval
