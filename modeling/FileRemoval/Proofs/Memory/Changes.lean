import FileRemoval.Proofs.Memory.Removal

/-! # What requests change among the nodes

A request that succeeds makes one change among the nodes of a store, or none; a run of the remover
that succeeds has taken a file away. Facts about nodes that hold along every history follow from
what each change does. -/

namespace FileRemoval.Memory

open Path

inductive Change where
  | nothing
  | created (key : Text)
  | madeDirectory (key : Text)
  | written (key : Text) (data : Bytes)
  | removed (key : Text)
deriving DecidableEq, Repr

def Change.at (path : Text) (change : Text → Change) : Change :=
  match resolve top path with
  | .error _ => .nothing
  | .ok key => change key

/-- The change that a request has made in the store `m`, told from its answer. What is written goes
to the file that the handle is open on at the time. -/
def changeOf (m : Memory) : Request → Answer → Change
  | .files (.create path), .files (.opened (.ok _)) => .at path .created
  | .files (.remove path), .files (.settled (.ok ())) => .at path .removed
  | .files (.run _ [path] _), .files (.ended .success _) => .at path .removed
  | .makeDirectory path, .made (.ok ()) => .at path .madeDirectory
  | .write handle data, .wrote (.ok _) =>
    match m.handles.get? handle.index with
    | none => .nothing
    | some key => .written key data
  | _, _ => .nothing

theorem Change.at_of_ok {path key : Text} (resolved : resolve top path = .ok key)
    (change : Text → Change) : Change.at path change = change key := by
  simp only [Change.at, resolved]

/-- Where a change leads from the store `m`, and under what conditions it is made. -/
inductive Leads (m : Memory) : Change → Memory → Prop where
  | nothing (handles : SlotTable Text) : Leads m .nothing { m with handles }
  | added {key : Text} (handles : SlotTable Text) : m.checkParent key = .ok () →
      m.nodes.get? key = none → Leads m (.created key) { m.addNode key .regular with handles }
  | emptied {key : Text} {node : Node} (handles : SlotTable Text) :
      m.nodes.get? key = some node → node.kind = .regular →
      Leads m (.created key) { m.setData key node [] with handles }
  | madeDirectory {key : Text} : m.checkParent key = .ok () → m.nodes.get? key = none →
      Leads m (.madeDirectory key) (m.addNode key .directory)
  | written {key : Text} {node : Node} {data : Bytes} : m.nodes.get? key = some node →
      node.kind = .regular →
      Leads m (.written key data) (m.setData key node (node.data ++ data))
  | removed {key : Text} (handles : SlotTable Text) : m.checkParent key = .ok () →
      ¬ m.IsDirectory key →
      Leads m (.removed key)
        ⟨m.nodes.erase key, handles, m.nextInode + if m.nodes.contains key then 0 else 1⟩

theorem Leads.refl (m : Memory) : Leads m .nothing m :=
  .nothing m.handles

/-! ### The node that a change touches -/

def Change.key? : Change → Option Text
  | .nothing => none
  | .created key => some key
  | .madeDirectory key => some key
  | .written key _ => some key
  | .removed key => some key

section

variable {m m' : Memory} {c : Change} {key : Text}

theorem Leads.get?_of_ne (leads : Leads m c m') (apart : c.key? ≠ some key) :
    m'.nodes.get? key = m.nodes.get? key := by
  have differs {other : Text} (h : some other ≠ some key) : key ≠ other :=
    fun same => h (congrArg some same.symm)
  cases leads with
  | nothing => rfl
  | added => exact SortedMap.get?_insert_of_ne _ _ (differs apart)
  | emptied => exact SortedMap.get?_insert_of_ne _ _ (differs apart)
  | madeDirectory => exact SortedMap.get?_insert_of_ne _ _ (differs apart)
  | written => exact SortedMap.get?_insert_of_ne _ _ (differs apart)
  | removed => exact SortedMap.get?_erase_of_ne _ (differs apart)

theorem not_isDirectory_of_absent (absent : m.nodes.get? key = none) : ¬ m.IsDirectory key := by
  rintro ⟨node, found, -⟩
  rw [absent] at found
  cases found

theorem Leads.not_isDirectory (leads : Leads m c m') (touched : c.key? = some key) :
    ¬ m.IsDirectory key := by
  have ofFile {other : Text} {node : Node} (found : m.nodes.get? other = some node)
      (regular : node.kind = .regular) : ¬ m.IsDirectory other :=
    fun directory => not_isFile_of_isDirectory directory ⟨node, found, regular⟩
  cases leads with
  | nothing => cases touched
  | added _ _ absent =>
    cases touched
    exact not_isDirectory_of_absent absent
  | emptied _ found regular =>
    cases touched
    exact ofFile found regular
  | madeDirectory _ absent =>
    cases touched
    exact not_isDirectory_of_absent absent
  | written found regular =>
    cases touched
    exact ofFile found regular
  | removed _ _ notDirectory =>
    cases touched
    exact notDirectory

end

/-! ### One request -/

/-- An operation fails and leaves the store `m`, or it makes the change. -/
def Makes {α : Type} (m : Memory) (c : Change) (o : Outcome Memory (Except FileError α)) : Prop :=
  (∃ cause, o.answer = .error cause ∧ o.state = m) ∨
  ∃ a, o.answer = .ok a ∧ Leads m c o.state

theorem Makes.leads {α : Type} {m : Memory} {c : Change}
    {o : Outcome Memory (Except FileError α)} (makes : Makes m c o)
    (told : Except FileError α → Change) (onError : ∀ cause, told (.error cause) = .nothing)
    (onOk : ∀ a, told (.ok a) = c) : Leads m (told o.answer) o.state := by
  rcases makes with ⟨cause, failed, same⟩ | ⟨a, done, leads⟩
  · rw [failed, onError, same]
    exact .refl m
  · rw [done, onOk]
    exact leads

theorem makes_resolving {α : Type} {m : Memory} {act : Text → Step Memory (Except FileError α)}
    {change : Text → Change} (makes : ∀ key, Makes m (change key) ((act key).run m))
    (path : Text) : Makes m (.at path change) ((resolving path act).run m) := by
  cases resolved : resolve top path with
  | error cause =>
    rw [run_resolving_error act m resolved]
    exact .inl ⟨cause, rfl, rfl⟩
  | ok key =>
    rw [run_resolving_ok act m resolved, Change.at_of_ok resolved]
    exact makes key

theorem makes_createAt (m : Memory) (key : Text) :
    Makes m (.created key) ((createAt key).run m) := by
  rcases createAt_cases m key with ⟨cause, failed⟩ | ⟨parent, -, absent, made⟩ |
    ⟨node, -, -, found, regular, emptied⟩
  · rw [failed]
    exact .inl ⟨cause, rfl, rfl⟩
  · rw [made]
    exact .inr ⟨_, rfl, .added _ parent absent⟩
  · rw [emptied]
    exact .inr ⟨_, rfl, .emptied _ found regular⟩

theorem makes_makeDirectoryAt (m : Memory) (key : Text) :
    Makes m (.madeDirectory key) ((makeDirectoryAt key).run m) := by
  rcases makeDirectoryAt_cases m key with ⟨cause, failed⟩ | ⟨parent, absent, made⟩
  · rw [failed]
    exact .inl ⟨cause, rfl, rfl⟩
  · rw [made]
    exact .inr ⟨(), rfl, .madeDirectory parent absent⟩

theorem Touched.leads_dropAt {m m' : Memory} {key : Text} (touched : Touched m m' key)
    (parent : m.checkParent key = .ok ()) (notDirectory : ¬ m.IsDirectory key) :
    Leads m (.removed key) (m'.dropAt key).state := by
  have left : (m'.dropAt key).state = ⟨m.nodes.erase key, (m'.handles.retain (· ≠ key)).1,
      m.nextInode + if m.nodes.contains key then 0 else 1⟩ := by
    rw [← touched.nodes_erase, ← touched.nextInode]
    rfl
  rw [left]
  exact .removed _ parent notDirectory

theorem makes_removeAt (m : Memory) (key : Text) :
    Makes m (.removed key) ((removeAt key).run m) := by
  rcases removeAt_cases m key with ⟨cause, failed⟩ | ⟨parent, file, dropped⟩
  · rw [failed]
    exact .inl ⟨cause, rfl, rfl⟩
  · rw [dropped]
    exact .inr ⟨(), rfl, (Touched.of_isFile file).leads_dropAt parent
      fun directory => not_isFile_of_isDirectory directory file⟩

theorem not_isDirectory_of_removable {m : Memory} {createFirst : Bool} {key : Text}
    (removable : m.Removable createFirst key) : ¬ m.IsDirectory key := by
  intro directory
  rcases removable.2.2 with file | ⟨-, absent, -⟩
  · exact not_isFile_of_isDirectory directory file
  · exact not_isDirectory_of_absent absent directory

theorem changeOf_of_failure (m : Memory) (createFirst : Bool) (paths : List Text)
    (room : Option Nat) (output : Bytes) :
    changeOf m (.files (.run createFirst paths room)) (.files (.ended .failure output)) =
      .nothing := by
  cases paths with
  | nil => rfl
  | cons first rest => cases rest <;> rfl

theorem leads_run (m : Memory) (createFirst : Bool) (paths : List Text) (room : Option Nat) :
    let o := (Remover.run ⟨fileSystem, createFirst⟩ paths (.ofLimit room)).run m
    Leads m (changeOf m (.files (.run createFirst paths room))
      (.files (.ended o.answer.1 o.answer.2.taken))) o.state := by
  intro o
  by_cases one : ∃ path, paths = [path]
  · obtain ⟨path, rfl⟩ := one
    obtain ⟨answer, state⟩ := Remover.run_one ⟨fileSystem, createFirst⟩ path (.ofLimit room) m
    rw [remove_eq] at answer state
    rcases removal_cases m createFirst path with
      ⟨key, resolved, removable, touched, removed, dropped⟩ | ⟨cause, same, failed, kept, -⟩
    · have exit : o.answer.1 = .success := by
        rw [show o.answer = _ from answer, removed]
        rfl
      rw [exit, show o.state = _ from state, dropped]
      simp only [changeOf, Change.at_of_ok resolved]
      exact touched.leads_dropAt (checkParent_of_removable removable)
        (not_isDirectory_of_removable removable)
    · have exit : o.answer.1 = .failure := by
        rw [show o.answer = _ from answer, same, failed]
        rfl
      rw [exit, changeOf_of_failure, show o.state = _ from state, same, kept]
      exact .refl m
  · have notOne : ∀ path, paths ≠ [path] := fun path same => one ⟨path, same⟩
    obtain ⟨failed, same⟩ :=
      Remover.run_not_one ⟨fileSystem, createFirst⟩ (.ofLimit room) m notOne
    rw [show o.answer.1 = .failure from failed, changeOf_of_failure, show o.state = m from same]
    exact .refl m

theorem Sound.leads_write {m : Memory} (sound : Sound m) (handle : Handle) (data : Bytes) :
    let o := (write handle data).run m
    Leads m (changeOf m (.write handle data) (.wrote o.answer)) o.state := by
  intro o
  rcases write_cases m handle data with failed | ⟨key, node, live, found, written⟩
  · rw [show o = _ from failed]
    exact .refl m
  · obtain ⟨other, foundOther, regular⟩ := sound.handles handle.index key live
    cases found.symm.trans foundOther
    rw [show o = _ from written]
    simp only [changeOf, success, live]
    exact .written found regular

theorem Sound.leads_perform {m : Memory} (sound : Sound m) (request : Request) :
    let o := (perform request).run m
    Leads m (changeOf m request o.answer) o.state := by
  cases request with
  | files request =>
    cases request with
    | create path =>
      exact (makes_resolving (makes_createAt m) path).leads
        (fun answer => changeOf m (.files (.create path)) (.files (.opened answer)))
        (fun _ => rfl) fun _ => rfl
    | close handle =>
      show Leads m .nothing ((close handle).run m).state
      rcases close_cases m handle with ⟨-, failed⟩ | ⟨key, -, closed⟩
      · rw [failed]
        exact .refl m
      · rw [closed]
        exact .nothing _
    | remove path =>
      exact (makes_resolving (makes_removeAt m) path).leads
        (fun answer => changeOf m (.files (.remove path)) (.files (.settled answer)))
        (fun _ => rfl) fun _ => rfl
    | holds path =>
      show Leads m .nothing ((holds path).run m).state
      rw [state_holds]
      exact .refl m
    | run createFirst paths room => exact leads_run m createFirst paths room
  | makeDirectory path =>
    exact (makes_resolving (makes_makeDirectoryAt m) path).leads
      (fun answer => changeOf m (.makeDirectory path) (.made answer)) (fun _ => rfl) fun _ => rfl
  | write handle data => exact sound.leads_write handle data
  | list path =>
    show Leads m .nothing ((list path).run m).state
    rw [state_list]
    exact .refl m

/-! ### All histories -/

/-- The changes that requests make, one for each of them. -/
def changes : List Request → Memory → List Change
  | [], _ => []
  | request :: rest, m =>
    let o := (perform request).run m
    changeOf m request o.answer :: changes rest o.state

theorem state_history_cons (request : Request) (rest : List Request) (m : Memory) :
    ((history (request :: rest)).run m).state =
      ((history rest).run ((perform request).run m).state).state := by
  simp only [history, List.mapM_cons, Step.run_bind, Step.run_pure]

/-- What every change keeps, given all changes so far, holds after every history. -/
theorem along_changes {P : Memory → List Change → Prop}
    (step : ∀ {m c m' done}, Leads m c m' → P m done → P m' (done ++ [c]))
    (requests : List Request) {m : Memory} (done : List Change) (sound : Sound m)
    (start : P m done) : P ((history requests).run m).state (done ++ changes requests m) := by
  induction requests generalizing m done with
  | nil =>
    rw [changes, List.append_nil]
    exact start
  | cons request rest ih =>
    have next := ih _ (keeps_perform request m sound).1 (step (sound.leads_perform request) start)
    rw [List.append_assoc] at next
    rw [state_history_cons]
    exact next

theorem kept_along {P : Memory → Prop} (allowed : Change → Prop)
    (step : ∀ {m c m'}, Leads m c m' → allowed c → P m → P m') (requests : List Request)
    {m : Memory} (sound : Sound m) (within : ∀ c ∈ changes requests m, allowed c) (start : P m) :
    P ((history requests).run m).state := by
  have kept := along_changes (P := fun last done => (∀ c ∈ done, allowed c) → P last)
    (fun leads before within => step leads (within _ (by simp))
      (before fun c member => within c (List.mem_append_left _ member)))
    requests [] sound (fun _ => start)
  exact kept within

end FileRemoval.Memory
