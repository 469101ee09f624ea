import FileRemoval.Proofs.Memory.Changes

/-! # What lasts in a store in memory

A directory lasts, under its number, whatever is asked of the store. So does a file until it is
removed, and its absence, once it is removed, until something is made at its path again. -/

namespace FileRemoval.Memory

open Path

variable {m m' : Memory} {c : Change} {key : Text}

/-! ### One change -/

theorem Leads.get?_of_isDirectory (leads : Leads m c m') (directory : m.IsDirectory key) :
    m'.nodes.get? key = m.nodes.get? key :=
  leads.get?_of_ne fun touched => leads.not_isDirectory touched directory

theorem Leads.isDirectory (leads : Leads m c m') (directory : m.IsDirectory key) :
    m'.IsDirectory key := by
  obtain ⟨node, found, kind⟩ := directory
  exact ⟨node, (leads.get?_of_isDirectory ⟨node, found, kind⟩).trans found, kind⟩

theorem Leads.isFile (leads : Leads m c m') (notRemoved : c ≠ .removed key) (file : m.IsFile key) :
    m'.IsFile key := by
  by_cases touched : c.key? = some key
  · cases leads with
    | nothing => cases touched
    | added =>
      cases touched
      exact ⟨_, SortedMap.get?_insert_self .., rfl⟩
    | emptied _ _ regular =>
      cases touched
      exact ⟨_, SortedMap.get?_insert_self .., regular⟩
    | madeDirectory _ absent =>
      cases touched
      obtain ⟨node, found, -⟩ := file
      rw [absent] at found
      cases found
    | written _ regular =>
      cases touched
      exact ⟨_, SortedMap.get?_insert_self .., regular⟩
    | removed =>
      cases touched
      exact absurd rfl notRemoved
  · obtain ⟨node, found, regular⟩ := file
    exact ⟨node, (leads.get?_of_ne touched).trans found, regular⟩

/-- There is nothing at `key`, though there is a directory that could hold it. -/
structure Vacant (m : Memory) (key : Text) : Prop where
  absent : m.nodes.get? key = none
  parent : m.checkParent key = .ok ()

theorem Leads.checkParent (leads : Leads m c m') (parent : m.checkParent key = .ok ()) :
    m'.checkParent key = .ok () := by
  obtain ⟨above, name, split, directory⟩ := checkParent_eq_ok.mp parent
  exact checkParent_eq_ok.mpr ⟨above, name, split, leads.isDirectory directory⟩

theorem Leads.vacant (leads : Leads m c m') (notCreated : c ≠ .created key)
    (notMade : c ≠ .madeDirectory key) (vacant : m.Vacant key) : m'.Vacant key := by
  refine ⟨?_, leads.checkParent vacant.parent⟩
  by_cases touched : c.key? = some key
  · cases leads with
    | nothing => cases touched
    | added =>
      cases touched
      exact absurd rfl notCreated
    | emptied =>
      cases touched
      exact absurd rfl notCreated
    | madeDirectory =>
      cases touched
      exact absurd rfl notMade
    | written found =>
      cases touched
      rw [vacant.absent] at found
      cases found
    | removed =>
      cases touched
      exact SortedMap.get?_erase_self ..
  · exact (leads.get?_of_ne touched).trans vacant.absent

/-! ### All histories -/

theorem directory_of_history (sound : Sound m) {node : Node}
    (found : m.nodes.get? key = some node) (directory : node.kind = .directory)
    (later : List Request) : ((history later).run m).state.nodes.get? key = some node :=
  kept_along (P := fun last => last.nodes.get? key = some node) (fun _ => True)
    (fun leads _ found => (leads.get?_of_isDirectory ⟨node, found, directory⟩).trans found)
    later sound (fun _ _ => trivial) found

theorem isFile_of_history (sound : Sound m) (file : m.IsFile key) (later : List Request)
    (notRemoved : .removed key ∉ changes later m) : ((history later).run m).state.IsFile key :=
  kept_along (· ≠ .removed key) (fun leads => leads.isFile) later sound
    (fun _ member same => notRemoved (same ▸ member)) file

theorem vacant_of_history (sound : Sound m) (vacant : m.Vacant key) (later : List Request)
    (notCreated : .created key ∉ changes later m) (notMade : .madeDirectory key ∉ changes later m) :
    ((history later).run m).state.Vacant key :=
  kept_along (fun c => c ≠ .created key ∧ c ≠ .madeDirectory key)
    (fun leads notNew => leads.vacant notNew.1 notNew.2) later sound
    (fun _ member => ⟨fun same => notCreated (same ▸ member), fun same => notMade (same ▸ member)⟩)
    vacant

/-! ### After a removal -/

theorem Leads.vacant_of_removed (leads : Leads m (.removed key) m') : m'.Vacant key := by
  have kept : m.checkParent key = .ok () → m'.checkParent key = .ok () := leads.checkParent
  cases leads with
  | removed _ parent => exact ⟨SortedMap.get?_erase_self .., kept parent⟩

theorem vacant_of_remove {path : Text} (resolved : resolve top path = .ok key)
    (removed : ((remove path).run m).answer = .ok ()) :
    ((remove path).run m).state.Vacant key := by
  rcases makes_resolving (makes_removeAt m) path with ⟨cause, failed, -⟩ | ⟨-, -, leads⟩
  · cases failed.symm.trans removed
  · rw [Change.at_of_ok resolved] at leads
    exact leads.vacant_of_removed

theorem Vacant.holds (vacant : m.Vacant key) {path : Text} (resolved : resolve top path = .ok key) :
    ((holds path).run m).answer = false := by
  rw [run_holds_ok m resolved, SortedMap.contains, vacant.absent]
  rfl

theorem Vacant.remove (vacant : m.Vacant key) {path : Text}
    (resolved : resolve top path = .ok key) :
    ((remove path).run m).answer = .error .notFound := by
  rw [Memory.remove, run_resolving_ok removeAt m resolved,
    removeAt_of_absent vacant.parent vacant.absent]
  rfl

/-- What was removed stays away: unless a creation or a new directory at that place has succeeded
since, which a run of the remover is none of, nothing is there under any spelling of the path, and
a removal finds nothing. A directory stays as it is, under its number, in every later store. A file
can turn into a directory only if it was removed in between. -/
theorem removal_is_final (requests later : List Request) :
    let m := ((history requests).run initial).state
    (∀ path key, resolve top path = .ok key → ((remove path).run m).answer = .ok () →
      let left := ((remove path).run m).state
      let last := ((history later).run left).state
      .created key ∉ changes later left → .madeDirectory key ∉ changes later left →
      ∀ other, resolve top other = .ok key →
        ((holds other).run last).answer = false ∧
          ((remove other).run last).answer = .error .notFound) ∧
    let last := ((history later).run m).state
    (∀ key node, m.nodes.get? key = some node → node.kind = .directory →
      last.nodes.get? key = some node) ∧
    ∀ key, m.IsFile key → last.IsDirectory key → .removed key ∈ changes later m := by
  intro m
  have sound : Sound m := Reachable.sound ⟨requests, rfl⟩
  refine ⟨?_, ?_, ?_⟩
  · intro path key resolved removed left last notCreated notMade other same
    have soundLeft : Sound left := (keeps_perform (.files (.remove path)) m sound).1
    have vacant := vacant_of_history soundLeft (vacant_of_remove resolved removed) later notCreated
      notMade
    exact ⟨vacant.holds same, vacant.remove same⟩
  · exact fun key node found directory => directory_of_history sound found directory later
  · intro key file directory
    refine Classical.byContradiction fun notRemoved => ?_
    exact not_isFile_of_isDirectory directory (isFile_of_history sound file later notRemoved)

/-- A run that creates the file first does not bring it back. -/
theorem removal_is_final_across_run :
    let left := ((remove "f".toList).run
      ((history [.files (.create "f".toList)]).run initial).state).state
    let last := ((history [.files (.run true ["f".toList] none)]).run left).state
    ((holds "d/../f".toList).run last).answer = false ∧
      ((remove "d/../f".toList).run last).answer = .error .notFound :=
  (removal_is_final [.files (.create "f".toList)] [.files (.run true ["f".toList] none)]).1
    "f".toList "/f".toList (by rfl) (by rfl) (by decide) (by decide) "d/../f".toList (by rfl)

end FileRemoval.Memory
