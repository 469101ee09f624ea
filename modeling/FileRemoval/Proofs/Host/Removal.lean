import FileRemoval.Proofs.Host.Files
import FileRemoval.Proofs.Host.Session
import FileRemoval.Proofs.Remover.Runs

/-! # What one run of the remover does to a host

A creation that succeeds is followed by a removal that succeeds, so a run that fails has left the
host and the store as they were, and one that succeeds has taken away one file. -/

namespace FileRemoval.HostSession

open Host (pathBelow)
open Path (AreNames ofNames resolve)

variable {s : HostSession} {path : Text} {target : Bytes} {location : Location}

/-! ### Host paths of files -/

theorem ne_nil_of_target {h : Host} {root : Bytes} {ns : List Text} {directory : Location}
    {name : Bytes} (aimed : h.target (pathBelow root ns) = .ok (.entry directory name))
    (unslashed : HostPath.endsInSlash (pathBelow root ns) = false) : ns ≠ [] := by
  rintro rfl
  have whole : pathBelow root [] = HostPath.join root [] := rfl
  by_cases empty : root = []
  · rw [whole, empty] at aimed
    cases aimed
  · rw [whole, HostPath.endsInSlash_join_nil empty] at unslashed
    cases unslashed

/-- A path that leads to an entry does not stand for the top. -/
theorem exists_key_of_target {directory : Location} {name : Bytes}
    (located : (s.store.hostPath path).1 = .ok target)
    (aimed : s.host.target target = .ok (.entry directory name))
    (unslashed : HostPath.endsInSlash target = false) :
    ∃ key, resolve Path.top path = .ok key ∧ key ≠ Path.top := by
  obtain ⟨ns, areNames, resolved, rfl⟩ := HostStore.exists_names_of_hostPath located
  exact ⟨_, resolved, mt (Path.ofNames_eq_top areNames).mp (ne_nil_of_target aimed unslashed)⟩

theorem endsInName_of_hostPath {key : Text} (resolved : resolve Path.top path = .ok key)
    (notTop : key ≠ Path.top) (located : (s.store.hostPath path).1 = .ok target) :
    HostPath.EndsInName target := by
  obtain ⟨ns, areNames, same, rfl⟩ := HostStore.exists_names_of_hostPath located
  cases resolved.symm.trans same
  exact HostPath.endsInName_join_joined _ areNames (mt (Path.ofNames_eq_top areNames).mpr notTop)

/-! ### The file that is created first -/

/-- A session that differs from `s` in nothing but the file at `location`, which is new or empty. -/
structure Touched (s s' : HostSession) (location : Location) : Prop where
  host : s'.host = s.host.withFile location
  root : s'.store.root = s.store.root
  handles : ∀ index, s'.store.handles.get? index = s.store.handles.get? index

theorem touched_of_create (state : ((create path).run s).state =
      ⟨{ s.store with handles := (s.store.handles.insert target).1 }, s.host.withFile location⟩) :
    Touched s ((close ⟨(s.store.handles.insert target).2⟩).run ((create path).run s).state).state
      location := by
  rcases close_cases ((create path).run s).state ⟨(s.store.handles.insert target).2⟩ with
    ⟨free, -⟩ | ⟨-, -, closed⟩
  · rw [state, SlotTable.get?_insert, if_pos rfl] at free
    cases free
  · rw [closed, state]
    exact ⟨rfl, rfl, SlotTable.get?_erase_insert s.store.handles target⟩

/-- The session in which the file is removed: as it was, or with a touched file. -/
theorem prepared_cases (s : HostSession) (createFirst : Bool) (path : Text) :
    let s' := Remover.prepared ⟨fileSystem, createFirst⟩ path s
    (s' = s ∧ (createFirst = true → ∃ cause, ((create path).run s).answer = .error cause)) ∨
    (createFirst = true ∧ ∃ target directory name, (s.store.hostPath path).1 = .ok target ∧
      s.store.handles.occupied < maxOpenFiles ∧
      s.host.target target = .ok (.entry directory name) ∧
      HostPath.endsInSlash target = false ∧
      s.host.node? (directory ++ [name]) ≠ some .directory ∧
      Touched s s' (directory ++ [name])) := by
  intro s'
  cases createFirst with
  | false => exact .inl ⟨rfl, fun isFirst => nomatch isFirst⟩
  | true =>
    rcases create_cases s path with ⟨cause, failed, same⟩ |
      ⟨target, directory, name, located, room, aimed, unslashed, notDirectory, opened, state⟩
    · have kept := Remover.run_prepare_error ⟨fileSystem, true⟩ path s failed
      exact .inl ⟨kept.trans same, fun _ => ⟨cause, failed⟩⟩
    · have closed : s' = _ := Remover.run_prepare_ok ⟨fileSystem, true⟩ path s opened
      refine .inr ⟨rfl, target, directory, name, located, room, aimed, unslashed, notDirectory, ?_⟩
      rw [closed]
      exact touched_of_create state

/-! ### The removal -/

theorem remove_eq (path : Text) : fileSystem.remove path = remove path := rfl

/-- What a run over `path` can remove: the file that the path leads to, or, if the run creates the
file first, one that can be made there while there is a handle left. -/
structure Removable (s : HostSession) (createFirst : Bool) (path : Text) (target : Bytes)
    (location : Location) : Prop where
  key : ∃ key, resolve Path.top path = .ok key ∧ key ≠ Path.top
  located : (s.store.hostPath path).1 = .ok target
  there : s.host.FileAt target location ∨
    (createFirst = true ∧ s.store.handles.occupied < maxOpenFiles ∧
      s.host.VacantAt target location)

section

variable (unfixed : s.host.fixed = [])
include unfixed

theorem remove_of_fileAt (endsInName : HostPath.EndsInName target)
    (located : (s.store.hostPath path).1 = .ok target) (file : s.host.FileAt target location) :
    ((remove path).run s).answer = .ok () ∧ ((remove path).run s).state =
      ⟨{ s.store with handles :=
          (s.store.handles.retain fun other => !HostPath.same other target).1 },
        s.host.without location⟩ :=
  remove_of_ok located (Host.unlink_of_fileAt unfixed file endsInName)

theorem create_of_vacantAt (endsInName : HostPath.EndsInName target)
    (located : (s.store.hostPath path).1 = .ok target)
    (room : s.store.handles.occupied < maxOpenFiles) (vacant : s.host.VacantAt target location) :
    ∃ handle, ((create path).run s).answer = .ok handle :=
  ⟨_, (create_of_ok (HostStore.hostPathToOpen_of_room located room)
    (Host.openEmpty_of_vacantAt unfixed vacant endsInName.1)).1⟩

/-- Either the removal takes the file away, with the handles on it, or nothing happened at all. -/
theorem removal_cases (createFirst : Bool) (path : Text) :
    let s' := Remover.prepared ⟨fileSystem, createFirst⟩ path s
    let last := ((remove path).run s').state
    (∃ target location, s.Removable createFirst path target location ∧
      ((remove path).run s').answer = .ok () ∧ last.host = s.host.without location ∧
      last.store.root = s.store.root ∧
      ∀ index, last.store.handles.get? index =
        (s.store.handles.get? index).filter fun other => !HostPath.same other target) ∨
    (∃ cause, ((remove path).run s').answer = .error cause ∧ last = s ∧
      ∀ target location, ¬ s.Removable createFirst path target location) := by
  intro s' last
  rcases prepared_cases s createFirst path with ⟨same, notCreated⟩ |
    ⟨isFirst, target, directory, name, located, room, aimed, unslashed, notDirectory, touched⟩
  · have isSame : s' = s := same
    simp only [last, isSame]
    rcases remove_cases s path with ⟨cause, failed, kept⟩ |
      ⟨target, directory, name, content, located, aimed, unslashed, found, removed, state⟩
    · refine .inr ⟨cause, failed, kept, fun target location removable => ?_⟩
      obtain ⟨key, resolved, notTop⟩ := removable.key
      have endsInName := endsInName_of_hostPath resolved notTop removable.located
      rcases removable.there with file | ⟨isFirst, room, vacant⟩
      · cases failed.symm.trans (remove_of_fileAt unfixed endsInName removable.located file).1
      · obtain ⟨cause, refused⟩ := notCreated isFirst
        obtain ⟨handle, opened⟩ := create_of_vacantAt unfixed endsInName removable.located room vacant
        cases refused.symm.trans opened
    · have file := Host.fileAt_of_target aimed found
      refine .inl ⟨target, directory ++ [name],
        ⟨exists_key_of_target located aimed unslashed, located, .inl file⟩, removed, ?_⟩
      rw [state]
      exact ⟨rfl, rfl, SlotTable.get?_retain s.store.handles _⟩
  · -- the file that was just created is there to be removed
    have hasKey := exists_key_of_target located aimed unslashed
    obtain ⟨key, resolved, notTop⟩ := hasKey
    have located' : (s'.store.hostPath path).1 = .ok target := by
      rw [← located, HostStore.hostPath, touched.root]
      rfl
    have unfixed' : s'.host.fixed = [] := by
      rw [touched.host]
      exact unfixed
    have fileAt : s'.host.FileAt target (directory ++ [name]) := by
      rw [touched.host]
      exact Host.fileAt_withFile aimed notDirectory
    have endsInName := endsInName_of_hostPath resolved notTop located
    obtain ⟨removed, state⟩ := remove_of_fileAt unfixed' endsInName located' fileAt
    refine .inl ⟨target, directory ++ [name], ⟨⟨key, resolved, notTop⟩, located, ?_⟩, removed, ?_⟩
    · exact (Host.fileAt_or_vacantAt unfixed aimed notDirectory).imp_right
        fun vacant => ⟨isFirst, room, vacant⟩
    · have left : last = _ := state
      rw [left, touched.host, Host.without_withFile]
      refine ⟨rfl, touched.root, fun index => ?_⟩
      rw [SlotTable.get?_retain, touched.handles]

end

end FileRemoval.HostSession
