import FileRemoval.Proofs.Memory.Soundness
import FileRemoval.Proofs.Step.Invariant

/-! # Histories of a store in memory

What was asked of a store since it held nothing but its top directory. Whatever that was, the store
is sound and no handle that it gave out lies beyond the table of open files. -/

namespace FileRemoval.Memory

open Path

def history (requests : List Request) : Step Memory (List Answer) :=
  requests.mapM perform

/-- A store that requests lead to from the one with nothing but the top directory. -/
def Reachable (m : Memory) : Prop :=
  ∃ requests, ((history requests).run initial).state = m

theorem state_history_concat (requests : List Request) (request : Request) (m : Memory) :
    ((history (requests ++ [request])).run m).state =
      ((perform request).run ((history requests).run m).state).state := by
  simp only [history, List.mapM_append, List.mapM_cons, List.mapM_nil, Step.run_bind,
    Step.run_pure]

theorem reachable_initial : Reachable initial :=
  ⟨[], rfl⟩

theorem Reachable.perform {m : Memory} (h : Reachable m) (request : Request) :
    Reachable ((perform request).run m).state := by
  obtain ⟨requests, rfl⟩ := h
  exact ⟨requests ++ [request], state_history_concat requests request initial⟩

/-- What is reported of an opened file names a slot of the table. -/
def WithinTable (e : Event) : Prop :=
  ∀ handle, e = .opened handle → handle.index < maxOpenFiles

theorem withinTable_nil : ∀ e ∈ ([] : List Event), WithinTable e :=
  fun _ member => absurd member List.not_mem_nil

/-! ### One request -/

section

variable {m : Memory} {key : Text}

theorem Sound.openedWithin (sound : Sound m) (isFile : m.IsFile key)
    (room : m.handles.occupied < maxOpenFiles) :
    Sound (m.openAt key).state ∧ ∀ e ∈ (m.openAt key).events, WithinTable e := by
  refine ⟨sound.openAt isFile room, fun e member handle opened => ?_⟩
  rw [opened] at member
  have index : handle = ⟨(m.handles.insert key).2⟩ := by
    simpa [Memory.openAt, success] using member
  have bound := m.handles.insert_index_le_occupied key
  rw [index]
  show (m.handles.insert key).2 < maxOpenFiles
  omega

theorem Sound.createAt (sound : Sound m) (isKey : IsKey key) :
    Sound ((createAt key).run m).state ∧ ∀ e ∈ ((createAt key).run m).events, WithinTable e := by
  rcases createAt_cases m key with ⟨cause, failed⟩ | ⟨parent, room, absent, made⟩ |
    ⟨node, parent, room, found, regular, emptied⟩
  · rw [failed]
    exact ⟨sound, withinTable_nil⟩
  · rw [made]
    exact (sound.addNode .regular isKey parent absent).openedWithin
      ⟨_, SortedMap.get?_insert_self _ _ _, rfl⟩ room
  · rw [emptied]
    exact (sound.setData found regular []).openedWithin
      ⟨_, SortedMap.get?_insert_self _ _ _, regular⟩ room

theorem Sound.removeAt (sound : Sound m) :
    Sound ((removeAt key).run m).state ∧ ∀ e ∈ ((removeAt key).run m).events, WithinTable e := by
  rcases removeAt_cases m key with ⟨cause, failed⟩ | ⟨-, isFile, dropped⟩
  · rw [failed]
    exact ⟨sound, withinTable_nil⟩
  · rw [dropped]
    refine ⟨sound.dropAt isFile, fun e member handle opened => ?_⟩
    rw [opened] at member
    simp only [Memory.dropAt, success] at member
    split at member
    · cases List.mem_singleton.mp member
    · cases member

theorem Sound.makeDirectoryAt (sound : Sound m) (isKey : IsKey key) :
    Sound ((makeDirectoryAt key).run m).state ∧
      ∀ e ∈ ((makeDirectoryAt key).run m).events, WithinTable e := by
  rcases makeDirectoryAt_cases m key with ⟨cause, failed⟩ | ⟨parent, absent, made⟩
  · rw [failed]
    exact ⟨sound, withinTable_nil⟩
  · rw [made]
    exact ⟨sound.addNode .directory isKey parent absent, withinTable_nil⟩

end

theorem keeps_resolving {α : Type} {act : Text → Step Memory (Except FileError α)}
    (h : ∀ key m, IsKey key → Sound m →
      Sound ((act key).run m).state ∧ ∀ e ∈ ((act key).run m).events, WithinTable e)
    (path : Text) : Step.Keeps Sound WithinTable (resolving path act) := by
  intro m sound
  cases resolved : resolve top path with
  | error cause =>
    rw [run_resolving_error act m resolved]
    exact ⟨sound, withinTable_nil⟩
  | ok key =>
    obtain ⟨kept, within⟩ := h key m (isKey_of_resolve resolved) sound
    rw [run_resolving_ok act m resolved]
    refine ⟨kept, fun e member => ?_⟩
    rcases List.mem_cons.mp member with rfl | later
    · intro handle opened
      cases opened
    · exact within e later

theorem keeps_close (handle : Handle) : Step.Keeps Sound WithinTable (close handle) := by
  intro m sound
  rcases close_cases m handle with ⟨-, failed⟩ | ⟨key, -, closed⟩
  · rw [failed]
    exact ⟨sound, withinTable_nil⟩
  · rw [closed]
    refine ⟨sound.eraseHandle handle.index, fun e member other opened => ?_⟩
    rw [opened] at member
    cases List.mem_singleton.mp member

theorem keeps_holds (path : Text) : Step.Keeps Sound WithinTable (holds path) := by
  intro m sound
  cases resolved : resolve top path with
  | error cause =>
    rw [run_holds_error m resolved]
    exact ⟨sound, withinTable_nil⟩
  | ok key =>
    rw [run_holds_ok m resolved]
    refine ⟨sound, fun e member handle opened => ?_⟩
    rw [opened] at member
    cases List.mem_singleton.mp member

theorem Sound.write_eq {m : Memory} (sound : Sound m) (handle : Handle) (data : Bytes) :
    ((write handle data).run m).answer =
      if (m.handles.get? handle.index).isSome then .ok data.length else .error .badHandle := by
  simp only [Step.run, write]
  cases live : m.handles.get? handle.index with
  | none => rfl
  | some key =>
    obtain ⟨node, found, -⟩ := sound.handles handle.index key live
    simp only [found]
    rfl

theorem keeps_write (handle : Handle) (data : Bytes) :
    Step.Keeps Sound WithinTable (write handle data) := by
  intro m sound
  rcases write_cases m handle data with failed | ⟨key, node, live, found, written⟩
  · rw [failed]
    exact ⟨sound, withinTable_nil⟩
  · -- only a handle on a regular file is live, so no directory gets bytes
    obtain ⟨other, otherFound, regular⟩ := sound.handles handle.index key live
    rw [found] at otherFound
    cases otherFound
    rw [written]
    exact ⟨sound.setData found regular _, withinTable_nil⟩

theorem keeps_makeDirectory (path : Text) :
    Step.Keeps Sound WithinTable (makeDirectory path) :=
  keeps_resolving (fun _ _ isKey sound => sound.makeDirectoryAt isKey) path

theorem keeps_list (path : Text) : Step.Keeps Sound WithinTable (list path) := by
  refine keeps_resolving (fun key m _ sound => ?_) path
  obtain ⟨state, events⟩ := state_listAt m key
  rw [state, events]
  exact ⟨sound, withinTable_nil⟩

theorem keeps_fileSystem : fileSystem.Keeps Sound WithinTable where
  create := keeps_resolving fun _ _ isKey sound => sound.createAt isKey
  close := keeps_close
  remove := keeps_resolving fun _ _ _ sound => sound.removeAt
  holds := keeps_holds

theorem keeps_perform (request : Request) : Step.Keeps Sound WithinTable (perform request) := by
  have reports : Remover.Reports WithinTable := by
    constructor
    all_goals
      intros
      intro handle opened
      cases opened
  cases request with
  | files request =>
    exact .bind (FileSystem.keeps_perform keeps_fileSystem reports request) fun _ => .pure _
  | makeDirectory path => exact .bind (keeps_makeDirectory path) fun _ => .pure _
  | write handle data => exact .bind (keeps_write handle data) fun _ => .pure _
  | list path => exact .bind (keeps_list path) fun _ => .pure _

/-! ### All histories -/

theorem Reachable.sound {m : Memory} (h : Reachable m) : Sound m := by
  obtain ⟨requests, rfl⟩ := h
  exact ((Step.Keeps.mapM keeps_perform requests) initial sound_initial).1

theorem opened_of_createAt {m : Memory} {key : Text} {handle : Handle}
    (h : ((createAt key).run m).answer = .ok handle) :
    .opened handle ∈ ((createAt key).run m).events := by
  rcases createAt_cases m key with ⟨cause, failed⟩ | ⟨-, -, -, made⟩ | ⟨node, -, -, -, -, emptied⟩
  · rw [failed] at h
    cases h
  · rw [made] at h ⊢
    cases h
    exact List.mem_cons_self
  · rw [emptied] at h ⊢
    cases h
    exact List.mem_cons_self

theorem Sound.index_of_create {m : Memory} (sound : Sound m) {path : Text} {handle : Handle}
    (h : ((create path).run m).answer = .ok handle) : handle.index < maxOpenFiles := by
  cases resolved : resolve Path.top path with
  | error cause =>
    rw [create, run_resolving_error Memory.createAt m resolved] at h
    cases h
  | ok key =>
    rw [create, run_resolving_ok Memory.createAt m resolved] at h
    exact (sound.createAt (isKey_of_resolve resolved)).2 _ (opened_of_createAt h) handle rfl

theorem Sound.index_of_answer {m : Memory} (sound : Sound m) (requests : List Request)
    {handle : Handle}
    (h : .files (.opened (.ok handle)) ∈ ((history requests).run m).answer) :
    handle.index < maxOpenFiles := by
  -- the store that a request meets is another one each time, and sound each time
  induction requests generalizing m with
  | nil => cases h
  | cons request rest ih =>
    have answers : ((history (request :: rest)).run m).answer =
        ((perform request).run m).answer ::
          ((history rest).run ((perform request).run m).state).answer := by
      simp only [history, List.mapM_cons, Step.run_bind, Step.run_pure]
    rw [answers] at h
    rcases List.mem_cons.mp h with first | later
    · cases request with
      | files request =>
        cases request with
        | create path =>
          have opened : ((create path).run m).answer = .ok handle := by
            injection first with first
            injection first with first
            exact first.symm
          exact sound.index_of_create opened
        | close handle => cases first
        | remove path => cases first
        | holds path => cases first
        | run createFirst paths room => cases first
      | makeDirectory path => cases first
      | write handle data => cases first
      | list path => cases first
    · exact ih (keeps_perform request m sound).1 later

/-- After every history the store is sound, at most sixteen handles are live, every handle that was
given out, to a caller or to a remover, is below sixteen, and a live handle takes bytes. Node
numbers have no bound here; sixty-four bits hold them for as long as they do not run over. -/
theorem history_sound (requests : List Request) :
    let last := (history requests).run initial
    Sound last.state ∧ last.state.openHandles ≤ maxOpenFiles ∧
      (∀ handle, .files (.opened (.ok handle)) ∈ last.answer → handle.index < maxOpenFiles) ∧
      (∀ handle, .opened handle ∈ last.events → handle.index < maxOpenFiles) ∧
      ∀ handle data key, last.state.handles.get? handle.index = some key →
        ((write handle data).run last.state).answer = .ok data.length := by
  intro last
  have kept := Step.Keeps.mapM keeps_perform requests initial sound_initial
  have sound : Sound last.state := kept.1
  have within : ∀ e ∈ last.events, WithinTable e := kept.2
  refine ⟨sound, ?_, ?_, ?_, ?_⟩
  · exact Nat.le_trans last.state.handles.occupied_le_length sound.slots
  · exact fun handle answered => sound_initial.index_of_answer requests answered
  · exact fun handle reported => within _ reported handle rfl
  · intro handle data key live
    rw [sound.write_eq, live]
    rfl

end FileRemoval.Memory
