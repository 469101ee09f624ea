import FileRemoval.Proofs.Event.Reading
import FileRemoval.Proofs.Event.Trail
import FileRemoval.Proofs.Memory.Histories
import FileRemoval.Proofs.SlotTable.Histories

/-! # The log of a store as a record of its handles

Whoever reads the lines for debugging that a store leaves, and nothing else, knows which handles are
live and on which file. No failure leaves a line that says otherwise. -/

namespace FileRemoval.Memory

open Path
open Event (told)
open Reporting (report)

/-- The log tells what has happened, every event in it fits the ones before, and what they come to
are the handles of the store. -/
structure Audited (m : Memory) (log : List Event) : Prop where
  read : told log = log.filter fun e => e.level = .debug
  clean : Trail.Clean (told log)
  handles : (Trail.of (told log)).handles = m.handles.toMap

theorem audited_initial : Audited initial [] where
  read := rfl
  clean := Trail.clean_nil
  handles := rfl

namespace Audited

variable {m m' : Memory} {log : List Event} {key : Text}

/-! ### One event -/

theorem of_handles (audited : Audited m log) (same : m'.handles = m.handles) : Audited m' log where
  read := audited.read
  clean := audited.clean
  handles := same ▸ audited.handles

theorem unchanged {α : Type} (audited : Audited m log) {o : Outcome Memory α}
    (handles : o.state.handles = m.handles) (silent : o.events = []) :
    Audited o.state (log ++ o.events) := by
  rw [silent, List.append_nil]
  exact audited.of_handles handles

theorem concat_other (audited : Audited m log) {e : Event} (other : e.level ≠ .debug) :
    Audited m (log ++ [e]) := by
  have silent : told (log ++ [e]) = told log := Event.told_concat_of_level_ne log other
  refine ⟨?_, silent ▸ audited.clean, silent ▸ audited.handles⟩
  rw [silent, audited.read, List.filter_append, List.filter_cons_of_neg (by simpa using other),
    List.filter_nil, List.append_nil]

theorem concat (audited : Audited m log) {e : Event} (read : Event.ofLine? e.line = some e)
    (debug : e.level = .debug) (admits : (Trail.of (told log)).Admits e)
    (left : ((Trail.of (told log)).after e).handles = m'.handles.toMap) :
    Audited m' (log ++ [e]) := by
  have more : told (log ++ [e]) = told log ++ [e] := Event.told_concat_of_read log read
  refine ⟨?_, ?_, ?_⟩
  · rw [more, audited.read, List.filter_append, List.filter_cons_of_pos (by simpa using debug),
      List.filter_nil]
  · rw [more]
    exact Trail.clean_concat.mpr ⟨audited.clean, admits⟩
  · rw [more, Trail.of_concat]
    exact left

theorem resolved (audited : Audited m log) (path key : Text) :
    Audited m (log ++ [.resolved path key]) :=
  audited.concat (Event.ofLine?_resolved path key) rfl trivial audited.handles

theorem openAt (audited : Audited m log) (latest : (Trail.of (told log)).latest = some key)
    (room : m.handles.occupied < maxOpenFiles) :
    Audited (m.openAt key).state (log ++ (m.openAt key).events) := by
  have bound := m.handles.insert_index_le_occupied key
  have free : (Trail.of (told log)).handles.get? (m.handles.insert key).2 = none := by
    rw [audited.handles, SlotTable.get?_toMap, SlotTable.get?_insert_index]
  have left : ((Trail.of (told log)).after (.opened ⟨(m.handles.insert key).2⟩)).handles =
      (m.handles.insert key).1.toMap := by
    simp only [Trail.after, latest]
    rw [audited.handles, SlotTable.toMap_insert, SlotTable.insert_index_eq_leastFree_toMap]
  refine audited.concat (Event.ofLine?_opened _) rfl ⟨?_, free, ?_⟩ left
  · rw [latest]
    rfl
  · show (m.handles.insert key).2 < maxOpenFiles
    omega

theorem closeAt (audited : Audited m log) {handle : Handle}
    (live : m.handles.get? handle.index = some key) :
    Audited { m with handles := m.handles.erase handle.index } (log ++ [.closed handle key]) := by
  refine audited.concat (Event.ofLine?_closed handle key) rfl ?_ ?_
  · show (Trail.of (told log)).handles.get? handle.index = some key
    rw [audited.handles, SlotTable.get?_toMap, live]
  · show (Trail.of (told log)).handles.erase handle.index = _
    rw [audited.handles, SlotTable.toMap_erase]

theorem dropAt (audited : Audited m log) (key : Text) :
    Audited (m.dropAt key).state (log ++ (m.dropAt key).events) := by
  let swept := m.handles.retain (· ≠ key)
  have closed : swept.2 = m.handles.toMap.values.countP (· = key) := by
    rw [SlotTable.emptied_retain]
    simp only [ne_eq, decide_not, Bool.not_not]
  have left : (Trail.of (told log)).handles.filter (· ≠ key) = swept.1.toMap := by
    rw [audited.handles, SlotTable.toMap_retain]
  show Audited ⟨m.nodes.erase key, swept.1, m.nextInode⟩
    (log ++ if 0 < swept.2 then [.closedAll swept.2 key] else [])
  split
  · rename_i held
    refine audited.concat (Event.ofLine?_closedAll _ _) rfl ⟨held, ?_⟩ left
    rw [audited.handles, closed]
  · -- no handle was open on the file, so none is taken off the table
    rename_i unheld
    have same : swept.1.toMap = m.handles.toMap := by
      rw [SlotTable.toMap_retain, SortedMap.filter_eq_self]
      rw [← SlotTable.emptied_retain]
      exact Nat.eq_zero_of_not_pos unheld
    rw [List.append_nil]
    exact ⟨audited.read, audited.clean, audited.handles.trans same.symm⟩

theorem balance (audited : Audited m log) :
    ((told log).map Trail.opens).sum =
      m.openHandles + ((told log).map Trail.closes).sum := by
  rw [audited.clean.balance, audited.handles, SlotTable.size_toMap]
  rfl

end Audited

/-! ### One call -/

theorem continues_resolving {α : Type} {act : Text → Step Memory (Except FileError α)}
    (h : ∀ key m log, Audited m log → (Trail.of (told log)).latest = some key →
      Audited ((act key).run m).state (log ++ ((act key).run m).events))
    (path : Text) : Step.Continues Audited (resolving path act) := by
  intro m log audited
  cases resolved : resolve top path with
  | error cause =>
    rw [run_resolving_error act m resolved]
    exact audited.unchanged rfl rfl
  | ok key =>
    have latest : (Trail.of (told (log ++ [.resolved path key]))).latest = some key := by
      rw [Event.told_concat_of_read log (Event.ofLine?_resolved path key), Trail.of_concat]
      rfl
    rw [run_resolving_ok act m resolved, List.append_cons]
    exact h key m _ (audited.resolved path key) latest

theorem continues_create (path : Text) : Step.Continues Audited (create path) := by
  refine continues_resolving (fun key m log audited latest => ?_) path
  rcases createAt_cases m key with ⟨cause, failed⟩ | ⟨-, room, -, made⟩ |
    ⟨node, -, room, -, -, emptied⟩
  · rw [failed]
    exact audited.unchanged rfl rfl
  · rw [made]
    have added : Audited (m.addNode key .regular) log := audited.of_handles rfl
    exact added.openAt latest room
  · rw [emptied]
    have cleared : Audited (m.setData key node []) log := audited.of_handles rfl
    exact cleared.openAt latest room

theorem continues_remove (path : Text) : Step.Continues Audited (remove path) := by
  refine continues_resolving (fun key m log audited _ => ?_) path
  rcases removeAt_cases m key with ⟨cause, failed⟩ | ⟨-, -, dropped⟩
  · rw [failed]
    exact audited.unchanged rfl rfl
  · rw [dropped]
    exact audited.dropAt key

theorem continues_makeDirectory (path : Text) : Step.Continues Audited (makeDirectory path) := by
  refine continues_resolving (fun key m log audited _ => ?_) path
  rcases makeDirectoryAt_cases m key with ⟨cause, failed⟩ | ⟨-, -, made⟩
  · rw [failed]
    exact audited.unchanged rfl rfl
  · rw [made]
    exact audited.unchanged rfl rfl

theorem continues_list (path : Text) : Step.Continues Audited (list path) := by
  refine continues_resolving (fun key m log audited _ => ?_) path
  obtain ⟨state, events⟩ := state_listAt m key
  exact audited.unchanged (congrArg handles state) events

theorem continues_holds (path : Text) : Step.Continues Audited (holds path) := by
  intro m log audited
  cases resolved : resolve top path with
  | error cause =>
    rw [run_holds_error m resolved]
    exact audited.unchanged rfl rfl
  | ok key =>
    rw [run_holds_ok m resolved]
    exact audited.resolved path key

theorem continues_close (handle : Handle) : Step.Continues Audited (close handle) := by
  intro m log audited
  rcases close_cases m handle with ⟨-, failed⟩ | ⟨key, live, closed⟩
  · rw [failed]
    exact audited.unchanged rfl rfl
  · rw [closed]
    exact audited.closeAt live

theorem continues_write (handle : Handle) (data : Bytes) :
    Step.Continues Audited (write handle data) := by
  intro m log audited
  rcases write_cases m handle data with failed | ⟨key, node, -, -, written⟩
  · rw [failed]
    exact audited.unchanged rfl rfl
  · rw [written]
    exact audited.unchanged rfl rfl

theorem continues_fileSystem : fileSystem.Continues Audited where
  create := continues_create
  close := continues_close
  remove := continues_remove
  holds := continues_holds

/-- What a remover reports is not for debugging. -/
theorem continues_reports :
    Remover.Reports fun e => Step.Continues Audited (report e : Step Memory Unit) := by
  have passed {e : Event} (other : e.level ≠ .debug) :
      Step.Continues Audited (report e : Step Memory Unit) :=
    fun m log audited => audited.concat_other other
  exact ⟨fun path => passed nofun, fun path cause => passed nofun,
    fun handle path cause => passed nofun, passed nofun⟩

theorem continues_perform (request : Request) : Step.Continues Audited (perform request) := by
  cases request with
  | files request =>
    exact .bind (FileSystem.continues_perform continues_fileSystem continues_reports request)
      fun _ => .pure _
  | makeDirectory path => exact .bind (continues_makeDirectory path) fun _ => .pure _
  | write handle data => exact .bind (continues_write handle data) fun _ => .pure _
  | list path => exact .bind (continues_list path) fun _ => .pure _

/-! ### All histories -/

/-- After every history, and after every call that a remover makes on the way, the lines for
debugging tell what has happened, and replaying them on an empty table gives the handles that are
live. A handle was free and below sixteen where it was opened, open on the path that is named where
it was closed, and as many were open on a path as were closed together. What was opened is open or
was closed. -/
theorem log_is_audit_trail :
    fileSystem.Continues Audited ∧
    ∀ requests,
      let last := (history requests).run initial
      let log := told last.events
      log = (last.events.filter fun e => e.level = .debug) ∧
      (Trail.of log).handles = last.state.handles.toMap ∧ Trail.Clean log ∧
      (log.map Trail.opens).sum = last.state.openHandles + (log.map Trail.closes).sum := by
  refine ⟨continues_fileSystem, fun requests => ?_⟩
  have audited : Audited ((history requests).run initial).state
      ([] ++ ((history requests).run initial).events) :=
    Step.Continues.mapM continues_perform requests initial [] audited_initial
  rw [List.nil_append] at audited
  exact ⟨audited.read, audited.handles, audited.clean, audited.balance⟩

/-- A file that is open twice is created once more by a remover, which closes its own handle before
it takes the file away. -/
example :
    told ((history [.files (.create "a".toList), .files (.create "/a".toList),
      .files (.run true ["b/../a".toList] none)]).run initial).events =
    [.resolved "a".toList "/a".toList, .opened ⟨0⟩, .resolved "/a".toList "/a".toList, .opened ⟨1⟩,
      .resolved "b/../a".toList "/a".toList, .opened ⟨2⟩, .closed ⟨2⟩ "/a".toList,
      .resolved "b/../a".toList "/a".toList, .closedAll 2 "/a".toList] := by
  decide +kernel

end FileRemoval.Memory
