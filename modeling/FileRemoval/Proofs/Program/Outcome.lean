import FileRemoval.Host.Listing
import FileRemoval.Program
import FileRemoval.Proofs.Host.Removal
import FileRemoval.Proofs.Program.Output

/-! # What the program does to the host

The outcome of one command line, from its arguments to the tree that is left. Only a run that
succeeds changes the tree, and it takes away the one file that the command line names. -/

namespace FileRemoval.Program

open Host (FileAt VacantAt)
open Path (resolve)

variable {derived : CommandLine.Derived} {h : Host} {args : List Bytes} {line : CommandLine}

/-- The session that the removal asked for by `line` starts with. -/
def session (line : CommandLine) (h : Host) : HostSession :=
  ⟨(openStore line h.workingPath).1, h⟩

theorem handles_openStore (line : CommandLine) (directory : Except HostError Bytes) :
    (openStore line directory).1.handles = ∅ := by
  unfold openStore
  split
  · rfl
  · cases directory <;> rfl

theorem run_of_error (out : Sink) {stop : Stop} (parsed : derived.parse args = .error stop) :
    let last := (runWith derived args out).run h
    last.answer.1 = stop.exit ∧ last.state = h := by
  rw [runWith, Step.run_bind, CommandLine.Derived.run_load_of_error parsed]
  exact ⟨rfl, rfl⟩

theorem run_of_ok (out : Sink) (parsed : derived.parse args = .ok line) :
    let last := (runWith derived args out).run h
    let removal := (Remover.run ⟨HostSession.fileSystem, line.create⟩ line.paths out).run
      (session line h)
    last.answer = removal.answer ∧ last.state = removal.state.host := by
  rw [runWith, Step.run_bind, CommandLine.Derived.run_load_of_ok parsed]
  exact ⟨rfl, rfl⟩

theorem removable_session {path : Text} {target : Bytes} {location : Location} :
    (session line h).Removable line.create path target location ↔
      (∃ key, resolve Path.top path = .ok key ∧ key ≠ Path.top) ∧
        ((session line h).store.hostPath path).1 = .ok target ∧
        (h.FileAt target location ∨ (line.create = true ∧ h.VacantAt target location)) := by
  have room : (session line h).store.handles.occupied < maxOpenFiles := by
    rw [session, handles_openStore]
    decide
  constructor
  · rintro ⟨key, located, file | ⟨isFirst, -, vacant⟩⟩
    · exact ⟨key, located, .inl file⟩
    · exact ⟨key, located, .inr ⟨isFirst, vacant⟩⟩
  · rintro ⟨key, located, file | ⟨isFirst, vacant⟩⟩
    · exact ⟨key, located, .inl file⟩
    · exact ⟨key, located, .inr ⟨isFirst, room, vacant⟩⟩

/-- Either the run takes away the one file that the command line names, or it leaves the host as
it was. -/
theorem run_cases (out : Sink) (unfixed : h.fixed = [])
    (parsed : derived.parse args = .ok line) :
    let last := (runWith derived args out).run h
    (∃ path target location, line.paths = [path] ∧
      (session line h).Removable line.create path target location ∧
      last.answer.1 = .success ∧ last.state = h.without location) ∨
    (last.answer.1 = .failure ∧ last.state = h ∧
      ∀ path target location, line.paths = [path] →
        ¬ (session line h).Removable line.create path target location) := by
  obtain ⟨answer, state⟩ := run_of_ok (h := h) out parsed
  dsimp only
  rw [answer, state]
  by_cases one : ∃ path, line.paths = [path]
  · obtain ⟨path, isPath⟩ := one
    rw [isPath]
    obtain ⟨answer, state⟩ := Remover.run_one ⟨HostSession.fileSystem, line.create⟩ path out
      (session line h)
    rw [answer, state]
    rcases HostSession.removal_cases (s := session line h) unfixed line.create path with
      ⟨target, location, removable, removed, left, -⟩ | ⟨cause, failed, kept, notRemovable⟩
    · rw [HostSession.remove_eq, removed]
      exact .inl ⟨path, target, location, rfl, removable, rfl, left⟩
    · rw [HostSession.remove_eq, failed, kept]
      refine .inr ⟨rfl, rfl, ?_⟩
      rintro other target location ⟨⟩
      exact notRemovable target location
  · rw [not_exists] at one
    obtain ⟨exit, kept⟩ := Remover.run_not_one ⟨HostSession.fileSystem, line.create⟩ out
      (session line h) one
    rw [exit, kept]
    exact .inr ⟨rfl, rfl, fun path target location isPath => absurd isPath (one path)⟩

/-- Whatever parses its arguments, the program touches at most the one file that its command line
names. A run that fails, or that only shows a text, leaves the host as it was. A run that is asked
for a removal succeeds exactly if it is given one path, which does not stand for the top, and the
host path of that leads to a regular file, or to where one can be made and it may be. Then the tree
is the one before without that file. -/
theorem touches_one_file (derived : CommandLine.Derived) (h : Host) (unfixed : h.fixed = [])
    (args : List Bytes) (out : Sink) :
    let last := (runWith derived args out).run h
    (last.answer.1 = .failure → last.state = h) ∧
    (∀ stop, derived.parse args = .error stop →
      last.answer.1 = stop.exit ∧ last.state = h) ∧
    ∀ line, derived.parse args = .ok line →
      let store := (openStore line h.workingPath).1
      (last.answer.1 = .success ↔ ∃ path key target location, line.paths = [path] ∧
        resolve Path.top path = .ok key ∧ key ≠ Path.top ∧
        (store.hostPath path).1 = .ok target ∧
        (h.FileAt target location ∨ (line.create = true ∧ h.VacantAt target location))) ∧
      (last.answer.1 = .success → ∃ path target location, line.paths = [path] ∧
        (store.hostPath path).1 = .ok target ∧
        ((h.FileAt target location ∧
            last.state = { h with nodes := h.nodes.erase location }) ∨
          (line.create = true ∧ h.VacantAt target location ∧ last.state = h))) := by
  intro last
  refine ⟨fun failure => ?_, fun stop parsed => run_of_error out parsed, fun line parsed => ?_⟩
  · cases parsed : derived.parse args with
    | error stop => exact (run_of_error out parsed).2
    | ok line =>
      rcases run_cases out unfixed parsed with ⟨_, _, _, -, -, success, -⟩ | ⟨-, kept, -⟩
      · cases success.symm.trans failure
      · exact kept
  · intro store
    rcases run_cases out unfixed parsed with
      ⟨path, target, location, isPath, removable, success, left⟩ | ⟨failure, kept, notRemovable⟩
    · obtain ⟨⟨key, resolved, notTop⟩, located, there⟩ := removable_session.mp removable
      refine ⟨⟨fun _ => ⟨path, key, target, location, isPath, resolved, notTop, located, there⟩,
        fun _ => success⟩, fun _ => ⟨path, target, location, isPath, located, ?_⟩⟩
      rcases there with file | ⟨isFirst, vacant⟩
      · exact .inl ⟨file, left⟩
      · exact .inr ⟨isFirst, vacant, left.trans (Host.without_of_absent vacant.absent)⟩
    · have fails : last.answer.1 ≠ .success := fun success => nomatch failure.symm.trans success
      refine ⟨⟨fun success => absurd success fails, ?_⟩, fun success => absurd success fails⟩
      rintro ⟨path, key, target, location, isPath, resolved, notTop, located, there⟩
      exact absurd (removable_session.mpr ⟨⟨key, resolved, notTop⟩, located, there⟩)
        (notRemovable path target location isPath)

/-- A file next to the one that is named stays. -/
theorem touches_one_file_of_two :
    let bytes (text : String) : Bytes := Text.utf8 text.toList
    let h : Host := (Host.bare.addFile [bytes "srv", bytes "a"] [1]).addFile
      [bytes "srv", bytes "b"] [2]
    let args := ["rm", "-C", "/srv", "./b"].map bytes
    let last := (runWith CommandLine.reader args (.ofLimit none)).run h
    h.fixed = [] ∧ last.answer.1 = .success ∧
      last.state = Host.bare.addFile [bytes "srv", bytes "a"] [1] := by
  intro bytes h args last
  have unfixed : h.fixed = [] := by decide
  have parsed : CommandLine.reader.parse args =
      .ok ⟨["./b".toList], false, some (bytes "/srv")⟩ := by decide
  have located : ((openStore ⟨["./b".toList], false, some (bytes "/srv")⟩ h.workingPath).1.hostPath
      "./b".toList).1 = .ok (bytes "/srv/b") := by decide
  have file : h.FileAt (bytes "/srv/b") [bytes "srv", bytes "b"] := ⟨by decide, [2], by decide⟩
  obtain ⟨-, -, asked⟩ := touches_one_file CommandLine.reader h unfixed args (.ofLimit none)
  obtain ⟨succeeds, leaves⟩ := asked _ parsed
  have success : last.answer.1 = .success := succeeds.mpr
    ⟨"./b".toList, "/b".toList, _, _, rfl, by decide, by decide, located, .inl file⟩
  obtain ⟨path, target, location, isPath, same, ⟨⟨found, -⟩, left⟩ | ⟨isFirst, -⟩⟩ := leaves success
  · cases isPath
    cases located.symm.trans same
    cases file.1.symm.trans found
    exact ⟨unfixed, success, left.trans (by decide)⟩
  · cases isFirst

end FileRemoval.Program
