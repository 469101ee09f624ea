import FileRemoval.Proofs.Host.Session
import FileRemoval.Proofs.Memory.Operations

/-! # Calls that fail

A call that fails leaves no trace, in a store in memory and on the host alike: all its checks come
before its first change. -/

namespace FileRemoval

theorem Memory.create_of_full {m : Memory} (path : Text)
    (full : maxOpenFiles ≤ m.handles.occupied) :
    ∃ cause, ((Memory.create path).run m).answer = .error cause := by
  rw [Memory.create]
  cases resolved : Path.resolve Path.top path with
  | error cause => exact ⟨cause, by rw [Memory.run_resolving_error _ m resolved]; rfl⟩
  | ok key =>
    rw [Memory.run_resolving_ok _ m resolved]
    cases parent : m.checkParent key with
    | error cause => exact ⟨cause, by rw [Memory.createAt_of_error parent]; rfl⟩
    | ok _ => exact ⟨.tooManyOpenFiles, by rw [Memory.createAt_of_full parent full]; rfl⟩

theorem HostSession.create_of_full {s : HostSession} (path : Text)
    (full : maxOpenFiles ≤ s.store.handles.occupied) :
    ∃ cause, ((HostSession.create path).run s).answer = .error cause := by
  rcases s.create_cases path with ⟨cause, failed, -⟩ | ⟨_, _, _, -, room, -⟩
  · exact ⟨cause, failed⟩
  · omega

/-! ### Answers of any host -/

namespace HostStore

variable (s : HostStore) (target : Bytes) {cause : FileError}

theorem opened_of_failure {reply : Except HostError Unit}
    (failed : (s.opened target reply).answer = .error cause) :
    (∃ refusal, reply = .error refusal) ∧ (s.opened target reply).state = s := by
  cases reply with
  | error refusal => exact ⟨⟨refusal, rfl⟩, (s.refused_eq refusal).2⟩
  | ok _ => cases failed

theorem unlinked_of_failure {reply : Except HostError Unit}
    (failed : (s.unlinked target reply).answer = .error cause) :
    (∃ refusal, reply = .error refusal) ∧ (s.unlinked target reply).state = s := by
  cases reply with
  | error refusal => exact ⟨⟨refusal, rfl⟩, (s.refused_eq refusal).2⟩
  | ok _ => cases failed

end HostStore

/-- Every call that fails leaves the state that it found: the nodes, the handles and the next node
number of a store in memory, whatever they are, and the tree and the handles of a session on the
host, whatever its root. A creation with all handles in use is one that fails. On a host that may
answer in any way, a call fails only if the host has refused it, and the store is as it was. -/
theorem failures_leave_no_trace :
    Memory.fileSystem.Atomic ∧
    (∀ path, Step.Atomic (Memory.makeDirectory path)) ∧
    (∀ handle data, Step.Atomic (Memory.write handle data)) ∧
    (∀ path, Step.Atomic (Memory.list path)) ∧
    HostSession.fileSystem.Atomic ∧
    (∀ (m : Memory) path, maxOpenFiles ≤ m.handles.occupied →
      (∃ cause, ((Memory.create path).run m).answer = .error cause) ∧
        ((Memory.create path).run m).state = m) ∧
    (∀ (s : HostSession) path, maxOpenFiles ≤ s.store.handles.occupied →
      (∃ cause, ((HostSession.create path).run s).answer = .error cause) ∧
        ((HostSession.create path).run s).state = s) ∧
    ∀ (s : HostStore) target reply cause,
      ((s.opened target reply).answer = .error cause →
        (∃ refusal, reply = .error refusal) ∧ (s.opened target reply).state = s) ∧
      ((s.unlinked target reply).answer = .error cause →
        (∃ refusal, reply = .error refusal) ∧ (s.unlinked target reply).state = s) := by
  have memory := Memory.atomic_fileSystem
  have host := HostSession.atomic_fileSystem
  refine ⟨memory, Memory.atomic_resolving Memory.atomic_makeDirectoryAt, Memory.atomic_write,
    Memory.atomic_resolving Memory.atomic_listAt, host, ?_, ?_, ?_⟩
  · intro m path full
    obtain ⟨cause, failed⟩ := Memory.create_of_full path full
    exact ⟨⟨cause, failed⟩, memory.create path m cause failed⟩
  · intro s path full
    obtain ⟨cause, failed⟩ := HostSession.create_of_full path full
    exact ⟨⟨cause, failed⟩, host.create path s cause failed⟩
  · exact fun s target reply cause => ⟨s.opened_of_failure target, s.unlinked_of_failure target⟩

end FileRemoval
