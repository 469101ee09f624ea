import FileRemoval.Proofs.FileSystem.HandleTable
import FileRemoval.Proofs.Host.Session

/-! # The store on any host

The store asks its host to open and to unlink files. What it makes of the answers does not depend
on how the host comes to them: the host may keep a state of any kind, and change it on its own. -/

namespace FileRemoval

/-- The file calls of a host. -/
structure HostCalls (η : Type) where
  openEmpty : η → Bytes → Except HostError Unit × η
  unlink : η → Bytes → Except HostError Unit × η
  holds : η → Bytes → Bool × η

def Host.calls : HostCalls Host where
  openEmpty := openEmpty
  unlink := unlink
  holds h path := (h.holds path, h)

namespace HostStore

variable {η α : Type}

def after (next : η) (events : List Event) (o : Outcome HostStore α) : Outcome (HostStore × η) α :=
  ⟨o.answer, (o.state, next), events ++ o.events⟩

/-- The file system that the store makes of the calls of a host. -/
def onHost (host : HostCalls η) : FileSystem (Step (HostStore × η)) where
  create path := fun s =>
    match s.1.hostPathToOpen path with
    | (.error cause, events) => ⟨.error cause, s, events⟩
    | (.ok target, events) =>
      let (reply, next) := host.openEmpty s.2 target
      after next events (s.1.opened target reply)
  close handle := fun s => after s.2 [] (close handle s.1)
  remove path := fun s =>
    match s.1.hostPath path with
    | (.error cause, events) => ⟨.error cause, s, events⟩
    | (.ok target, events) =>
      let (reply, next) := host.unlink s.2 target
      after next events (s.1.unlinked target reply)
  holds path := fun s =>
    match s.1.hostPath path with
    | (.error _, events) => ⟨false, s, events⟩
    | (.ok target, events) =>
      let (truth, next) := host.holds s.2 target
      ⟨truth, (s.1, next), events⟩

/-- A session is the store over the calls of its host. -/
theorem session_matches_onHost :
    HostSession.fileSystem.Matches (fun s t => t = (s.store, s.host)) (onHost Host.calls) where
  create path := by
    rintro s t rfl
    rcases found : s.store.hostPathToOpen path with ⟨_ | target, events⟩
    · simp only [Step.run, HostSession.fileSystem, HostSession.create, onHost, found]
      exact ⟨trivial, trivial⟩
    · simp only [Step.run, HostSession.fileSystem, HostSession.create, onHost, found]
      exact ⟨rfl, rfl⟩
  close handle := by
    rintro s t rfl
    exact ⟨rfl, rfl⟩
  remove path := by
    rintro s t rfl
    rcases found : s.store.hostPath path with ⟨_ | target, events⟩
    · simp only [Step.run, HostSession.fileSystem, HostSession.remove, onHost, found]
      exact ⟨trivial, trivial⟩
    · simp only [Step.run, HostSession.fileSystem, HostSession.remove, onHost, found]
      exact ⟨rfl, rfl⟩
  holds path := by
    rintro s t rfl
    rcases found : s.store.hostPath path with ⟨_ | target, events⟩
    · simp only [Step.run, HostSession.fileSystem, HostSession.holds, onHost, found]
      exact ⟨trivial, trivial⟩
    · simp only [Step.run, HostSession.fileSystem, HostSession.holds, onHost, found]
      exact ⟨rfl, rfl⟩

/-! ### Handles -/

/-- Whether `path` stands for the file that a handle with the host path `other` is open on. -/
def leadsTo (s : HostStore) (path : Text) (other : Bytes) : Bool :=
  match (s.hostPath path).1 with
  | .error _ => false
  | .ok target => HostPath.same other target

theorem leadsTo_congr {s t : HostStore} (sameRoot : t.root = s.root) : t.leadsTo = s.leadsTo := by
  funext path other
  simp only [leadsTo, hostPath, sameRoot]

theorem leadsTo_of_hostPath {s : HostStore} {path : Text} {target : Bytes}
    (located : (s.hostPath path).1 = .ok target) (other : Bytes) :
    s.leadsTo path other = HostPath.same other target := by
  simp only [leadsTo, located]

theorem hostPathToOpen_cases (s : HostStore) (path : Text) :
    (∃ cause events, s.hostPathToOpen path = (.error cause, events)) ∨
    ∃ target events, (s.hostPath path).1 = .ok target ∧
      s.hostPathToOpen path = (.ok target, events) := by
  cases located : (s.hostPath path).1 with
  | error cause =>
    exact .inl ⟨cause, _, Prod.ext (hostPathToOpen_of_error located) rfl⟩
  | ok target =>
    by_cases full : maxOpenFiles ≤ s.handles.occupied
    · exact .inl ⟨_, _, Prod.ext (hostPathToOpen_of_full located full) rfl⟩
    · have room : s.handles.occupied < maxOpenFiles := Nat.lt_of_not_le full
      exact .inr ⟨target, _, rfl, Prod.ext (hostPathToOpen_of_room located room) rfl⟩

theorem root_of_opened (s : HostStore) (target : Bytes) (reply : Except HostError Unit) :
    (s.opened target reply).state.root = s.root := by
  cases reply with
  | error refusal => exact congrArg root (s.refused_eq refusal).2
  | ok _ => rfl

/-- Whatever the host answers, the handles are kept in the table of the store. -/
theorem keepsHandles (host : HostCalls η) :
    (onHost host).KeepsHandles (fun s => s.1.handles) (fun s => s.1.leadsTo) where
  create path s := by
    rcases s.1.hostPathToOpen_cases path with ⟨cause, events, found⟩ |
      ⟨target, events, located, found⟩
    · simp only [Step.run, onHost, found]
      exact .inl ⟨cause, rfl, trivial⟩
    · simp only [Step.run, onHost, found]
      cases (host.openEmpty s.2 target).1 with
      | error refusal =>
        obtain ⟨answer, state⟩ := s.1.refused_eq (α := Handle) refusal
        exact .inl ⟨_, answer, congrArg handles state⟩
      | ok _ =>
        refine .inr ⟨target, ?_, rfl, rfl⟩
        rw [leadsTo_of_hostPath located]
        exact decide_eq_true rfl
  close handle s := by
    simp only [Step.run, onHost, close]
    cases found : s.1.handles.get? handle.index with
    | none => exact .inl ⟨rfl, rfl, rfl⟩
    | some target => exact .inr ⟨rfl, rfl, rfl⟩
  remove path s := by
    rcases found : s.1.hostPath path with ⟨cause | target, events⟩
    · simp only [Step.run, onHost, found]
      exact .inl ⟨cause, rfl, trivial⟩
    · have leads := leadsTo_of_hostPath (congrArg Prod.fst found)
      simp only [Step.run, onHost, found, leads]
      cases (host.unlink s.2 target).1 with
      | error refusal =>
        obtain ⟨answer, state⟩ := s.1.refused_eq (α := Unit) refusal
        exact .inl ⟨_, answer, congrArg handles state⟩
      | ok _ => exact .inr ⟨rfl, rfl⟩
  holds path s := by
    simp only [Step.run, onHost]
    split <;> rfl
  leadsTo_create path s := by
    apply leadsTo_congr
    simp only [Step.run, onHost]
    split
    · rfl
    · exact root_of_opened ..
  leadsTo_close handle s := by
    apply leadsTo_congr
    simp only [Step.run, onHost, close]
    split <;> rfl

end HostStore

theorem HostSession.keepsHandles : HostSession.fileSystem.KeepsHandles
    (fun s => s.store.handles) (fun s => s.store.leadsTo) :=
  (HostStore.keepsHandles Host.calls).of_matches HostStore.session_matches_onHost

end FileRemoval
