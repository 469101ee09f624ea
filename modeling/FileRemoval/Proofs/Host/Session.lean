import FileRemoval.Host.Store
import FileRemoval.Proofs.Host.Calls
import FileRemoval.Proofs.Step.Invariant

/-! # Calls of a session on the host

What a call of the store on the host answers and leaves, for each answer that the text of the path
and then the host can give. -/

namespace FileRemoval

open Path (AreNames dropWhile_ofNames ofNames resolve)
open Host (pathBelow)

/-! ### The host path of a call -/

namespace HostStore

variable {s : HostStore} {path : Text}

theorem hostPath_of_error {cause : FileError} (resolved : resolve Path.top path = .error cause) :
    (s.hostPath path).1 = .error cause := by
  simp only [hostPath, Path.resolveNoted, resolved]

/-- Where the names of a path go on from. -/
def anchor (s : HostStore) (path : Text) : Bytes :=
  if Path.isAbsolute path then [HostPath.slash] else s.root

theorem anchor_of_isRelative (relative : Path.isRelative path = true) :
    s.anchor path = s.root := by
  have notAbsolute : Path.isAbsolute path = false := by
    simpa [Path.isRelative] using relative
  rw [anchor, notAbsolute, if_neg Bool.false_ne_true]

/-- The names that a path resolves to go on from the top or from the root. -/
theorem hostPath_of_ok {ns : List Text} (resolved : resolve Path.top path = .ok (ofNames ns))
    (areNames : AreNames ns) : (s.hostPath path).1 = .ok (pathBelow (s.anchor path) ns) := by
  cases absolute : Path.isAbsolute path with
  | true =>
    have relative := HostPath.isAbsolute_utf8_joined areNames
    have slashed : HostPath.endsInSlash [HostPath.slash] = true := rfl
    simp only [hostPath, Path.resolveNoted, resolved, absolute, ↓reduceIte, anchor, pathBelow,
      HostPath.join_of_endsInSlash relative slashed]
    rfl
  | false =>
    simp only [hostPath, Path.resolveNoted, resolved, absolute, dropWhile_ofNames areNames,
      pathBelow, anchor, Bool.false_eq_true, ↓reduceIte]

theorem exists_names_of_hostPath {target : Bytes} (located : (s.hostPath path).1 = .ok target) :
    ∃ ns, AreNames ns ∧ resolve Path.top path = .ok (ofNames ns) ∧
      target = pathBelow (s.anchor path) ns := by
  cases resolved : resolve Path.top path with
  | error cause =>
    rw [hostPath_of_error resolved] at located
    cases located
  | ok key =>
    obtain ⟨ns, rfl, areNames, -⟩ := Path.resolve_top_eq_ok resolved
    rw [hostPath_of_ok resolved areNames] at located
    cases located
    exact ⟨ns, areNames, rfl, rfl⟩

theorem hostPathToOpen_of_error {cause : FileError} (h : (s.hostPath path).1 = .error cause) :
    (s.hostPathToOpen path).1 = .error cause := by
  obtain ⟨events, found⟩ : ∃ events, s.hostPath path = (.error cause, events) := ⟨_, Prod.ext h rfl⟩
  simp only [hostPathToOpen, found]

theorem hostPathToOpen_of_full {target : Bytes} (h : (s.hostPath path).1 = .ok target)
    (full : maxOpenFiles ≤ s.handles.occupied) :
    (s.hostPathToOpen path).1 = .error .tooManyOpenFiles := by
  obtain ⟨events, found⟩ : ∃ events, s.hostPath path = (.ok target, events) := ⟨_, Prod.ext h rfl⟩
  simp only [hostPathToOpen, found, full, ↓reduceIte]

theorem hostPathToOpen_of_room {target : Bytes} (h : (s.hostPath path).1 = .ok target)
    (room : s.handles.occupied < maxOpenFiles) : (s.hostPathToOpen path).1 = .ok target := by
  have notFull : ¬ maxOpenFiles ≤ s.handles.occupied := by omega
  obtain ⟨events, found⟩ : ∃ events, s.hostPath path = (.ok target, events) := ⟨_, Prod.ext h rfl⟩
  simp only [hostPathToOpen, found, notFull, ↓reduceIte]

end HostStore

/-! ### Calls -/

def HostError.shown (refusal : HostError) : FileError :=
  refusal.cause?.getD .io

theorem HostStore.refused_eq {α : Type} (s : HostStore) (refusal : HostError) :
    (s.refused refusal : Outcome HostStore (Except FileError α)).answer = .error refusal.shown ∧
      (s.refused refusal : Outcome HostStore (Except FileError α)).state = s := by
  unfold HostStore.refused HostError.shown
  cases refusal.cause? <;> exact ⟨rfl, rfl⟩

namespace HostSession

variable {s : HostSession} {path : Text} {target : Bytes} {host : Host} {refusal : HostError}

theorem create_of_error {cause : FileError} (h : (s.store.hostPathToOpen path).1 = .error cause) :
    ((create path).run s).answer = .error cause ∧ ((create path).run s).state = s := by
  obtain ⟨events, found⟩ : ∃ events, s.store.hostPathToOpen path = (.error cause, events) :=
    ⟨_, Prod.ext h rfl⟩
  simp only [Step.run, create, found]
  exact ⟨trivial, trivial⟩

theorem create_of_refusal (h : (s.store.hostPathToOpen path).1 = .ok target)
    (reply : s.host.openEmpty target = (.error refusal, host)) :
    ((create path).run s).answer = .error refusal.shown ∧
      ((create path).run s).state = ⟨s.store, host⟩ := by
  obtain ⟨events, found⟩ : ∃ events, s.store.hostPathToOpen path = (.ok target, events) :=
    ⟨_, Prod.ext h rfl⟩
  obtain ⟨answer, state⟩ := s.store.refused_eq (α := Handle) refusal
  simp only [Step.run, create, found, reply, after, HostStore.opened, answer, state]
  exact ⟨trivial, trivial⟩

theorem create_of_ok (h : (s.store.hostPathToOpen path).1 = .ok target)
    (reply : s.host.openEmpty target = (.ok (), host)) :
    ((create path).run s).answer = .ok ⟨(s.store.handles.insert target).2⟩ ∧
      ((create path).run s).state =
        ⟨{ s.store with handles := (s.store.handles.insert target).1 }, host⟩ := by
  obtain ⟨events, found⟩ : ∃ events, s.store.hostPathToOpen path = (.ok target, events) :=
    ⟨_, Prod.ext h rfl⟩
  simp only [Step.run, create, found, reply, after, HostStore.opened]
  exact ⟨trivial, trivial⟩

theorem remove_of_error {cause : FileError} (h : (s.store.hostPath path).1 = .error cause) :
    ((remove path).run s).answer = .error cause ∧ ((remove path).run s).state = s := by
  obtain ⟨events, found⟩ : ∃ events, s.store.hostPath path = (.error cause, events) :=
    ⟨_, Prod.ext h rfl⟩
  simp only [Step.run, remove, found]
  exact ⟨trivial, trivial⟩

theorem remove_of_refusal (h : (s.store.hostPath path).1 = .ok target)
    (reply : s.host.unlink target = (.error refusal, host)) :
    ((remove path).run s).answer = .error refusal.shown ∧
      ((remove path).run s).state = ⟨s.store, host⟩ := by
  obtain ⟨events, found⟩ : ∃ events, s.store.hostPath path = (.ok target, events) :=
    ⟨_, Prod.ext h rfl⟩
  obtain ⟨answer, state⟩ := s.store.refused_eq (α := Unit) refusal
  simp only [Step.run, remove, found, reply, after, HostStore.unlinked, answer, state]
  exact ⟨trivial, trivial⟩

theorem remove_of_ok (h : (s.store.hostPath path).1 = .ok target)
    (reply : s.host.unlink target = (.ok (), host)) :
    ((remove path).run s).answer = .ok () ∧ ((remove path).run s).state =
      ⟨{ s.store with handles :=
          (s.store.handles.retain fun other => !HostPath.same other target).1 }, host⟩ := by
  obtain ⟨events, found⟩ : ∃ events, s.store.hostPath path = (.ok target, events) :=
    ⟨_, Prod.ext h rfl⟩
  simp only [Step.run, remove, found, reply, after, HostStore.unlinked]
  exact ⟨trivial, trivial⟩

/-- All that a creation can come to. -/
theorem create_cases (s : HostSession) (path : Text) :
    (∃ cause, ((create path).run s).answer = .error cause ∧ ((create path).run s).state = s) ∨
    (∃ target directory name, (s.store.hostPath path).1 = .ok target ∧
      s.store.handles.occupied < maxOpenFiles ∧
      s.host.target target = .ok (.entry directory name) ∧
      HostPath.endsInSlash target = false ∧
      s.host.node? (directory ++ [name]) ≠ some .directory ∧
      ((create path).run s).answer = .ok ⟨(s.store.handles.insert target).2⟩ ∧
      ((create path).run s).state =
        ⟨{ s.store with handles := (s.store.handles.insert target).1 },
          s.host.withFile (directory ++ [name])⟩) := by
  cases located : (s.store.hostPath path).1 with
  | error cause => exact .inl ⟨cause, create_of_error (HostStore.hostPathToOpen_of_error located)⟩
  | ok target =>
    by_cases full : maxOpenFiles ≤ s.store.handles.occupied
    · exact .inl ⟨.tooManyOpenFiles,
        create_of_error (HostStore.hostPathToOpen_of_full located full)⟩
    · have room : s.store.handles.occupied < maxOpenFiles := Nat.lt_of_not_le full
      have toOpen := HostStore.hostPathToOpen_of_room located room
      rcases s.host.openEmpty_cases target with ⟨refusal, refused⟩ |
        ⟨directory, name, aimed, unslashed, notDirectory, opened⟩
      · exact .inl ⟨refusal.shown, create_of_refusal toOpen refused⟩
      · obtain ⟨answer, state⟩ := create_of_ok toOpen opened
        exact .inr ⟨target, directory, name, rfl, room, aimed, unslashed, notDirectory, answer,
          state⟩

/-- All that a removal can come to. -/
theorem remove_cases (s : HostSession) (path : Text) :
    (∃ cause, ((remove path).run s).answer = .error cause ∧ ((remove path).run s).state = s) ∨
    (∃ target directory name content, (s.store.hostPath path).1 = .ok target ∧
      s.host.target target = .ok (.entry directory name) ∧
      HostPath.endsInSlash target = false ∧
      s.host.node? (directory ++ [name]) = some (.file content) ∧
      ((remove path).run s).answer = .ok () ∧ ((remove path).run s).state =
        ⟨{ s.store with handles :=
            (s.store.handles.retain fun other => !HostPath.same other target).1 },
          s.host.without (directory ++ [name])⟩) := by
  cases located : (s.store.hostPath path).1 with
  | error cause => exact .inl ⟨cause, remove_of_error located⟩
  | ok target =>
    rcases s.host.unlink_cases target with ⟨refusal, refused⟩ |
      ⟨directory, name, content, aimed, unslashed, found, unlinked⟩
    · exact .inl ⟨refusal.shown, remove_of_refusal located refused⟩
    · obtain ⟨answer, state⟩ := remove_of_ok located unlinked
      exact .inr ⟨target, directory, name, content, rfl, aimed, unslashed, found, answer, state⟩

theorem state_holds : ((holds path).run s).state = s := by
  simp only [Step.run, holds]
  split <;> rfl

theorem holds_of_error {cause : FileError} (h : (s.store.hostPath path).1 = .error cause) :
    ((holds path).run s).answer = false := by
  obtain ⟨events, found⟩ : ∃ events, s.store.hostPath path = (.error cause, events) :=
    ⟨_, Prod.ext h rfl⟩
  simp only [Step.run, holds, found]

theorem holds_of_ok (h : (s.store.hostPath path).1 = .ok target) :
    ((holds path).run s).answer = s.host.holds target := by
  obtain ⟨events, found⟩ : ∃ events, s.store.hostPath path = (.ok target, events) :=
    ⟨_, Prod.ext h rfl⟩
  simp only [Step.run, holds, found]

theorem close_cases (s : HostSession) (handle : Handle) :
    (s.store.handles.get? handle.index = none ∧ ((close handle).run s).answer = .error .badHandle ∧
      ((close handle).run s).state = s) ∨
    ((s.store.handles.get? handle.index).isSome ∧ ((close handle).run s).answer = .ok () ∧
      ((close handle).run s).state =
        ⟨{ s.store with handles := s.store.handles.erase handle.index }, s.host⟩) := by
  simp only [Step.run, close, HostStore.close]
  cases s.store.handles.get? handle.index with
  | none => exact .inl ⟨rfl, rfl, rfl⟩
  | some path => exact .inr ⟨rfl, rfl, rfl⟩

theorem close_of_free {handle : Handle} (free : s.store.handles.get? handle.index = none) :
    ((close handle).run s).answer = .error .badHandle := by
  rcases close_cases s handle with ⟨-, refused, -⟩ | ⟨live, -, -⟩
  · exact refused
  · rw [free] at live
    cases live

theorem atomic_fileSystem : fileSystem.Atomic where
  create path s cause failed := by
    rcases create_cases s path with ⟨_, -, same⟩ | ⟨_, _, _, -, -, -, -, -, opened, -⟩
    · exact same
    · cases opened.symm.trans failed
  close handle s cause failed := by
    rcases close_cases s handle with ⟨-, -, same⟩ | ⟨-, closed, -⟩
    · exact same
    · cases closed.symm.trans failed
  remove path s cause failed := by
    rcases remove_cases s path with ⟨_, -, same⟩ | ⟨_, _, _, _, -, -, -, -, removed, -⟩
    · exact same
    · cases removed.symm.trans failed

end HostSession

end FileRemoval
