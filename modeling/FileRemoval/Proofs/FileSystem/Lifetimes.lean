import FileRemoval.Proofs.Host.AnyHost
import FileRemoval.Proofs.Memory.Histories

/-! # How long handles live

In a store in memory and in one on any host, a handle that is live stays live on its file until it
is given back or its file is removed, and no creation gives it out again before that. -/

namespace FileRemoval

namespace Memory

def leadsTo (path key : Text) : Bool :=
  Path.resolve Path.top path = .ok key

/-- Whether a request that was answered so ends the life of the handle that was open on `key`. -/
def Request.ends (index : Nat) (key : Text) : Request → Answer → Bool
  | .files request, .files answer => request.ends leadsTo index key answer
  | _, _ => false

theorem handles_resolving {α : Type} {act : Text → Step Memory (Except FileError α)}
    (h : ∀ key m, ((act key).run m).state.handles = m.handles) (path : Text) (m : Memory) :
    ((resolving path act).run m).state.handles = m.handles := by
  cases resolved : Path.resolve Path.top path with
  | error cause =>
    rw [run_resolving_error act m resolved]
    rfl
  | ok key =>
    rw [run_resolving_ok act m resolved]
    exact h key m

theorem handles_makeDirectoryAt (key : Text) (m : Memory) :
    ((makeDirectoryAt key).run m).state.handles = m.handles := by
  rcases makeDirectoryAt_cases m key with ⟨cause, failed⟩ | ⟨-, -, made⟩
  · rw [failed]
    rfl
  · rw [made]
    rfl

theorem handles_write (handle : Handle) (data : Bytes) (m : Memory) :
    ((write handle data).run m).state.handles = m.handles := by
  rcases write_cases m handle data with failed | ⟨key, node, -, -, written⟩
  · rw [failed]
    rfl
  · rw [written]
    rfl

theorem createAt_opens (m : Memory) (key : Text) :
    (∃ cause, (createAt key).run m = m.failure cause) ∨
    ∃ left : Memory, (createAt key).run m = left.openAt key ∧ left.handles = m.handles := by
  rcases createAt_cases m key with failed | ⟨-, -, -, made⟩ | ⟨node, -, -, -, -, emptied⟩
  · exact .inl failed
  · exact .inr ⟨_, made, rfl⟩
  · exact .inr ⟨_, emptied, rfl⟩

theorem keepsHandles : fileSystem.KeepsHandles Memory.handles (fun _ => leadsTo) where
  create path m := by
    cases resolved : Path.resolve Path.top path with
    | error cause =>
      have failed := run_resolving_error createAt m resolved
      exact .inl ⟨cause, congrArg Outcome.answer failed, congrArg (·.state.handles) failed⟩
    | ok key =>
      have led := run_resolving_ok createAt m resolved
      rcases createAt_opens m key with ⟨cause, failed⟩ | ⟨left, opened, same⟩
      · rw [failed] at led
        exact .inl ⟨cause, congrArg Outcome.answer led, congrArg (·.state.handles) led⟩
      · rw [opened] at led
        refine .inr ⟨key, decide_eq_true resolved, ?_, ?_⟩
        · rw [← same]
          exact congrArg Outcome.answer led
        · rw [← same]
          exact congrArg (·.state.handles) led
  close handle m := by
    rcases close_cases m handle with ⟨free, failed⟩ | ⟨key, live, closed⟩
    · exact .inl ⟨free, congrArg Outcome.answer failed, congrArg (·.state.handles) failed⟩
    · exact .inr ⟨Option.isSome_iff_exists.mpr ⟨key, live⟩, congrArg Outcome.answer closed,
        congrArg (·.state.handles) closed⟩
  remove path m := by
    cases resolved : Path.resolve Path.top path with
    | error cause =>
      have failed := run_resolving_error removeAt m resolved
      exact .inl ⟨cause, congrArg Outcome.answer failed, congrArg (·.state.handles) failed⟩
    | ok key =>
      have led := run_resolving_ok removeAt m resolved
      rcases removeAt_cases m key with ⟨cause, failed⟩ | ⟨-, -, dropped⟩
      · rw [failed] at led
        exact .inl ⟨cause, congrArg Outcome.answer led, congrArg (·.state.handles) led⟩
      · rw [dropped] at led
        refine .inr ⟨congrArg Outcome.answer led, ?_⟩
        have swept : (fun target => !leadsTo path target) =
            fun target => decide (target ≠ key) := by
          funext target
          simp [leadsTo, resolved, eq_comm]
        rw [swept]
        exact congrArg (·.state.handles) led
  holds path m := congrArg handles (state_holds path m)
  leadsTo_create _ _ := rfl
  leadsTo_close _ _ := rfl

theorem lifetime {m : Memory} {index : Nat} {key : Text} (live : m.handles.get? index = some key)
    (request : Request) :
    let o := (perform request).run m
    o.state.handles.get? index = if request.ends index key o.answer then none else some key := by
  cases request with
  | files request => exact keepsHandles.lifetime live request
  | makeDirectory path =>
    show ((makeDirectory path).run m).state.handles.get? index = some key
    rw [makeDirectory, handles_resolving handles_makeDirectoryAt, live]
  | write handle data =>
    show ((write handle data).run m).state.handles.get? index = some key
    rw [handles_write, live]
  | list path =>
    show ((list path).run m).state.handles.get? index = some key
    rw [state_list, live]

end Memory

/-- The law of handles holds in a store in memory after every history, and in a store on the host in
every state, also on a host of another kind, which answers as it likes. In memory it holds of the
requests too that only this store has, and a write takes all its bytes if the handle is live, and
else fails. -/
theorem handle_lifetimes :
    (∀ requests : List Memory.Request,
      let m := ((Memory.history requests).run .initial).state
      Memory.fileSystem.HandleLaw Memory.handles Memory.leadsTo m ∧
      (∀ index key, m.handles.get? index = some key → ∀ request : Memory.Request,
        let o := (Memory.perform request).run m
        o.state.handles.get? index = if request.ends index key o.answer then none else some key) ∧
      ∀ handle data, ((Memory.write handle data).run m).answer =
        if (m.handles.get? handle.index).isSome then .ok data.length else .error .badHandle) ∧
    (∀ s : HostSession,
      HostSession.fileSystem.HandleLaw (fun s => s.store.handles) s.store.leadsTo s) ∧
    ∀ (η : Type) (host : HostCalls η) (s : HostStore × η),
      (HostStore.onHost host).HandleLaw (fun s => s.1.handles) s.1.leadsTo s := by
  refine ⟨fun requests => ?_, HostSession.keepsHandles.handleLaw,
    fun η host => (HostStore.keepsHandles host).handleLaw⟩
  intro m
  have sound : Memory.Sound m := Memory.Reachable.sound ⟨requests, rfl⟩
  exact ⟨Memory.keepsHandles.handleLaw m,
    fun index key live request => Memory.lifetime live request, sound.write_eq⟩

theorem handle_lifetimes_until_removal :
    let m := ((Memory.history [.files (.create "f".toList)]).run .initial).state
    m.handles.get? 0 = some "/f".toList ∧
      ((Memory.perform (.files (.remove "d/../f".toList))).run m).state.handles.get? 0 = none :=
  ⟨rfl, (handle_lifetimes.1 [.files (.create "f".toList)]).2.1 0 "/f".toList rfl
    (.files (.remove "d/../f".toList))⟩

end FileRemoval
