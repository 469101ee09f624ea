import FileRemoval.Proofs.Remover.Runs
import FileRemoval.Proofs.Step.Simulation
import FileRemoval.SlotTable

/-! # File systems that keep their handles in a table

A creation takes the least free slot, a close empties one slot, and a removal empties the slots of
the file that it takes away. Of any file system like that, a handle that is live stays live on its
file until it is closed or its file is removed; a run of the remover, which opens and closes a slot
of its own, changes nothing about this. -/

namespace FileRemoval

variable {σ β : Type} {files : FileSystem (Step σ)} {handles : σ → SlotTable β}
  {leadsTo : σ → Text → β → Bool}

/-- The file system keeps a table of what its handles are open on, and `leadsTo` tells whether a
path leads to that. -/
structure FileSystem.KeepsHandles (files : FileSystem (Step σ)) (handles : σ → SlotTable β)
    (leadsTo : σ → Text → β → Bool) : Prop where
  create (path : Text) (s : σ) :
    let o := (files.create path).run s
    (∃ cause, o.answer = .error cause ∧ handles o.state = handles s) ∨
    ∃ target, leadsTo s path target = true ∧ o.answer = .ok ⟨((handles s).insert target).2⟩ ∧
      handles o.state = ((handles s).insert target).1
  close (handle : Handle) (s : σ) :
    let o := (files.close handle).run s
    ((handles s).get? handle.index = none ∧ o.answer = .error .badHandle ∧
      handles o.state = handles s) ∨
    (((handles s).get? handle.index).isSome ∧ o.answer = .ok () ∧
      handles o.state = (handles s).erase handle.index)
  remove (path : Text) (s : σ) :
    let o := (files.remove path).run s
    (∃ cause, o.answer = .error cause ∧ handles o.state = handles s) ∨
    (o.answer = .ok () ∧
      handles o.state = ((handles s).retain fun target => !leadsTo s path target).1)
  holds (path : Text) (s : σ) : handles ((files.holds path).run s).state = handles s
  leadsTo_create (path : Text) (s : σ) :
    leadsTo ((files.create path).run s).state = leadsTo s
  leadsTo_close (handle : Handle) (s : σ) :
    leadsTo ((files.close handle).run s).state = leadsTo s

/-- Whether a request that was answered so ends the life of the handle that was open on `target`. -/
def Request.ends (leadsTo : Text → β → Bool) (index : Nat) (target : β) : Request → Answer → Bool
  | .close handle, _ => handle.index = index
  | .remove path, .settled (.ok ()) => leadsTo path target
  | .run _ [path] _, .ended .success _ => leadsTo path target
  | _, _ => false

/-- What holds of the handles in a state: one that is live stays live on the same file, unless the
request is one that ends its life, and then it is not live any more; a creation gives out the least
handle that is not live; a close succeeds exactly for a live one. -/
structure FileSystem.HandleLaw (files : FileSystem (Step σ)) (handles : σ → SlotTable β)
    (leadsTo : Text → β → Bool) (s : σ) : Prop where
  lifetime (index : Nat) (target : β) (live : (handles s).get? index = some target)
    (request : Request) :
    let o := (files.perform request).run s
    (handles o.state).get? index =
      if request.ends leadsTo index target o.answer then none else some target
  opened (path : Text) (handle : Handle)
      (opened : ((files.create path).run s).answer = .ok handle) :
    (handles s).get? handle.index = none ∧
    (∀ index, index < handle.index → ((handles s).get? index).isSome) ∧
    ∃ target, leadsTo path target = true ∧
      (handles ((files.create path).run s).state).get? handle.index = some target
  closed (handle : Handle) :
    ((files.close handle).run s).answer =
      if ((handles s).get? handle.index).isSome then .ok () else .error .badHandle

theorem Request.ends_of_failure (leadsTo : Text → β → Bool) (index : Nat) (target : β)
    (createFirst : Bool) (paths : List Text) (room : Option Nat) (output : Bytes) :
    (Request.run createFirst paths room).ends leadsTo index target (.ended .failure output) =
      false := by
  cases paths with
  | nil => rfl
  | cons first rest => cases rest <;> rfl

namespace FileSystem.KeepsHandles

variable (keeps : files.KeepsHandles handles leadsTo)
include keeps

theorem opened {path : Text} {s : σ} {handle : Handle}
    (h : ((files.create path).run s).answer = .ok handle) :
    (handles s).get? handle.index = none ∧
    (∀ index, index < handle.index → ((handles s).get? index).isSome) ∧
    ∃ target, leadsTo s path target = true ∧
      (handles ((files.create path).run s).state).get? handle.index = some target := by
  rcases keeps.create path s with ⟨cause, failed, -⟩ | ⟨target, leads, answer, table⟩
  · cases failed.symm.trans h
  · cases answer.symm.trans h
    refine ⟨SlotTable.get?_insert_index _ target,
      fun index below => SlotTable.get?_of_lt_insert_index _ target below, target, leads, ?_⟩
    rw [table, SlotTable.get?_insert, if_pos rfl]

theorem closed (handle : Handle) (s : σ) :
    ((files.close handle).run s).answer =
      if ((handles s).get? handle.index).isSome then .ok () else .error .badHandle := by
  rcases keeps.close handle s with ⟨free, answer, -⟩ | ⟨live, answer, -⟩
  · rw [answer, free]
    rfl
  · rw [answer, if_pos live]

/-! ### Runs -/

theorem prepared (createFirst : Bool) (path : Text) (s : σ) :
    let t := Remover.prepared ⟨files, createFirst⟩ path s
    (∀ index, (handles t).get? index = (handles s).get? index) ∧ leadsTo t = leadsTo s := by
  intro t
  cases createFirst with
  | false => exact ⟨fun _ => rfl, rfl⟩
  | true =>
    have steady := keeps.leadsTo_create path s
    rcases keeps.create path s with ⟨cause, failed, same⟩ | ⟨target, -, answer, table⟩
    · have left : t = _ := Remover.run_prepare_error ⟨files, true⟩ path s failed
      rw [left]
      exact ⟨fun index => by rw [same], steady⟩
    · have left : t = _ := Remover.run_prepare_ok ⟨files, true⟩ path s answer
      rw [left]
      refine ⟨fun index => ?_, (keeps.leadsTo_close _ _).trans steady⟩
      rcases keeps.close ⟨((handles s).insert target).2⟩ ((files.create path).run s).state with
        ⟨free, -⟩ | ⟨-, -, erased⟩
      · -- the slot was taken by the creation just before
        rw [table, SlotTable.get?_insert, if_pos rfl] at free
        cases free
      · rw [erased, table, SlotTable.get?_erase_insert]

theorem run_cases (createFirst : Bool) (paths : List Text) (out : Sink) (s : σ) :
    let last := (Remover.run ⟨files, createFirst⟩ paths out).run s
    (last.answer.1 = .failure ∧ ∀ index, (handles last.state).get? index = (handles s).get? index) ∨
    ∃ path, paths = [path] ∧ last.answer.1 = .success ∧ ∀ index, (handles last.state).get? index =
      ((handles s).get? index).filter fun target => !leadsTo s path target := by
  intro last
  by_cases one : ∃ path, paths = [path]
  · obtain ⟨path, rfl⟩ := one
    obtain ⟨answer, state⟩ := Remover.run_one ⟨files, createFirst⟩ path out s
    obtain ⟨table, steady⟩ := keeps.prepared createFirst path s
    rcases keeps.remove path (Remover.prepared ⟨files, createFirst⟩ path s) with
      ⟨cause, failed, same⟩ | ⟨removed, swept⟩
    · rw [failed] at answer
      refine .inl ⟨congrArg Prod.fst answer, fun index => ?_⟩
      rw [show last.state = _ from state, same, table]
    · rw [removed] at answer
      refine .inr ⟨path, rfl, congrArg Prod.fst answer, fun index => ?_⟩
      rw [show last.state = _ from state, swept, SlotTable.get?_retain, table, steady]
  · have notOne : ∀ path, paths ≠ [path] := fun path same => one ⟨path, same⟩
    obtain ⟨failed, same⟩ := Remover.run_not_one ⟨files, createFirst⟩ out s notOne
    exact .inl ⟨failed, fun index => by rw [show last.state = s from same]⟩

/-! ### Requests -/

theorem lifetime {s : σ} {index : Nat} {target : β}
    (live : (handles s).get? index = some target) (request : Request) :
    let o := (files.perform request).run s
    (handles o.state).get? index =
      if request.ends (leadsTo s) index target o.answer then none else some target := by
  cases request with
  | create path =>
    show (handles ((files.create path).run s).state).get? index = some target
    rcases keeps.create path s with ⟨cause, -, same⟩ | ⟨other, -, -, table⟩
    · rw [same, live]
    · have apart : index ≠ ((handles s).insert other).2 := by
        rintro rfl
        rw [SlotTable.get?_insert_index] at live
        cases live
      rw [table, SlotTable.get?_insert, if_neg apart, live]
  | close handle =>
    show (handles ((files.close handle).run s).state).get? index =
      if decide (handle.index = index) = true then none else some target
    rcases keeps.close handle s with ⟨free, -, same⟩ | ⟨-, -, erased⟩
    · have apart : handle.index ≠ index := by
        rintro rfl
        rw [free] at live
        cases live
      rw [same, live, decide_eq_false apart]
      rfl
    · rw [erased, SlotTable.get?_erase, live]
      by_cases same : handle.index = index
      · rw [if_pos same.symm, if_pos (decide_eq_true same)]
      · rw [if_neg (Ne.symm same), decide_eq_false same]
        rfl
  | remove path =>
    rcases keeps.remove path s with ⟨cause, failed, same⟩ | ⟨removed, swept⟩
    · simp only [FileSystem.perform, Step.run_bind, Step.run_pure, failed, same, live]
      rfl
    · simp only [FileSystem.perform, Step.run_bind, Step.run_pure, removed, swept,
        SlotTable.get?_retain, live, Request.ends, Option.filter_some]
      cases leadsTo s path target <;> rfl
  | holds path =>
    show (handles ((files.holds path).run s).state).get? index = some target
    rw [keeps.holds, live]
  | run createFirst paths room =>
    rcases keeps.run_cases createFirst paths (.ofLimit room) s with ⟨failed, same⟩ |
      ⟨path, rfl, removed, swept⟩
    · simp only [FileSystem.perform, Step.run_bind, Step.run_pure, failed, same, live,
        Request.ends_of_failure, Bool.false_eq_true, ↓reduceIte]
    · simp only [FileSystem.perform, Step.run_bind, Step.run_pure, removed, swept, live,
        Request.ends, Option.filter_some]
      cases leadsTo s path target <;> rfl

theorem handleLaw (s : σ) : files.HandleLaw handles (leadsTo s) s where
  lifetime _ _ live request := keeps.lifetime live request
  opened _ _ opened := keeps.opened opened
  closed handle := keeps.closed handle s

/-! ### File systems that match -/

/-- What goes on in the states behind `view` goes on in the states themselves. -/
theorem of_matches {τ : Type} {others : FileSystem (Step τ)} {view : τ → σ}
    (same : others.Matches (fun t s => s = view t) files) :
    others.KeepsHandles (fun t => handles (view t)) (fun t => leadsTo (view t)) where
  create path t := by
    obtain ⟨answer, state⟩ := same.create path t (view t) rfl
    have kept := keeps.create path (view t)
    dsimp only at kept
    rw [state, ← answer] at kept
    exact kept
  close handle t := by
    obtain ⟨answer, state⟩ := same.close handle t (view t) rfl
    have kept := keeps.close handle (view t)
    dsimp only at kept
    rw [state, ← answer] at kept
    exact kept
  remove path t := by
    obtain ⟨answer, state⟩ := same.remove path t (view t) rfl
    have kept := keeps.remove path (view t)
    dsimp only at kept
    rw [state, ← answer] at kept
    exact kept
  holds path t := by
    have kept := keeps.holds path (view t)
    rw [(same.holds path t (view t) rfl).2] at kept
    exact kept
  leadsTo_create path t := by
    have kept := keeps.leadsTo_create path (view t)
    rw [(same.create path t (view t) rfl).2] at kept
    exact kept
  leadsTo_close handle t := by
    have kept := keeps.leadsTo_close handle (view t)
    rw [(same.close handle t (view t) rfl).2] at kept
    exact kept

end FileSystem.KeepsHandles

end FileRemoval
