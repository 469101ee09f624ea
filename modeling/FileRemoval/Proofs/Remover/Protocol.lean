import FileRemoval.FileSystem.Traced
import FileRemoval.Proofs.Remover.Runs

/-! # What the remover asks of a file system

A file system may answer in any way, and let an answer depend on all that it was asked before.
Whatever it answers, a run asks for the removal once and last, and the report is what that comes
to. What goes before is said by a relation of its own. -/

namespace FileRemoval

variable {σ : Type} {files : FileSystem (Step σ)} {path : Text} {s : σ}

/-- What goes before the removal: the calls, the state that they leave, what the file system
reports meanwhile, and the warning after it, if there is one. -/
inductive Remover.Prepares (files : FileSystem (Step σ)) (path : Text) (s : σ) :
    Bool → List Call → σ → List Event → Option Event → Prop where
  | skipped : Prepares files path s false [] s [] none
  | notCreated {cause : FileError} {t : σ} {reported : List Event} :
      (files.create path).run s = ⟨.error cause, t, reported⟩ →
      Prepares files path s true [.create path] t reported (some (.createFailed path cause))
  | settled {handle : Handle} {t u : σ} {reported later : List Event} :
      (files.create path).run s = ⟨.ok handle, t, reported⟩ →
      (files.close handle).run t = ⟨.ok (), u, later⟩ →
      Prepares files path s true [.create path, .close handle] u (reported ++ later) none
  | notClosed {handle : Handle} {cause : FileError} {t u : σ} {reported later : List Event} :
      (files.create path).run s = ⟨.ok handle, t, reported⟩ →
      (files.close handle).run t = ⟨.error cause, u, later⟩ →
      Prepares files path s true [.create path, .close handle] u (reported ++ later)
        (some (.closeFailed handle path cause))

namespace Remover

/-- The creation fails, or else the close after it. -/
def Mishap (files : FileSystem (Step σ)) (path : Text) (s : σ) : Prop :=
  let created := (files.create path).run s
  ∃ cause, created.answer = .error cause ∨ ∃ handle, created.answer = .ok handle ∧
    ((files.close handle).run created.state).answer = .error cause

theorem Prepares.warning_iff {createFirst : Bool} {before : List Call} {t : σ}
    {reported : List Event} {warning : Option Event}
    (prepares : Prepares files path s createFirst before t reported warning) :
    warning.isSome ↔ createFirst = true ∧ Mishap files path s := by
  cases prepares with
  | skipped => simp
  | notCreated created => simp [Mishap, created]
  | settled created closed => simp [Mishap, created, closed]
  | notClosed created closed => simp [Mishap, created, closed]

theorem Prepares.level {createFirst : Bool} {before : List Call} {t : σ}
    {reported : List Event} {e : Event}
    (prepares : Prepares files path s createFirst before t reported (some e)) :
    e.level = .warn := by
  cases prepares <;> rfl

/-! ### The preparation -/

def preparationEvents (r : Remover (Step σ)) (path : Text) (s : σ) : List Event :=
  if r.createFirst then ((r.prepare path).run s).events else []

theorem run_traced_create (files : FileSystem (Step σ)) (path : Text) (s : σ) (calls : List Call) :
    (files.traced.create path).run (s, calls) =
      ⟨((files.create path).run s).answer, (((files.create path).run s).state,
        calls ++ [.create path]), ((files.create path).run s).events⟩ := rfl

theorem run_traced_close (files : FileSystem (Step σ)) (handle : Handle) (s : σ)
    (calls : List Call) :
    (files.traced.close handle).run (s, calls) =
      ⟨((files.close handle).run s).answer, (((files.close handle).run s).state,
        calls ++ [.close handle]), ((files.close handle).run s).events⟩ := rfl

theorem run_traced_remove (files : FileSystem (Step σ)) (path : Text) (s : σ) (calls : List Call) :
    (files.traced.remove path).run (s, calls) =
      ⟨((files.remove path).run s).answer, (((files.remove path).run s).state,
        calls ++ [.remove path]), ((files.remove path).run s).events⟩ := rfl

theorem exists_prepares (files : FileSystem (Step σ)) (createFirst : Bool) (path : Text) (s : σ) :
    ∃ before reported warning,
      Prepares files path s createFirst before (prepared ⟨files, createFirst⟩ path s) reported
        warning ∧
      prepared ⟨files.traced, createFirst⟩ path (s, []) =
        (prepared ⟨files, createFirst⟩ path s, before) ∧
      preparationEvents ⟨files, createFirst⟩ path s = reported ++ warning.toList := by
  cases createFirst with
  | false => exact ⟨[], [], none, .skipped, rfl, rfl⟩
  | true =>
    cases created : (files.create path).run s with
    | mk answer t reported =>
      cases answer with
      | error cause =>
        have left : prepared ⟨files, true⟩ path s = t := by
          simp [prepared, prepare, created]
        rw [left]
        refine ⟨_, _, _, .notCreated created, ?_, ?_⟩
        · simp [prepared, prepare, run_traced_create, created]
        · simp [preparationEvents, prepare, created]
      | ok handle =>
        cases closed : (files.close handle).run t with
        | mk answer u later =>
          have left : prepared ⟨files, true⟩ path s = u := by
            cases answer <;> simp [prepared, prepare, created, closed]
          have traced : prepared ⟨files.traced, true⟩ path (s, []) =
              (u, [.create path, .close handle]) := by
            cases answer <;>
              simp [prepared, prepare, run_traced_create, run_traced_close, created, closed]
          rw [left, traced]
          cases answer with
          | error cause =>
            refine ⟨_, _, _, .notClosed created closed, rfl, ?_⟩
            simp [preparationEvents, prepare, created, closed]
          | ok _ =>
            refine ⟨_, _, _, .settled created closed, rfl, ?_⟩
            simp [preparationEvents, prepare, created, closed]

/-! ### The run -/

def newsOf (path : Text) : Except FileError Unit → List Event
  | .error _ => []
  | .ok () => [.removed path]

theorem events_removeAt (r : Remover (Step σ)) (path : Text) (s : σ) :
    let removed := (r.files.remove path).run (r.prepared path s)
    ((r.removeAt path).run s).events =
      r.preparationEvents path s ++ removed.events ++ newsOf path removed.answer := by
  obtain ⟨files, createFirst⟩ := r
  have removal : ∀ t, ((Remover.removeAt ⟨files, false⟩ path).run t).events =
      ((files.remove path).run t).events ++ newsOf path ((files.remove path).run t).answer := by
    intro t
    simp only [removeAt, Bool.false_eq_true, ↓reduceIte, Step.run_bind]
    cases ((files.remove path).run t).answer <;> rfl
  cases createFirst with
  | false => exact removal s
  | true =>
    have later := removal ((prepare ⟨files, true⟩ path).run s).state
    simp only [List.append_assoc]
    exact congrArg (((prepare ⟨files, true⟩ path).run s).events ++ ·) later

theorem run_one_unbounded (r : Remover (Step σ)) (path : Text) (s : σ) :
    let removed := (r.files.remove path).run (r.prepared path s)
    let outcome := reportOf path removed.answer
    (r.run [path] (.ofLimit none)).run s =
      ⟨(outcome.exit, ⟨outcome.text.utf8, none⟩), removed.state,
        r.preparationEvents path s ++ removed.events ++ newsOf path removed.answer⟩ := by
  intro removed outcome
  obtain ⟨answer, state⟩ := run_removeAt r path s
  have events := events_removeAt r path s
  have single : r.attempt [path] = r.removeAt path := rfl
  have written (o : Report) :
      (deliver (.ofLimit none) o : Step σ Sink) = pure ⟨o.text.utf8, none⟩ := rfl
  simp only [run, single, written, Step.run_bind, Step.run_pure, answer, state, events,
    List.append_nil]
  rfl

theorem run_not_one_unbounded (r : Remover (Step σ)) {paths : List Text}
    (notOne : ∀ path, paths ≠ [path]) (s : σ) :
    (r.run paths (.ofLimit none)).run s =
      ⟨(.failure, ⟨Report.usage.text.utf8, none⟩), s, []⟩ := by
  simp only [run, attempt_not_one r notOne]
  rfl

/-- What a run asks of a file system, whatever that is and however it answers. Without exactly one
path it asks for nothing. Else it asks for the creation, if it is to create the file, then gives
back the handle that this has led to, once, and last and in every case asks once for the removal.
Exit and report say what the removal came to. The remover itself reports the removal if it
succeeds, and gives one warning if the creation or the close failed, before the removal. -/
theorem run_protocol (files : FileSystem (Step σ)) (createFirst : Bool) (paths : List Text)
    (s : σ) :
    let last := (run ⟨files, createFirst⟩ paths (.ofLimit none)).run s
    let traced := (run ⟨files.traced, createFirst⟩ paths (.ofLimit none)).run (s, [])
    let ends := fun (exit : Exit) (line : Text) =>
      last.answer = (exit, ⟨Text.utf8 (line ++ ['\n']), none⟩)
    traced.answer = last.answer ∧ traced.state.1 = last.state ∧
    ((∀ path, paths ≠ [path]) →
      traced.state.2 = [] ∧ last.state = s ∧ last.events = [] ∧
        ends .failure "Usage: rm <file>".toList) ∧
    ∀ path, paths = [path] → ∃ before t reported warning,
      Prepares files path s createFirst before t reported warning ∧
      let removed := (files.remove path).run t
      traced.state.2 = before ++ [.remove path] ∧ last.state = removed.state ∧
      (warning.isSome ↔ createFirst = true ∧ Mishap files path s) ∧
      (∀ e, warning = some e → e.level = .warn) ∧ (Event.removed path).level = .info ∧
      (removed.answer = .ok () →
        ends .success ("remove successful: ".toList ++ path) ∧
        last.events = reported ++ warning.toList ++ removed.events ++ [.removed path]) ∧
      ∀ cause, removed.answer = .error cause →
        ends .failure ("Unable to remove ".toList ++ path ++ ": ".toList ++ cause.message) ∧
        last.events = reported ++ warning.toList ++ removed.events := by
  intro last traced ends
  by_cases one : ∃ path, paths = [path]
  · obtain ⟨path, rfl⟩ := one
    have notNone : ¬ ∀ other, [path] ≠ [other] := fun bad => bad path rfl
    obtain ⟨before, reported, warning, prepares, tracedBefore, preparation⟩ :=
      exists_prepares files createFirst path s
    have outcome : last = _ := run_one_unbounded ⟨files, createFirst⟩ path s
    have tracedOutcome : traced = _ :=
      run_one_unbounded ⟨files.traced, createFirst⟩ path (s, [])
    rw [tracedBefore, run_traced_remove] at tracedOutcome
    refine ⟨by rw [tracedOutcome, outcome], by rw [tracedOutcome, outcome],
      fun notOne => absurd notOne notNone, fun other same => ?_⟩
    cases same
    refine ⟨before, _, reported, warning, prepares, by rw [tracedOutcome], by rw [outcome],
      prepares.warning_iff, ?_, rfl, ?_, ?_⟩
    · rintro e rfl
      exact prepares.level
    · intro success
      simp only [ends, outcome, success, preparation]
      exact ⟨rfl, rfl⟩
    · intro cause failed
      simp only [ends, outcome, failed, preparation]
      exact ⟨rfl, List.append_nil _⟩
  · have notOne : ∀ path, paths ≠ [path] := fun path same => one ⟨path, same⟩
    have outcome : last = _ := run_not_one_unbounded ⟨files, createFirst⟩ notOne s
    have tracedOutcome : traced = _ :=
      run_not_one_unbounded ⟨files.traced, createFirst⟩ notOne (s, [])
    simp only [ends, outcome, tracedOutcome]
    exact ⟨trivial, trivial, fun _ => ⟨trivial, trivial, trivial, rfl⟩,
      fun path same => absurd same (notOne path)⟩

end Remover

end FileRemoval
