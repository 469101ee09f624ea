import FileRemoval.Proofs.Memory.Histories
import FileRemoval.Proofs.Remover.Runs
import FileRemoval.Proofs.Step.Commuting
import Mathlib.Data.List.Basic

/-! # Removals of unrelated paths

A removal looks at the node of its path and at the directory above, and changes that node and the
handles on it. So removals of paths that are neither the same nor one directly above the other
can be done in any order. -/

namespace FileRemoval

theorem Remover.run_follows_remove {σ : Type} (files : FileSystem (Step σ)) (path : Text)
    (out : Sink) :
    Step.Follows (Remover.run ⟨files, false⟩ [path] out) (files.remove path) :=
  ⟨fun answer => ((reportOf path answer).exit, (out.write (reportOf path answer).text.utf8).1),
    fun s => run_one ⟨files, false⟩ path out s⟩

namespace Memory

open Path

/-- The directory `parent` is the one that holds what is at `key`. -/
def IsParent (parent key : Text) : Prop :=
  (parentFile key).map (·.1) = some parent

instance (parent key : Text) : Decidable (IsParent parent key) :=
  inferInstanceAs (Decidable (_ = _))

def Unrelated (key other : Text) : Prop :=
  key ≠ other ∧ ¬ IsParent key other ∧ ¬ IsParent other key

instance (key other : Text) : Decidable (Unrelated key other) :=
  inferInstanceAs (Decidable (_ ∧ _))

theorem Unrelated.symm {key other : Text} (h : Unrelated key other) : Unrelated other key :=
  ⟨Ne.symm h.1, h.2.2, h.2.1⟩

/-- Two paths that lead to unrelated places, or of which one leads nowhere. -/
def Apart (path other : Text) : Prop :=
  ∀ key ∈ (resolve top path).toOption, ∀ next ∈ (resolve top other).toOption, Unrelated key next

instance (path other : Text) : Decidable (Apart path other) :=
  inferInstanceAs (Decidable (∀ key ∈ _, _))

/-! ### What a removal looks at -/

section

variable {m : Memory} {key other : Text}

theorem answer_removeAt_congr {m' : Memory} (parent : m'.checkParent key = m.checkParent key)
    (node : m'.nodes.get? key = m.nodes.get? key) :
    ((removeAt key).run m').answer = ((removeAt key).run m).answer := by
  simp only [Step.run, removeAt, parent, node]
  cases m.checkParent key with
  | error cause => rfl
  | ok _ =>
    cases m.nodes.get? key with
    | none => rfl
    | some found =>
      dsimp only
      cases found.kind <;> rfl

theorem checkParent_dropAt (notParent : ¬ IsParent key other) :
    (m.dropAt key).state.checkParent other = m.checkParent other := by
  unfold checkParent
  cases split : parentFile other with
  | none => rfl
  | some parts =>
    obtain ⟨parent, name⟩ := parts
    have apart : parent ≠ key := by
      intro same
      apply notParent
      rw [IsParent, split, Option.map_some, same]
    have found : (m.dropAt key).state.nodes.get? parent = m.nodes.get? parent :=
      SortedMap.get?_erase_of_ne m.nodes apart
    simp only [found]

/-- A removal answers the same before and after one of an unrelated path. -/
theorem answer_removeAt_after (unrelated : Unrelated key other) (m : Memory) :
    ((removeAt other).run ((removeAt key).run m).state).answer =
      ((removeAt other).run m).answer := by
  rcases removeAt_cases m key with ⟨cause, failed⟩ | ⟨-, -, dropped⟩
  · rw [failed]
    rfl
  · rw [dropped]
    apply answer_removeAt_congr
    · exact checkParent_dropAt unrelated.2.1
    · exact SortedMap.get?_erase_of_ne m.nodes (Ne.symm unrelated.1)

/-! ### What a removal changes -/

theorem state_removeAt (m : Memory) (key : Text) :
    ((removeAt key).run m).state =
      match ((removeAt key).run m).answer with
      | .error _ => m
      | .ok _ => (m.dropAt key).state := by
  rcases removeAt_cases m key with ⟨cause, failed⟩ | ⟨-, -, dropped⟩
  · rw [failed]
    rfl
  · rw [dropped]
    rfl

theorem dropAt_comm (m : Memory) (key other : Text) :
    ((m.dropAt key).state.dropAt other).state = ((m.dropAt other).state.dropAt key).state := by
  show Memory.mk ((m.nodes.erase key).erase other)
      ((m.handles.retain (· ≠ key)).1.retain (· ≠ other)).1 m.nextInode =
    Memory.mk ((m.nodes.erase other).erase key)
      ((m.handles.retain (· ≠ other)).1.retain (· ≠ key)).1 m.nextInode
  rw [SortedMap.erase_comm, SlotTable.retain_comm]

theorem commutes_removeAt (unrelated : Unrelated key other) :
    Step.Commutes (removeAt key) (removeAt other) where
  first := answer_removeAt_after unrelated.symm
  second := answer_removeAt_after unrelated
  state m := by
    rw [state_removeAt ((removeAt key).run m).state other,
      state_removeAt ((removeAt other).run m).state key, answer_removeAt_after unrelated,
      answer_removeAt_after unrelated.symm, state_removeAt m key, state_removeAt m other]
    cases ((removeAt key).run m).answer with
    | error _ => cases ((removeAt other).run m).answer <;> rfl
    | ok _ =>
      cases ((removeAt other).run m).answer with
      | error _ => rfl
      | ok _ => exact dropAt_comm m key other

end

/-! ### Removals by path -/

theorem remove_follows {path key : Text} (resolved : resolve top path = .ok key) :
    Step.Follows (remove path) (removeAt key) := by
  refine ⟨id, fun m => ?_⟩
  rw [remove, run_resolving_ok removeAt m resolved]
  exact ⟨rfl, rfl⟩

theorem commutes_remove_of_error {path : Text} {cause : FileError} {β : Type}
    (resolved : resolve top path = .error cause) (y : Step Memory β) :
    Step.Commutes (remove path) y := by
  apply Step.Commutes.of_constant (a := .error cause)
  intro m
  rw [remove, run_resolving_error removeAt m resolved]
  exact ⟨rfl, rfl⟩

theorem commutes_remove {path other : Text} (apart : Apart path other) :
    Step.Commutes (remove path) (remove other) := by
  cases resolved : resolve top path with
  | error cause => exact commutes_remove_of_error resolved (remove other)
  | ok key =>
    cases resolvedOther : resolve top other with
    | error cause => exact (commutes_remove_of_error resolvedOther (remove path)).symm
    | ok next =>
      have unrelated : Unrelated key next := by
        apply apart
        · rw [resolved]
          rfl
        · rw [resolvedOther]
          rfl
      exact (commutes_removeAt unrelated).of_follows (remove_follows resolved)
        (remove_follows resolvedOther)

/-- Unrelated paths can be removed in any order, from every store. In each order every path is
answered as if it were removed alone, and the stores that are left are the same, down to the slots
of the handles. So it is with runs of the remover that do not create the file first. -/
theorem removals_in_any_order (m : Memory) {paths order : List Text} (perm : paths.Perm order)
    (apart : paths.Pairwise Apart) (out : Sink) :
    let alone := fun path => ((remove path).run m).answer
    let run := fun path => Remover.run ⟨fileSystem, false⟩ [path] out
    let runAlone := fun path => ((run path).run m).answer
    (((paths.mapM remove).run m).answer = paths.map alone ∧
      ((order.mapM remove).run m).answer = order.map alone ∧
      ((order.mapM remove).run m).state = ((paths.mapM remove).run m).state) ∧
    ((paths.mapM run).run m).answer = paths.map runAlone ∧
      ((order.mapM run).run m).answer = order.map runAlone ∧
      ((order.mapM run).run m).state = ((paths.mapM run).run m).state := by
  intro alone run runAlone
  have removals : paths.Pairwise fun path other => Step.Commutes (remove path) (remove other) :=
    apart.imp commutes_remove
  have runs : paths.Pairwise fun path other => Step.Commutes (run path) (run other) :=
    removals.imp fun commute => commute.of_follows
      (Remover.run_follows_remove fileSystem _ out) (Remover.run_follows_remove fileSystem _ out)
  exact ⟨Step.mapM_perm perm removals m, Step.mapM_perm perm runs m⟩

/-- A file and a path through it are not apart: what the second removal answers depends on the
first. -/
example :
    let m := ((fileSystem.create "f".toList).run initial).state
    let removals (paths : List String) := ((paths.mapM fun s => remove s.toList).run m).answer
    removals ["f/x", "f"] = [.error .notADirectory, .ok ()] ∧
      removals ["f", "f/x"] = [.ok (), .error .notFound] := by
  decide +kernel

/-- Two files, one of them with two handles, a directory, a missing parent, a file for a parent, and
a path that leads nowhere. -/
theorem removals_in_any_order_of_six :
    let text (s : String) : Text := s.toList
    let m := ((history [.makeDirectory (text "d"), .makeDirectory (text "e"),
      .files (.create (text "f")), .files (.create (text "d/g")), .files (.create (text "h")),
      .files (.create (text "f"))]).run initial).state
    let paths := ["f", "/d/g", "", "x/y", "e", "h/z"].map text
    let order := ["h/z", "e", "/d/g", "x/y", "f", ""].map text
    paths.Perm order ∧ paths.Pairwise Apart ∧
    ((order.mapM remove).run m).answer = [.error .notADirectory, .error .isADirectory, .ok (),
      .error .notFound, .ok (), .error .invalidPath] ∧
    ((order.mapM remove).run m).state = ((paths.mapM remove).run m).state := by
  intro text m paths order
  have perm : paths.Perm order := by decide
  have apart : paths.Pairwise Apart := by decide
  obtain ⟨⟨-, answers, left⟩, -⟩ := removals_in_any_order m perm apart (.ofLimit none)
  exact ⟨perm, apart, answers.trans (by decide +kernel), left⟩

end Memory

end FileRemoval
