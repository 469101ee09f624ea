import Mathlib.Data.List.ReduceOption
import FileRemoval.Proofs.SlotTable.FiniteMap

/-! # Sweeping a slot table

A sweep shows its elements to a machine that may answer by all that it was shown before. A record
beside the machine's state tells what it was shown and what it said: every element once, in the
order of the slots. The answers alone decide which slots are emptied. -/

namespace FileRemoval.SlotTable

variable {α σ : Type}

/-! ### What a machine is asked -/

/-- The machine with a record of what it was shown, and of its answers. -/
def recording (keep : σ → α → Bool × σ) : σ × List (α × Bool) → α → Bool × (σ × List (α × Bool)) :=
  fun s a => ((keep s.1 a).1, (keep s.1 a).2, s.2 ++ [(a, (keep s.1 a).1)])

/-- What the machine answers to elements that it is shown one after the other. -/
def answers (keep : σ → α → Bool × σ) (shown : List α) : StateM σ (List Bool) :=
  shown.mapM fun a s => keep s a

def elements (t : SlotTable α) : List α :=
  t.slots.reduceOption

/-- How many slots before the `i`-th are in use. -/
def rank (t : SlotTable α) (i : Nat) : Nat :=
  (t.slots.take i).countP Option.isSome

section

variable (keep : σ → α → Bool × σ) (s : σ) (slots : List (Option α))

theorem run_answers_cons (a : α) (rest : List α) :
    (answers keep (a :: rest)).run s =
      ((keep s a).1 :: ((answers keep rest).run (keep s a).2).1,
        ((answers keep rest).run (keep s a).2).2) := by
  simp only [answers, List.mapM_cons, StateT.run_bind, StateT.run_pure]
  rfl

theorem length_answers (shown : List α) : ((answers keep shown).run s).1.length = shown.length := by
  induction shown generalizing s with
  | nil => rfl
  | cons a rest ih => rw [run_answers_cons, List.length_cons, ih, List.length_cons]

/-! ### One slot after the other -/

theorem sweepSlots_some (a : α) : sweepSlots keep s (some a :: slots) =
    let later := sweepSlots keep (keep s a).2 slots
    (((if (keep s a).1 then some a else none) :: later.1),
      (later.2.1 + if (keep s a).1 then 0 else 1), later.2.2) := by
  rw [sweepSlots]
  dsimp only
  split <;> rfl

theorem sweepSlots_none : sweepSlots keep s (none :: slots) =
    let later := sweepSlots keep s slots
    (none :: later.1, later.2.1, later.2.2) := rfl

theorem sweepSlots_recording (done : List (α × Bool)) :
    let asked := (answers keep slots.reduceOption).run s
    let swept := sweepSlots keep s slots
    sweepSlots (recording keep) (s, done) slots =
        (swept.1, swept.2.1, swept.2.2, done ++ slots.reduceOption.zip asked.1) ∧
      asked.2 = swept.2.2 := by
  induction slots generalizing s done with
  | nil => exact ⟨by simp [sweepSlots], rfl⟩
  | cons slot rest ih =>
    cases slot with
    | none =>
      obtain ⟨watched, final⟩ := ih s done
      rw [List.reduceOption_cons_of_none, sweepSlots_none, sweepSlots_none, watched]
      exact ⟨rfl, final⟩
    | some a =>
      obtain ⟨watched, final⟩ := ih (keep s a).2 (done ++ [(a, (keep s a).1)])
      rw [List.reduceOption_cons_of_some, sweepSlots_some, sweepSlots_some, run_answers_cons]
      dsimp only [recording] at watched ⊢
      rw [watched, List.append_assoc, List.singleton_append, List.zip_cons_cons]
      exact ⟨rfl, final⟩

theorem length_sweepSlots : (sweepSlots keep s slots).1.length = slots.length := by
  induction slots generalizing s with
  | nil => rfl
  | cons slot rest ih =>
    cases slot with
    | none => rw [sweepSlots_none, List.length_cons, ih, List.length_cons]
    | some a => rw [sweepSlots_some, List.length_cons, ih, List.length_cons]

theorem emptied_add_occupied :
    (sweepSlots keep s slots).2.1 + (sweepSlots keep s slots).1.countP Option.isSome =
      slots.countP Option.isSome := by
  induction slots generalizing s with
  | nil => rfl
  | cons slot rest ih =>
    cases slot with
    | none => simpa [sweepSlots_none] using ih s
    | some a =>
      have later := ih (keep s a).2
      rw [sweepSlots_some]
      cases (keep s a).1 <;> simp <;> omega

/-- The slot is left as the answer to its own element says, whichever call that came in. -/
theorem getElem?_sweepSlots (i : Nat) :
    let calls := slots.reduceOption.zip ((answers keep slots.reduceOption).run s).1
    (slots[i]?.join = none → (sweepSlots keep s slots).1[i]?.join = none) ∧
    ∀ a, slots[i]?.join = some a →
      ∃ kept, calls[(slots.take i).countP Option.isSome]? = some (a, kept) ∧
        (sweepSlots keep s slots).1[i]?.join = if kept then some a else none := by
  induction slots generalizing s i with
  | nil => simp [sweepSlots]
  | cons slot rest ih =>
    cases slot with
    | none =>
      rw [sweepSlots_none, List.reduceOption_cons_of_none]
      cases i with
      | zero => simp
      | succ i => simpa using ih s i
    | some b =>
      rw [sweepSlots_some, List.reduceOption_cons_of_some, run_answers_cons, List.zip_cons_cons]
      cases i with
      | zero => simp
      | succ i => simpa using ih (keep s b).2 i

end

/-! ### Tables -/

theorem sweep_recording (t : SlotTable α) (keep : σ → α → Bool × σ) (start : σ) :
    let swept := t.sweep keep start
    let asked := (answers keep t.elements).run start
    t.sweep (recording keep) (start, []) =
        ⟨swept.table, swept.emptied, swept.final, t.elements.zip asked.1⟩ ∧
      asked.2 = swept.final := by
  obtain ⟨watched, final⟩ := sweepSlots_recording keep start t.slots []
  rw [List.nil_append] at watched
  refine ⟨?_, final⟩
  simp only [sweep, watched]
  rfl

theorem occupied_retain (t : SlotTable α) (keep : α → Bool) :
    (t.retain keep).2 + (t.retain keep).1.occupied = t.occupied :=
  emptied_add_occupied _ () t.slots

theorem emptied_retain_retain (t : SlotTable α) (keep also : α → Bool) :
    (t.retain keep).2 + ((t.retain keep).1.retain also).2 =
      (t.retain fun a => keep a && also a).2 := by
  have before := occupied_retain t keep
  have after := occupied_retain (t.retain keep).1 also
  have once := occupied_retain t fun a => keep a && also a
  rw [retain_retain] at after
  omega

/-- A sweep asks about every element once, in the order of the slots, and a machine that is asked
the same outside of a sweep gives the same answers. Each slot is emptied or left as the answer about
its element says, and no slot is added, filled or given up. Two sweeps by the elements alone come to
one by both. -/
theorem sweep_asks_each (t : SlotTable α) (keep : σ → α → Bool × σ) (start : σ) :
    let swept := t.sweep keep start
    let watched := t.sweep (recording keep) (start, [])
    let calls := watched.final.2
    watched.table = swept.table ∧ watched.emptied = swept.emptied ∧
    watched.final.1 = swept.final ∧
    calls.map Prod.fst = t.elements ∧
    (answers keep t.elements).run start = (calls.map Prod.snd, swept.final) ∧
    swept.table.slots.length = t.slots.length ∧
    (∀ i, t.get? i = none → swept.table.get? i = none) ∧
    (∀ i a, t.get? i = some a → ∃ kept, calls[t.rank i]? = some (a, kept) ∧
      swept.table.get? i = if kept then some a else none) ∧
    swept.emptied + swept.table.occupied = t.occupied ∧
    ∀ only also : α → Bool,
      let first := t.retain only
      let both := t.retain fun a => only a && also a
      (first.1.retain also).1 = both.1 ∧ first.2 + (first.1.retain also).2 = both.2 := by
  intro swept watched calls
  obtain ⟨same, final⟩ := sweep_recording t keep start
  have callsEq : calls = t.elements.zip ((answers keep t.elements).run start).1 := by
    simp only [calls, watched, same]
  have lengths := length_answers keep start t.elements
  refine ⟨by simp only [watched, same, swept], by simp only [watched, same, swept],
    by simp only [watched, same, swept], ?_, ?_, ?_, ?_, ?_, ?_, ?_⟩
  · rw [callsEq, List.map_fst_zip (Nat.le_of_eq lengths.symm)]
  · rw [callsEq, List.map_snd_zip (Nat.le_of_eq lengths)]
    exact Prod.ext rfl final
  · exact length_sweepSlots keep start t.slots
  · exact fun i => (getElem?_sweepSlots keep start t.slots i).1
  · rw [callsEq]
    exact fun i => (getElem?_sweepSlots keep start t.slots i).2
  · exact emptied_add_occupied keep start t.slots
  · exact fun only also => ⟨retain_retain t only also, emptied_retain_retain t only also⟩

/-- A machine that keeps every other element that it is shown, wherever the empty slots are. -/
theorem sweep_asks_each_with_hole :
    let t : SlotTable Nat := ⟨[some 5, none, some 6, some 7]⟩
    let everyOther (turn : Bool) (_ : Nat) : Bool × Bool := (turn, !turn)
    t.get? 1 = none ∧ t.get? 2 = some 6 ∧ (t.sweep everyOther true).table.get? 1 = none ∧
      (t.sweep (recording everyOther) (true, [])).final.2 = [(5, true), (6, false), (7, true)] ∧
      ∃ kept, ([(5, true), (6, false), (7, true)] : List (Nat × Bool))[t.rank 2]? = some (6, kept) ∧
        (t.sweep everyOther true).table.get? 2 = if kept then some 6 else none := by
  intro t everyOther
  obtain ⟨-, -, -, -, -, -, holes, asked, -⟩ := sweep_asks_each t everyOther true
  exact ⟨rfl, rfl, holes 1 rfl, rfl, asked 2 6 rfl⟩

end FileRemoval.SlotTable
