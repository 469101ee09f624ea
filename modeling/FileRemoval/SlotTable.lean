/-! # Slot tables

Numbered slots, each empty or holding one element. An element goes to the least empty slot, and
taking one out leaves the others where they are, so a number stays good for as long as its element
is there. Slots are added at the end when all are taken, and never given up. -/

namespace FileRemoval

structure SlotTable (α : Type) where
  slots : List (Option α)
deriving DecidableEq, Repr

/-- What remains of a sweep: the table, how many slots it emptied, the last state of `keep`. -/
structure Swept (α σ : Type) where
  table : SlotTable α
  emptied : Nat
  final : σ

namespace SlotTable

variable {α σ : Type}

/-! ### Operations on slots -/

/-- Puts `a` into the first empty slot, or into a new one at the end, and tells its number. -/
def insertInto (a : α) : List (Option α) → List (Option α) × Nat
  | [] => ([some a], 0)
  | none :: rest => (some a :: rest, 0)
  | some b :: rest => (some b :: (insertInto a rest).1, (insertInto a rest).2 + 1)

/-- Shows the elements to `keep` in the order of their slots and empties the slots of those it
turns down. `keep` may let its answer depend on what it saw before, through a state of its own. -/
def sweepSlots (keep : σ → α → Bool × σ) : σ → List (Option α) → List (Option α) × Nat × σ
  | s, [] => ([], 0, s)
  | s, none :: rest =>
    let (slots, emptied, final) := sweepSlots keep s rest
    (none :: slots, emptied, final)
  | s, some a :: rest =>
    let (slots, emptied, final) := sweepSlots keep (keep s a).2 rest
    if (keep s a).1 then (some a :: slots, emptied, final)
    else (none :: slots, emptied + 1, final)

/-! ### Tables -/

def empty : SlotTable α := ⟨[]⟩

instance : EmptyCollection (SlotTable α) := ⟨empty⟩
instance : Inhabited (SlotTable α) := ⟨empty⟩

def get? (t : SlotTable α) (i : Nat) : Option α :=
  t.slots[i]?.join

def insert (t : SlotTable α) (a : α) : SlotTable α × Nat :=
  (⟨(insertInto a t.slots).1⟩, (insertInto a t.slots).2)

def erase (t : SlotTable α) (i : Nat) : SlotTable α :=
  ⟨t.slots.set i none⟩

def occupied (t : SlotTable α) : Nat :=
  t.slots.countP Option.isSome

/-- Empties the slots whose elements `keep` turns down, one call for each element in slot order. -/
def sweep (t : SlotTable α) (keep : σ → α → Bool × σ) (start : σ) : Swept α σ :=
  let (slots, emptied, final) := sweepSlots keep start t.slots
  ⟨⟨slots⟩, emptied, final⟩

def retain (t : SlotTable α) (keep : α → Bool) : SlotTable α × Nat :=
  let swept := t.sweep (fun _ a => (keep a, ())) ()
  (swept.table, swept.emptied)

/-! ### Lookups -/

@[simp] theorem get?_empty (i : Nat) : (∅ : SlotTable α).get? i = none := rfl

/-- An insertion binds its slot and leaves every other as it was. -/
theorem get?_insert (t : SlotTable α) (a : α) (i : Nat) :
    (t.insert a).1.get? i = if i = (t.insert a).2 then some a else t.get? i := by
  obtain ⟨slots⟩ := t
  simp only [insert, get?]
  induction slots generalizing i with
  | nil => cases i <;> simp [insertInto]
  | cons slot rest ih =>
    cases slot with
    | none => cases i <;> simp [insertInto]
    | some b =>
      cases i with
      | zero => simp [insertInto]
      | succ i =>
        have := ih i
        by_cases h : i = (insertInto a rest).2 <;> simp_all [insertInto]

theorem get?_insert_index (t : SlotTable α) (a : α) : t.get? (t.insert a).2 = none := by
  obtain ⟨slots⟩ := t
  simp only [insert, get?]
  induction slots with
  | nil => rfl
  | cons slot rest ih =>
    cases slot with
    | none => rfl
    | some b => simpa [insertInto] using ih

/-- Every slot below the one an insertion takes is in use. -/
theorem get?_of_lt_insert_index (t : SlotTable α) (a : α) {i : Nat} (h : i < (t.insert a).2) :
    (t.get? i).isSome := by
  obtain ⟨slots⟩ := t
  simp only [insert, get?] at h ⊢
  induction slots generalizing i with
  | nil => simp [insertInto] at h
  | cons slot rest ih =>
    cases slot with
    | none => simp [insertInto] at h
    | some b =>
      cases i with
      | zero => simp
      | succ i =>
        simp only [insertInto, Nat.add_lt_add_iff_right] at h
        simpa using ih h

theorem get?_erase (t : SlotTable α) (i j : Nat) :
    (t.erase i).get? j = if j = i then none else t.get? j := by
  simp only [erase, get?, List.getElem?_set]
  by_cases h : i = j
  · subst h
    by_cases inside : i < t.slots.length <;> simp [inside]
  · simp [h, Ne.symm h]

/-- An element that goes in and comes out again leaves every slot as it was. -/
theorem get?_erase_insert (t : SlotTable α) (a : α) (i : Nat) :
    ((t.insert a).1.erase (t.insert a).2).get? i = t.get? i := by
  rw [get?_erase, get?_insert]
  split
  · rename_i same
    rw [same, get?_insert_index]
  · rfl

theorem get?_retain (t : SlotTable α) (keep : α → Bool) (i : Nat) :
    (t.retain keep).1.get? i = (t.get? i).filter keep := by
  obtain ⟨slots⟩ := t
  simp only [retain, sweep, get?]
  induction slots generalizing i with
  | nil => rfl
  | cons slot rest ih =>
    cases slot with
    | none =>
      cases i with
      | zero => rfl
      | succ i => simpa [sweepSlots] using ih i
    | some a =>
      cases i with
      | zero => by_cases h : keep a <;> simp [sweepSlots, Option.filter, h]
      | succ i =>
        by_cases h : keep a
        · simpa [sweepSlots, h] using ih i
        · simpa [sweepSlots, h] using ih i

end SlotTable

end FileRemoval
