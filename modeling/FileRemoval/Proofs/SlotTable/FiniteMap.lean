import FileRemoval.SlotTable
import FileRemoval.SortedMap

/-! # Slot tables as finite maps

A slot table holds a finite map from numbers to elements. The map says all that a lookup, the
number of elements and the slot of the next insertion depend on: how many empty slots stand at the
end of the table does not matter. -/

namespace FileRemoval

namespace SortedMap

variable {α : Type}

/-! ### Size and filter -/

def size {κ α : Type} [Ord κ] (m : SortedMap κ α) : Nat :=
  m.entries.length

def filter {κ α : Type} [Ord κ] (keep : α → Bool) (m : SortedMap κ α) : SortedMap κ α :=
  ⟨m.entries.filter fun e => keep e.2, m.ascending.filter _⟩

theorem get?_filter {κ α : Type} [Ord κ] [Std.LawfulEqOrd κ] [DecidableEq κ]
    (keep : α → Bool) (m : SortedMap κ α) (key : κ) :
    (m.filter keep).get? key = (m.get? key).filter keep := by
  ext value
  rw [get?_eq_some_iff, Option.filter_eq_some_iff, get?_eq_some_iff]
  exact List.mem_filter

section

variable {κ α : Type} [Ord κ]

theorem length_insertIn {key : κ} {l : List (κ × α)} (value : α) (absent : lookupIn key l = none) :
    (insertIn key value l).length = l.length + 1 := by
  induction l with
  | nil => rfl
  | cons e rest ih =>
    rw [lookupIn] at absent
    rw [insertIn]
    split
    · rfl
    · rename_i same
      rw [if_pos same] at absent
      cases absent
    · rename_i above
      rw [if_neg (by rw [above]; decide)] at absent
      rw [List.length_cons, ih absent, List.length_cons]

theorem size_filter_add (keep : α → Bool) (m : SortedMap κ α) :
    (m.filter keep).size + m.values.countP (fun a => !keep a) = m.size := by
  have dropped : m.values.countP (fun a => !keep a) = m.entries.countP fun e => !keep e.2 :=
    List.countP_map
  have all := List.length_eq_countP_add_countP (fun e : κ × α => keep e.2) (l := m.entries)
  rw [List.countP_eq_length_filter] at all
  simp only [Bool.not_eq_true, Bool.decide_eq_false] at all
  rw [dropped]
  exact all.symm

theorem filter_eq_self {keep : α → Bool} {m : SortedMap κ α}
    (h : m.values.countP (fun a => !keep a) = 0) : m.filter keep = m := by
  refine ext_entries (List.filter_eq_self.mpr fun e member => ?_)
  have kept := List.countP_eq_zero.mp h e.2 (List.mem_map_of_mem member)
  simpa using kept

variable [Std.TransOrd κ]

theorem size_insert_of_absent {m : SortedMap κ α} {key : κ} (value : α)
    (absent : m.get? key = none) : (m.insert key value).size = m.size + 1 :=
  length_insertIn value absent

theorem size_erase_of_present [Std.LawfulEqOrd κ] [DecidableEq κ] {m : SortedMap κ α} {key : κ}
    {value : α} (present : m.get? key = some value) : (m.erase key).size + 1 = m.size := by
  have back : (m.erase key).insert key value = m := by
    refine ext_get? fun other => ?_
    rw [get?_insert, get?_erase]
    split
    · rename_i same
      rw [same, present]
    · rfl
  rw [← size_insert_of_absent value (m.get?_erase_self key), back]

end

/-! ### The least number that is no key -/

/-- The least number from `n` on that is no key of the entries, whose keys ascend from `n`. -/
def leastFrom : Nat → List (Nat × α) → Nat
  | n, [] => n
  | n, e :: rest => if e.1 = n then leastFrom (n + 1) rest else n

def leastFree (m : SortedMap Nat α) : Nat :=
  leastFrom 0 m.entries

theorem leastFrom_spec {l : List (Nat × α)} {n : Nat}
    (ascending : l.Pairwise fun a b => compare a.1 b.1 = .lt) (above : ∀ e ∈ l, n ≤ e.1) :
    n ≤ leastFrom n l ∧ (∀ e ∈ l, e.1 ≠ leastFrom n l) ∧
      ∀ i, n ≤ i → i < leastFrom n l → ∃ e ∈ l, e.1 = i := by
  -- `n` goes up by one with every key that is met in its place; the first gap ends it
  induction l generalizing n with
  | nil =>
    refine ⟨Nat.le_refl n, fun e member => absurd member List.not_mem_nil, fun i low high => ?_⟩
    exact absurd high (Nat.not_lt.mpr low)
  | cons first rest ih =>
    obtain ⟨later, restAscending⟩ := List.pairwise_cons.mp ascending
    have beyond : ∀ e ∈ rest, first.1 + 1 ≤ e.1 := fun e member =>
      Nat.compare_eq_lt.mp (later e member)
    have start : n ≤ first.1 := above first List.mem_cons_self
    by_cases here : first.1 = n
    · rw [here] at beyond
      obtain ⟨low, free, taken⟩ := ih restAscending beyond
      simp only [leastFrom, if_pos here]
      refine ⟨by omega, ?_, ?_⟩
      · intro e member
        rcases List.mem_cons.mp member with rfl | inRest
        · omega
        · exact free e inRest
      · intro i from_n below
        by_cases isFirst : i = n
        · exact ⟨first, List.mem_cons_self, by omega⟩
        · obtain ⟨e, inRest, same⟩ := taken i (by omega) below
          exact ⟨e, List.mem_cons_of_mem _ inRest, same⟩
    · simp only [leastFrom, if_neg here]
      refine ⟨Nat.le_refl n, ?_, fun i low high => absurd high (Nat.not_lt.mpr low)⟩
      intro e member
      rcases List.mem_cons.mp member with rfl | inRest
      · exact here
      · have := beyond e inRest
        omega

theorem get?_leastFree (m : SortedMap Nat α) : m.get? m.leastFree = none := by
  obtain ⟨-, free, -⟩ := leastFrom_spec m.ascending (fun e _ => Nat.zero_le e.1)
  rw [Option.eq_none_iff_forall_ne_some]
  intro a found
  exact free (m.leastFree, a) ((get?_eq_some_iff m m.leastFree a).mp found) rfl

theorem get?_of_lt_leastFree (m : SortedMap Nat α) {i : Nat} (h : i < m.leastFree) :
    m.get? i ≠ none := by
  obtain ⟨-, -, taken⟩ := leastFrom_spec m.ascending (fun e _ => Nat.zero_le e.1)
  obtain ⟨e, member, rfl⟩ := taken i (Nat.zero_le i) h
  rw [(get?_eq_some_iff m e.1 e.2).mpr member]
  exact Option.some_ne_none e.2

end SortedMap

namespace SlotTable

variable {α β : Type}

/-! ### The map of a table -/

/-- The elements in a list of slots, with the numbers of their slots from `n` on. -/
def entriesFrom : Nat → List (Option α) → List (Nat × α)
  | _, [] => []
  | n, none :: rest => entriesFrom (n + 1) rest
  | n, some a :: rest => (n, a) :: entriesFrom (n + 1) rest

theorem le_of_mem_entriesFrom {slots : List (Option α)} {n : Nat} {e : Nat × α}
    (h : e ∈ entriesFrom n slots) : n ≤ e.1 := by
  induction slots generalizing n with
  | nil => cases h
  | cons slot rest ih =>
    cases slot with
    | none =>
      have := ih h
      omega
    | some a =>
      rcases List.mem_cons.mp h with rfl | later
      · exact Nat.le_refl n
      · have := ih later
        omega

theorem ascending_entriesFrom (n : Nat) (slots : List (Option α)) :
    (entriesFrom n slots).Pairwise fun a b => compare a.1 b.1 = .lt := by
  induction slots generalizing n with
  | nil => exact .nil
  | cons slot rest ih =>
    cases slot with
    | none => exact ih (n + 1)
    | some a =>
      refine .cons (fun e member => ?_) (ih (n + 1))
      exact Nat.compare_eq_lt.mpr (le_of_mem_entriesFrom member)

theorem lookupIn_entriesFrom (n i : Nat) (slots : List (Option α)) :
    SortedMap.lookupIn (n + i) (entriesFrom n slots) = slots[i]?.join := by
  induction slots generalizing n i with
  | nil => rfl
  | cons slot rest ih =>
    cases i with
    | zero =>
      cases slot with
      | none =>
        simp only [entriesFrom, Nat.add_zero, List.getElem?_cons_zero, Option.join_some]
        cases found : SortedMap.lookupIn n (entriesFrom (n + 1) rest) with
        | none => rfl
        | some a =>
          have member := (SortedMap.get?_eq_some_iff
            ⟨_, ascending_entriesFrom (n + 1) rest⟩ n a).mp found
          have := le_of_mem_entriesFrom member
          omega
      | some a => simp [entriesFrom, SortedMap.lookupIn]
    | succ i =>
      have shifted : n + (i + 1) = n + 1 + i := by omega
      rw [List.getElem?_cons_succ, ← ih (n + 1) i, shifted]
      cases slot with
      | none => rfl
      | some a =>
        have later : n + 1 + i ≠ n := by omega
        simp [entriesFrom, SortedMap.lookupIn, later]

def toMap (t : SlotTable α) : SortedMap Nat α :=
  ⟨entriesFrom 0 t.slots, ascending_entriesFrom 0 t.slots⟩

@[simp] theorem get?_toMap (t : SlotTable α) (i : Nat) : t.toMap.get? i = t.get? i := by
  have found := lookupIn_entriesFrom 0 i t.slots
  rwa [Nat.zero_add] at found

theorem size_toMap (t : SlotTable α) : t.toMap.size = t.occupied := by
  obtain ⟨slots⟩ := t
  have lengths (n : Nat) : (entriesFrom n slots).length = slots.countP Option.isSome := by
    induction slots generalizing n with
    | nil => rfl
    | cons slot rest ih => cases slot <;> simp [entriesFrom, ih]
  exact lengths 0

def map (f : α → β) (t : SlotTable α) : SlotTable β :=
  ⟨t.slots.map (Option.map f)⟩

@[simp] theorem get?_map (f : α → β) (t : SlotTable α) (i : Nat) :
    (t.map f).get? i = (t.get? i).map f := by
  simp only [get?, map, List.getElem?_map]
  cases t.slots[i]? with
  | none => rfl
  | some slot => cases slot <;> rfl

theorem get?_toMap_map (f : α → β) (t : SlotTable α) (i : Nat) :
    (t.get? i).map f = (t.map f).toMap.get? i := by
  rw [get?_toMap, get?_map]

theorem occupied_map (f : α → β) (t : SlotTable α) : (t.map f).occupied = t.occupied := by
  simp only [occupied, map, List.countP_map]
  congr 1
  funext slot
  cases slot <;> rfl

theorem occupied_eq_size {t : SlotTable α} {d : SortedMap Nat β} {f : α → β}
    (h : ∀ i, (t.get? i).map f = d.get? i) : t.occupied = d.size := by
  have same : (t.map f).toMap = d :=
    SortedMap.ext_get? fun i => by rw [← get?_toMap_map, h]
  rw [← same, size_toMap, occupied_map]

/-! ### Insertions -/

theorem insert_index_eq {t : SlotTable α} (a : α) {k : Nat} (free : t.get? k = none)
    (below : ∀ i, i < k → t.get? i ≠ none) : (t.insert a).2 = k := by
  rcases Nat.lt_trichotomy (t.insert a).2 k with less | same | more
  · exact absurd (get?_insert_index t a) (below _ less)
  · exact same
  · have taken := get?_of_lt_insert_index t a more
    rw [free] at taken
    cases taken

theorem insert_index_eq_leastFree {t : SlotTable α} (a : α) {d : SortedMap Nat β} {f : α → β}
    (h : ∀ i, (t.get? i).map f = d.get? i) : (t.insert a).2 = d.leastFree := by
  apply insert_index_eq
  · have free := d.get?_leastFree
    rw [← h] at free
    exact Option.map_eq_none_iff.mp free
  · intro i below empty
    apply d.get?_of_lt_leastFree below
    rw [← h, empty]
    rfl

theorem insert_index_le_occupied (t : SlotTable α) (a : α) : (t.insert a).2 ≤ t.occupied := by
  obtain ⟨slots⟩ := t
  simp only [insert, occupied]
  induction slots with
  | nil => exact Nat.le_refl 0
  | cons slot rest ih =>
    cases slot with
    | none => exact Nat.zero_le _
    | some b =>
      simp only [insertInto, List.countP_cons, Option.isSome_some, ↓reduceIte]
      omega

theorem length_insert (t : SlotTable α) (a : α) :
    (t.insert a).1.slots.length = max t.slots.length ((t.insert a).2 + 1) := by
  obtain ⟨slots⟩ := t
  simp only [insert]
  induction slots with
  | nil => rfl
  | cons slot rest ih =>
    cases slot with
    | none =>
      simp only [insertInto, List.length_cons]
      omega
    | some b =>
      simp only [insertInto, List.length_cons, ih]
      omega

theorem length_erase (t : SlotTable α) (i : Nat) :
    (t.erase i).slots.length = t.slots.length := by
  rw [erase, List.length_set]

/-- A sweep by the element alone looks at every slot by itself. -/
theorem slots_retain (t : SlotTable α) (keep : α → Bool) :
    (t.retain keep).1.slots = t.slots.map fun slot => slot.filter keep := by
  obtain ⟨slots⟩ := t
  simp only [retain, sweep]
  induction slots with
  | nil => rfl
  | cons slot rest ih =>
    cases slot with
    | none => simp only [sweepSlots, List.map_cons, Option.filter_none, ih]
    | some a =>
      simp only [sweepSlots, List.map_cons, Option.filter_some]
      split <;> simp only [ih]

theorem length_retain (t : SlotTable α) (keep : α → Bool) :
    (t.retain keep).1.slots.length = t.slots.length := by
  rw [slots_retain, List.length_map]

theorem ext_slots {t other : SlotTable α} (h : t.slots = other.slots) : t = other :=
  congrArg SlotTable.mk h

theorem retain_retain (t : SlotTable α) (keep also : α → Bool) :
    ((t.retain keep).1.retain also).1 = (t.retain fun a => keep a && also a).1 := by
  apply ext_slots
  rw [slots_retain, slots_retain, slots_retain, List.map_map]
  apply List.map_congr_left
  intro slot _
  exact Option.filter_filter

theorem retain_comm (t : SlotTable α) (keep also : α → Bool) :
    ((t.retain keep).1.retain also).1 = ((t.retain also).1.retain keep).1 := by
  rw [retain_retain, retain_retain]
  simp only [Bool.and_comm]

theorem occupied_le_length (t : SlotTable α) : t.occupied ≤ t.slots.length :=
  List.countP_le_length

end SlotTable

end FileRemoval
