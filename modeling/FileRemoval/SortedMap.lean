/-! # Finite maps in key order

A finite map kept as its entries in strictly ascending key order. The order is part of the type,
so a map has one representation: two maps with equal lookups are equal (`SortedMap.ext_get?`). -/

namespace FileRemoval

structure SortedMap (κ α : Type) [Ord κ] where
  entries : List (κ × α)
  ascending : entries.Pairwise fun a b => compare a.1 b.1 = .lt

namespace SortedMap

variable {κ α : Type} [Ord κ]

/-! ### Operations on entry lists -/

def lookupIn (key : κ) : List (κ × α) → Option α
  | [] => none
  | e :: rest => if compare key e.1 = .eq then some e.2 else lookupIn key rest

def insertIn (key : κ) (value : α) : List (κ × α) → List (κ × α)
  | [] => [(key, value)]
  | e :: rest =>
    match compare key e.1 with
    | .lt => (key, value) :: e :: rest
    | .eq => (key, value) :: rest
    | .gt => e :: insertIn key value rest

theorem mem_insertIn {key : κ} {value : α} {l : List (κ × α)} {e : κ × α}
    (h : e ∈ insertIn key value l) : e = (key, value) ∨ e ∈ l := by
  induction l with
  | nil => exact .inl (by simpa [insertIn] using h)
  | cons d rest ih =>
    simp only [insertIn] at h
    split at h
    · simpa using h
    · rcases List.mem_cons.mp h with h | h
      · exact .inl h
      · exact .inr (List.mem_cons_of_mem _ h)
    · rcases List.mem_cons.mp h with h | h
      · exact .inr (h ▸ List.mem_cons_self)
      · exact (ih h).imp_right (List.mem_cons_of_mem _)

theorem ascending_insertIn [Std.TransOrd κ] {key : κ} {value : α} {l : List (κ × α)}
    (h : l.Pairwise fun a b => compare a.1 b.1 = .lt) :
    (insertIn key value l).Pairwise fun a b => compare a.1 b.1 = .lt := by
  induction l with
  | nil => exact List.pairwise_singleton _ _
  | cons e rest ih =>
    obtain ⟨first, later⟩ := List.pairwise_cons.mp h
    simp only [insertIn]
    split
    · rename_i below
      refine List.pairwise_cons.mpr ⟨fun d hd => ?_, h⟩
      rcases List.mem_cons.mp hd with rfl | hd
      · exact below
      · exact Std.TransCmp.lt_trans below (first d hd)
    · rename_i same
      exact List.pairwise_cons.mpr ⟨fun d hd => Std.TransCmp.lt_of_eq_of_lt same (first d hd), later⟩
    · rename_i above
      refine List.pairwise_cons.mpr ⟨fun d hd => ?_, ih later⟩
      rcases mem_insertIn hd with rfl | hd
      · exact Std.OrientedCmp.lt_of_gt above
      · exact first d hd

/-! ### Maps -/

def empty : SortedMap κ α := ⟨[], .nil⟩

instance : EmptyCollection (SortedMap κ α) := ⟨empty⟩
instance : Inhabited (SortedMap κ α) := ⟨empty⟩

def get? (m : SortedMap κ α) (key : κ) : Option α :=
  lookupIn key m.entries

def contains (m : SortedMap κ α) (key : κ) : Bool :=
  (m.get? key).isSome

def insert [Std.TransOrd κ] (m : SortedMap κ α) (key : κ) (value : α) : SortedMap κ α :=
  ⟨insertIn key value m.entries, ascending_insertIn m.ascending⟩

def erase (m : SortedMap κ α) (key : κ) : SortedMap κ α :=
  ⟨m.entries.filter fun e => compare key e.1 != .eq, m.ascending.filter _⟩

def values (m : SortedMap κ α) : List α :=
  m.entries.map (·.2)

instance [DecidableEq κ] [DecidableEq α] : DecidableEq (SortedMap κ α) := fun a b =>
  decidable_of_iff (a.entries = b.entries) ⟨fun h => by cases a; cases b; simpa using h, congrArg _⟩

theorem ext_entries {m n : SortedMap κ α} (h : m.entries = n.entries) : m = n := by
  cases m; cases n; simpa using h

theorem erase_comm (m : SortedMap κ α) (key other : κ) :
    (m.erase key).erase other = (m.erase other).erase key := by
  apply ext_entries
  simp only [erase, List.filter_filter, Bool.and_comm]

/-! ### Lookups -/

@[simp] theorem get?_empty (key : κ) : (∅ : SortedMap κ α).get? key = none := rfl

variable [Std.LawfulEqOrd κ] [DecidableEq κ]

theorem lookupIn_insertIn (key other : κ) (value : α) (l : List (κ × α)) :
    lookupIn other (insertIn key value l) =
      if other = key then some value else lookupIn other l := by
  induction l with
  | nil =>
    simp only [insertIn, lookupIn, Std.compare_eq_iff_eq]
  | cons e rest ih =>
    simp only [insertIn]
    split
    · simp only [lookupIn, Std.compare_eq_iff_eq]
    · rename_i same
      have same := Std.LawfulEqCmp.eq_of_compare same
      subst same
      simp only [lookupIn, Std.compare_eq_iff_eq]
      split <;> simp_all
    · rename_i above
      simp only [lookupIn, Std.compare_eq_iff_eq, ih]
      by_cases h : other = e.1
      · have differs : ¬ other = key := by
          rintro rfl
          simp [h] at above
        simp [h] at differs ⊢
        simp [differs]
      · simp [h]

theorem get?_insert [Std.TransOrd κ] (m : SortedMap κ α) (key other : κ) (value : α) :
    (m.insert key value).get? other = if other = key then some value else m.get? other :=
  lookupIn_insertIn key other value m.entries

@[simp] theorem get?_insert_self [Std.TransOrd κ] (m : SortedMap κ α) (key : κ) (value : α) :
    (m.insert key value).get? key = some value := by
  simp [get?_insert]

theorem get?_insert_of_ne [Std.TransOrd κ] (m : SortedMap κ α) {key other : κ} (value : α)
    (h : other ≠ key) : (m.insert key value).get? other = m.get? other := by
  simp [get?_insert, h]

theorem get?_erase (m : SortedMap κ α) (key other : κ) :
    (m.erase key).get? other = if other = key then none else m.get? other := by
  simp only [get?, erase]
  induction m.entries with
  | nil => simp [lookupIn]
  | cons e rest ih =>
    by_cases same : key = e.1
    · subst same
      by_cases h : other = e.1 <;> simp_all [lookupIn]
    · by_cases h : other = e.1
      · subst h
        simp [lookupIn, same, Ne.symm same]
      · simp [lookupIn, same, h, ih]

@[simp] theorem get?_erase_self (m : SortedMap κ α) (key : κ) : (m.erase key).get? key = none := by
  simp [get?_erase]

theorem get?_erase_of_ne (m : SortedMap κ α) {key other : κ} (h : other ≠ key) :
    (m.erase key).get? other = m.get? other := by
  simp [get?_erase, h]

theorem get?_eq_some_iff (m : SortedMap κ α) (key : κ) (value : α) :
    m.get? key = some value ↔ (key, value) ∈ m.entries := by
  obtain ⟨l, ascending⟩ := m
  simp only [get?]
  induction l with
  | nil => simp [lookupIn]
  | cons e rest ih =>
    obtain ⟨first, later⟩ := List.pairwise_cons.mp ascending
    simp only [lookupIn, Std.compare_eq_iff_eq, List.mem_cons]
    by_cases h : key = e.1
    · subst h
      have absent : (e.1, value) ∉ rest := fun bad => by simpa using first _ bad
      simp only [↓reduceIte, Option.some.injEq, absent, or_false]
      exact ⟨fun h => by simp [← h], fun h => (congrArg Prod.snd h).symm⟩
    · simp only [h, ↓reduceIte, ih later]
      exact ⟨.inr, fun h' => h'.resolve_left fun he => h (congrArg Prod.fst he)⟩

theorem ext_get? [Std.TransOrd κ] {m n : SortedMap κ α} (h : ∀ key, m.get? key = n.get? key) :
    m = n := by
  have members : ∀ e, e ∈ m.entries ↔ e ∈ n.entries := fun e => by
    rw [← get?_eq_some_iff m e.1 e.2, ← get?_eq_some_iff n e.1 e.2, h]
  obtain ⟨l, hl⟩ := m
  obtain ⟨r, hr⟩ := n
  refine ext_entries ?_
  change ∀ e, e ∈ l ↔ e ∈ r at members
  change l = r
  clear h
  induction l generalizing r with
  | nil =>
    cases r with
    | nil => rfl
    | cons d later => exact absurd ((members d).mpr List.mem_cons_self) List.not_mem_nil
  | cons e rest ih =>
    obtain ⟨first, restAscending⟩ := List.pairwise_cons.mp hl
    cases r with
    | nil => exact absurd ((members e).mp List.mem_cons_self) List.not_mem_nil
    | cons d later =>
      obtain ⟨firstR, laterAscending⟩ := List.pairwise_cons.mp hr
      have heads : e = d := by
        rcases List.mem_cons.mp ((members e).mp List.mem_cons_self) with h | h
        · exact h
        · rcases List.mem_cons.mp ((members d).mpr List.mem_cons_self) with h' | h'
          · exact h'.symm
          · have below := first d h'
            have above := firstR e h
            rw [show compare e.1 d.1 = _ from Std.OrientedCmp.eq_swap, above] at below
            cases below
      subst heads
      congr 1
      refine ih restAscending later laterAscending fun x => ⟨fun hx => ?_, fun hx => ?_⟩
      · rcases List.mem_cons.mp ((members x).mp (List.mem_cons_of_mem _ hx)) with rfl | h
        · simpa using first _ hx
        · exact h
      · rcases List.mem_cons.mp ((members x).mpr (List.mem_cons_of_mem _ hx)) with rfl | h
        · simpa using firstR _ hx
        · exact h

end SortedMap

end FileRemoval
