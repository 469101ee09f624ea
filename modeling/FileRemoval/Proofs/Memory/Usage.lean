import FileRemoval.Memory

/-! # Used bytes

The bytes that a store holds are those at one path and those at all other paths. -/

namespace FileRemoval

namespace SortedMap

variable {κ α : Type} [Ord κ]

def total (f : α → Nat) (m : SortedMap κ α) : Nat :=
  m.values.foldr (fun value rest => f value + rest) 0

theorem entries_erase (m : SortedMap κ α) (key : κ) :
    (m.erase key).entries = m.entries.filter fun e => compare key e.1 != .eq := rfl

variable [Std.LawfulEqOrd κ] [DecidableEq κ]

theorem entries_erase_of_absent {m : SortedMap κ α} {key : κ} (absent : m.get? key = none) :
    (m.erase key).entries = m.entries := by
  refine List.filter_eq_self.mpr fun e member => ?_
  have differs : key ≠ e.1 := by
    rintro rfl
    rw [(get?_eq_some_iff m e.1 e.2).mpr member] at absent
    cases absent
  simpa using differs

theorem total_split (f : α → Nat) (m : SortedMap κ α) (key : κ) :
    m.total f = (m.erase key).total f + ((m.get? key).map f).getD 0 := by
  obtain ⟨l, ascending⟩ := m
  induction l with
  | nil => rfl
  | cons e rest ih =>
    obtain ⟨first, later⟩ := List.pairwise_cons.mp ascending
    by_cases here : key = e.1
    · have absent : (⟨rest, later⟩ : SortedMap κ α).get? key = none := by
        rw [Option.eq_none_iff_forall_ne_some]
        intro value found
        have before := first _ ((get?_eq_some_iff ⟨rest, later⟩ key value).mp found)
        have same : compare key key = .eq := Std.compare_eq_iff_eq.mpr rfl
        rw [← here, same] at before
        cases before
      have kept := entries_erase_of_absent absent
      have dropped : (SortedMap.erase ⟨e :: rest, ascending⟩ key).entries = rest := by
        rw [entries_erase, List.filter_cons_of_neg (by simp [here])]
        exact kept
      have found : (⟨e :: rest, ascending⟩ : SortedMap κ α).get? key = some e.2 := by
        rw [here]
        exact (get?_eq_some_iff _ e.1 e.2).mpr List.mem_cons_self
      simp only [total, values, dropped, found, List.map_cons, List.foldr_cons, Option.map_some,
        Option.getD_some]
      omega
    · have kept : (SortedMap.erase ⟨e :: rest, ascending⟩ key).entries =
          e :: (SortedMap.erase ⟨rest, later⟩ key).entries := by
        rw [entries_erase, List.filter_cons_of_pos (by simp [here])]
        rfl
      have found : (⟨e :: rest, ascending⟩ : SortedMap κ α).get? key =
          (⟨rest, later⟩ : SortedMap κ α).get? key := by
        simp only [get?, lookupIn, Std.compare_eq_iff_eq, here, ↓reduceIte]
      have sums := ih later
      simp only [total, values] at sums
      simp only [total, values, kept, found, List.map_cons, List.foldr_cons]
      omega

end SortedMap

namespace Memory

def sizeAt (m : Memory) (key : Text) : Nat :=
  ((m.nodes.get? key).map Node.size).getD 0

theorem usedBytes_of_erase {m m' : Memory} {key : Text} (h : m'.nodes = m.nodes.erase key) :
    m'.usedBytes + m.sizeAt key = m.usedBytes := by
  have split := m.nodes.total_split Node.size key
  rw [← h] at split
  exact split.symm

end Memory

end FileRemoval
