import Mathlib.Data.List.Induction
import FileRemoval.Proofs.SlotTable.FiniteMap
import FileRemoval.SlotTable.Request

/-! # Histories of a slot table

Whatever is asked of a slot table, it answers as a finite map does in which an element goes to the
least number that is no key. It has as many slots as it ever held elements at once. -/

namespace FileRemoval

/-- The answers of a finite map to what can be asked of a slot table. -/
def SortedMap.perform {α : Type} : SlotTable.Request α →
    StateM (SortedMap Nat α) (SlotTable.Answer α)
  | .insert a => fun m => (.index m.leastFree, m.insert m.leastFree a)
  | .take i => fun m => (.element (m.get? i), m.erase i)
  | .get i => fun m => (.element (m.get? i), m)
  | .occupied => fun m => (.count m.size, m)
  | .retain keep => fun m => (.count (m.values.countP fun a => !keep a), m.filter keep)

namespace SlotTable

variable {α : Type}

/-! ### One request -/

theorem insert_index_eq_leastFree_toMap (t : SlotTable α) (a : α) :
    (t.insert a).2 = t.toMap.leastFree :=
  insert_index_eq_leastFree (f := id) a fun i => by rw [Option.map_id, id, get?_toMap]

theorem toMap_insert (t : SlotTable α) (a : α) :
    (t.insert a).1.toMap = t.toMap.insert t.toMap.leastFree a :=
  SortedMap.ext_get? fun i => by
    rw [get?_toMap, get?_insert, SortedMap.get?_insert, get?_toMap, insert_index_eq_leastFree_toMap]

theorem toMap_erase (t : SlotTable α) (i : Nat) : (t.erase i).toMap = t.toMap.erase i :=
  SortedMap.ext_get? fun j => by
    rw [get?_toMap, get?_erase, SortedMap.get?_erase, get?_toMap]

theorem toMap_retain (t : SlotTable α) (keep : α → Bool) :
    (t.retain keep).1.toMap = t.toMap.filter keep :=
  SortedMap.ext_get? fun i => by
    rw [get?_toMap, get?_retain, SortedMap.get?_filter, get?_toMap]

theorem emptied_retain (t : SlotTable α) (keep : α → Bool) :
    (t.retain keep).2 = t.toMap.values.countP fun a => !keep a := by
  obtain ⟨slots⟩ := t
  have emptied (n : Nat) : (sweepSlots (fun _ a => (keep a, ())) () slots).2.1 =
      ((entriesFrom n slots).map (·.2)).countP fun a => !keep a := by
    induction slots generalizing n with
    | nil => rfl
    | cons slot rest ih =>
      cases slot with
      | none => exact ih (n + 1)
      | some a => by_cases kept : keep a <;> simp [sweepSlots, entriesFrom, kept, ih (n + 1)]
  exact emptied 0

theorem perform_toMap (request : Request α) (t : SlotTable α) :
    (SortedMap.perform request).run t.toMap =
      (((perform request).run t).1, ((perform request).run t).2.toMap) := by
  cases request with
  | insert a =>
    show (_, _) = (Answer.index (t.insert a).2, (t.insert a).1.toMap)
    rw [insert_index_eq_leastFree_toMap, toMap_insert]
  | take i =>
    show (Answer.element (t.toMap.get? i), t.toMap.erase i) = (_, (t.erase i).toMap)
    rw [get?_toMap, toMap_erase]
    rfl
  | get i =>
    show (Answer.element (t.toMap.get? i), t.toMap) = _
    rw [get?_toMap]
    rfl
  | occupied =>
    show (Answer.count t.toMap.size, t.toMap) = _
    rw [size_toMap]
    rfl
  | retain keep =>
    show (_, _) = (Answer.count (t.retain keep).2, (t.retain keep).1.toMap)
    rw [emptied_retain, toMap_retain]

theorem occupied_insert (t : SlotTable α) (a : α) :
    (t.insert a).1.occupied = t.occupied + 1 := by
  obtain ⟨slots⟩ := t
  simp only [insert, occupied]
  induction slots with
  | nil => rfl
  | cons slot rest ih =>
    cases slot with
    | none => simp [insertInto]
    | some b => simp [insertInto, ih]

/-- A slot is added only when all slots are in use, and then all of the new table are. -/
theorem length_perform (request : Request α) (t : SlotTable α) :
    ((perform request).run t).2.slots.length =
      max t.slots.length ((perform request).run t).2.occupied := by
  have full := t.occupied_le_length
  cases request with
  | insert a =>
    have index := t.insert_index_le_occupied a
    have length := t.length_insert a
    have occupied := t.occupied_insert a
    have bound := (t.insert a).1.occupied_le_length
    show (t.insert a).1.slots.length = max t.slots.length (t.insert a).1.occupied
    omega
  | take i =>
    have length := t.length_erase i
    have bound := (t.erase i).occupied_le_length
    show (t.erase i).slots.length = max t.slots.length (t.erase i).occupied
    omega
  | get i => exact (Nat.max_eq_left full).symm
  | occupied => exact (Nat.max_eq_left full).symm
  | retain keep =>
    have length := t.length_retain keep
    have bound := (t.retain keep).1.occupied_le_length
    show (t.retain keep).1.slots.length = max t.slots.length (t.retain keep).1.occupied
    omega

theorem index_lt_occupied {request : Request α} {t : SlotTable α} {i : Nat}
    (h : ((perform request).run t).1 = .index i) :
    i < ((perform request).run t).2.occupied := by
  cases request with
  | insert a =>
    have index : (t.insert a).2 = i := by injection h
    have bound := t.insert_index_le_occupied a
    have occupied := t.occupied_insert a
    show i < (t.insert a).1.occupied
    omega
  | take i => cases h
  | get i => cases h
  | occupied => cases h
  | retain keep => cases h

/-! ### All histories -/

def history (requests : List (Request α)) : StateM (SlotTable α) (List (Answer α)) :=
  requests.mapM perform

theorem run_mapM_concat {σ β γ : Type} (f : β → StateM σ γ) (l : List β) (b : β) (s : σ) :
    ((l ++ [b]).mapM f).run s =
      let before := (l.mapM f).run s
      let step := (f b).run before.2
      (before.1 ++ [step.1], step.2) := by
  simp only [List.mapM_append, List.mapM_cons, List.mapM_nil, StateT.run_bind, StateT.run_pure]
  rfl

theorem history_toMap (requests : List (Request α)) (t : SlotTable α) :
    (requests.mapM SortedMap.perform).run t.toMap =
      (((history requests).run t).1, ((history requests).run t).2.toMap) := by
  induction requests using List.reverseRecOn with
  | nil => rfl
  | append_singleton front request ih =>
    rw [history, run_mapM_concat, run_mapM_concat, ih]
    dsimp only
    rw [perform_toMap]
    rfl

/-- How many elements a table holds after `requests`. -/
def held (requests : List (Request α)) : Nat :=
  ((history requests).run ∅).2.occupied

theorem held_concat (requests : List (Request α)) (request : Request α) :
    held (requests ++ [request]) =
      ((perform request).run ((history requests).run ∅).2).2.occupied := by
  rw [held, history, run_mapM_concat]
  rfl

/-- The largest number of elements held at a time in the course of `requests`. -/
structure IsPeak (requests : List (Request α)) (n : Nat) : Prop where
  bound : ∀ front, front <+: requests → held front ≤ n
  attained : ∃ front, front <+: requests ∧ held front = n

theorem isPeak_nil : IsPeak ([] : List (Request α)) 0 where
  bound front isFront := by
    rw [List.prefix_nil.mp isFront]
    exact Nat.le_refl 0
  attained := ⟨[], List.prefix_rfl, rfl⟩

theorem IsPeak.concat {requests : List (Request α)} {n : Nat} (peak : IsPeak requests n)
    (request : Request α) :
    IsPeak (requests ++ [request]) (max n (held (requests ++ [request]))) where
  bound front isFront := by
    rcases List.prefix_concat_iff.mp isFront with rfl | earlier
    · exact Nat.le_max_right _ _
    · exact Nat.le_trans (peak.bound front earlier) (Nat.le_max_left _ _)
  attained := by
    rcases Nat.le_total (held (requests ++ [request])) n with less | more
    · obtain ⟨front, isFront, reached⟩ := peak.attained
      exact ⟨front, isFront.trans (List.prefix_append _ _), by rw [Nat.max_eq_left less, reached]⟩
    · exact ⟨_, List.prefix_rfl, by rw [Nat.max_eq_right more]⟩

theorem length_history_concat (requests : List (Request α)) (request : Request α) :
    ((history (requests ++ [request])).run ∅).2.slots.length =
      max ((history requests).run ∅).2.slots.length (held (requests ++ [request])) := by
  rw [held_concat, ← length_perform, history, run_mapM_concat]
  rfl

/-- There is no slot that was not needed at some time. -/
theorem isPeak_length (requests : List (Request α)) :
    IsPeak requests ((history requests).run ∅).2.slots.length := by
  induction requests using List.reverseRecOn with
  | nil => exact isPeak_nil
  | append_singleton before request ih =>
    rw [length_history_concat]
    exact ih.concat request

theorem index_lt_length (requests : List (Request α)) {i : Nat}
    (h : .index i ∈ ((history requests).run ∅).1) :
    i < ((history requests).run ∅).2.slots.length := by
  induction requests using List.reverseRecOn with
  | nil => cases h
  | append_singleton before request ih =>
    rw [length_history_concat]
    rw [history, run_mapM_concat] at h
    rcases List.mem_append.mp h with earlier | last
    · exact Nat.lt_of_lt_of_le (ih earlier) (Nat.le_max_left _ _)
    · have less := index_lt_occupied (List.mem_singleton.mp last).symm
      rw [held_concat]
      exact Nat.lt_of_lt_of_le less (Nat.le_max_right _ _)

/-- Every history has the answers of a finite map with the same history, and leaves the same
elements under the same numbers. There are as many slots as the table ever held elements at once,
so every number that was given out is below that. -/
theorem history_refines_map (requests : List (Request α)) :
    let last := (history requests).run ∅
    (requests.mapM SortedMap.perform).run ∅ = (last.1, last.2.toMap) ∧
      IsPeak requests last.2.slots.length ∧ ∀ i, .index i ∈ last.1 → i < last.2.slots.length := by
  intro last
  exact ⟨history_toMap requests ∅, isPeak_length requests, fun i => index_lt_length requests⟩

/-- Holes are filled before a slot is added. -/
example :
    ((history [.insert 5, .insert 6, .insert 7, .retain (· = 6), .insert 8, .take 9]).run ∅) =
      ([.index 0, .index 1, .index 2, .count 2, .index 0, .element none],
        ⟨[some 8, some 6, none]⟩) := rfl

end SlotTable

end FileRemoval
