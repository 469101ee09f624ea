import Mathlib.Algebra.GroupWithZero.Nat
import Mathlib.Data.List.Induction
import FileRemoval.Event
import FileRemoval.Proofs.SlotTable.FiniteMap

/-! # The trail of open files in a log

What a reader of a log knows of the open files: an empty table, on which the events are replayed.
In a clean log every event fits what the events before it have left. Then the files that are open
are those that were opened and not closed since. -/

namespace FileRemoval

/-- The path that was resolved last, and the paths behind the handles that are open. -/
structure Trail where
  latest : Option Text
  handles : SortedMap Nat Text

namespace Trail

def start : Trail := ⟨none, ∅⟩

/-- What is opened lies at the path that was resolved last. -/
def after (t : Trail) : Event → Trail
  | .resolved _ canonical => { t with latest := some canonical }
  | .opened handle =>
    match t.latest with
    | none => t
    | some path => { t with handles := t.handles.insert handle.index path }
  | .closed handle _ => { t with handles := t.handles.erase handle.index }
  | .closedAll _ path => { t with handles := t.handles.filter (· ≠ path) }
  | _ => t

def of (log : List Event) : Trail :=
  log.foldl after start

/-- Whether an event fits: an opened handle was free and is one of the table, a closed one was open
on the path that is named, and as many handles as are said to be closed were open on their path. -/
def Admits (t : Trail) : Event → Prop
  | .opened handle =>
    t.latest.isSome ∧ t.handles.get? handle.index = none ∧ handle.index < maxOpenFiles
  | .closed handle path => t.handles.get? handle.index = some path
  | .closedAll count path => 1 ≤ count ∧ t.handles.values.countP (· = path) = count
  | _ => True

def Clean (log : List Event) : Prop :=
  ∀ front e rest, log = front ++ e :: rest → (of front).Admits e

theorem of_concat (log : List Event) (e : Event) : of (log ++ [e]) = (of log).after e :=
  List.foldl_append

theorem clean_nil : Clean [] :=
  fun front e rest split => absurd split.symm (List.append_ne_nil_of_right_ne_nil front
    (List.cons_ne_nil e rest))

theorem clean_concat {log : List Event} {e : Event} :
    Clean (log ++ [e]) ↔ Clean log ∧ (of log).Admits e := by
  constructor
  · intro clean
    refine ⟨fun front other rest split => ?_, clean log e [] rfl⟩
    exact clean front other (rest ++ [e]) (by rw [split, List.append_assoc, List.cons_append])
  · rintro ⟨clean, admits⟩ front other rest split
    -- the event that is looked at is the last one, or it stands among those before
    rcases List.eq_nil_or_concat rest with rfl | ⟨more, last, rfl⟩
    · obtain ⟨rfl, same⟩ := List.append_inj' split rfl
      rw [← List.singleton_inj.mp same]
      exact admits
    · rw [List.concat_eq_append, ← List.cons_append, ← List.append_assoc] at split
      exact clean front other more (List.append_inj' split rfl).1

/-! ### The number of open files -/

/-- How many handles an event opens. -/
def opens : Event → Nat
  | .opened _ => 1
  | _ => 0

/-- How many handles an event says that it closes. -/
def closes : Event → Nat
  | .closed .. => 1
  | .closedAll count _ => count
  | _ => 0

theorem size_after {t : Trail} {e : Event} (admits : t.Admits e) :
    (t.after e).handles.size + closes e = t.handles.size + opens e := by
  cases e with
  | opened handle =>
    obtain ⟨known, free, -⟩ := admits
    obtain ⟨path, latest⟩ := Option.isSome_iff_exists.mp known
    have left : (t.after (.opened handle)).handles = t.handles.insert handle.index path := by
      simp only [after, latest]
    rw [left, SortedMap.size_insert_of_absent path free]
    rfl
  | closed handle path => exact SortedMap.size_erase_of_present admits
  | closedAll count path =>
    obtain ⟨-, all⟩ := admits
    have split := t.handles.size_filter_add (· ≠ path)
    have named : (t.handles.values.countP fun other => !decide (other ≠ path)) = count := by
      simpa only [ne_eq, decide_not, Bool.not_not] using all
    rw [named] at split
    exact split
  | _ => rfl

/-- In a clean log, what was opened is still open or was closed. -/
theorem Clean.balance {log : List Event} (clean : Clean log) :
    (log.map opens).sum = (of log).handles.size + (log.map closes).sum := by
  induction log using List.reverseRecOn with
  | nil => rfl
  | append_singleton log e ih =>
    obtain ⟨before, admits⟩ := clean_concat.mp clean
    have step := size_after admits
    have sums := ih before
    rw [of_concat, List.map_append, List.map_append, List.sum_append, List.sum_append,
      List.map_singleton, List.map_singleton, List.sum_singleton, List.sum_singleton]
    omega

end Trail

end FileRemoval
