import Mathlib.Algebra.GroupWithZero.Nat
import Mathlib.Data.List.DropRight
import FileRemoval.Proofs.Memory.Changes

/-! # What files hold

The bytes of a file are those written to it since it was last created, whichever handle they were
written through, and the bytes that a store uses are those of its files. -/

namespace FileRemoval.Memory

open Path

def Change.bytesFor (key : Text) : Change → Bytes
  | .written other data => if other = key then data else []
  | _ => []

def sinceCreated (key : Text) (done : List Change) : List Change :=
  done.rtakeWhile (· ≠ .created key)

/-- What was written to the file at `key` after the last time it was created. -/
def writtenTo (key : Text) (done : List Change) : Bytes :=
  (sinceCreated key done).flatMap (Change.bytesFor key)

section

variable {key : Text} {done : List Change} {c : Change}

@[simp] theorem bytesFor_written_self (key : Text) (data : Bytes) :
    Change.bytesFor key (.written key data) = data :=
  if_pos rfl

theorem bytesFor_of_apart (apart : c.key? ≠ some key) : c.bytesFor key = [] := by
  cases c with
  | written other data => exact if_neg fun same => apart (congrArg some same)
  | nothing => rfl
  | created => rfl
  | madeDirectory => rfl
  | removed => rfl

theorem writtenTo_concat_created (key : Text) (done : List Change) :
    writtenTo key (done ++ [.created key]) = [] := by
  rw [writtenTo, sinceCreated, List.rtakeWhile_concat_neg _ _ _ (by simp)]
  rfl

theorem writtenTo_concat (other : c ≠ .created key) :
    writtenTo key (done ++ [c]) = writtenTo key done ++ c.bytesFor key := by
  rw [writtenTo, sinceCreated, List.rtakeWhile_concat_pos _ _ _ (by simpa using other),
    List.flatMap_append, List.flatMap_singleton]
  rfl

theorem writtenTo_concat_of_apart (apart : c.key? ≠ some key) :
    writtenTo key (done ++ [c]) = writtenTo key done := by
  have other : c ≠ .created key := fun same => apart (congrArg Change.key? same)
  rw [writtenTo_concat other, bytesFor_of_apart apart, List.append_nil]

end

/-! ### One change -/

/-- Every file was created, and holds what was written to it since. -/
def Accounted (m : Memory) (done : List Change) : Prop :=
  ∀ key node, m.nodes.get? key = some node → node.kind = .regular →
    .created key ∈ done ∧ node.data = writtenTo key done

theorem accounted_initial : Accounted initial [] := by
  intro key node found regular
  rw [initial, SortedMap.get?_insert] at found
  split at found
  · cases found
    cases regular
  · cases found

theorem Leads.accounted {m m' : Memory} {c : Change} {done : List Change} (leads : Leads m c m')
    (accounted : Accounted m done) : Accounted m' (done ++ [c]) := by
  intro key node found regular
  by_cases touched : c.key? = some key
  · cases leads with
    | nothing => cases touched
    | added =>
      cases touched
      cases (SortedMap.get?_insert_self ..).symm.trans found
      exact ⟨by simp, (writtenTo_concat_created key done).symm⟩
    | emptied =>
      cases touched
      cases (SortedMap.get?_insert_self ..).symm.trans found
      exact ⟨by simp, (writtenTo_concat_created key done).symm⟩
    | madeDirectory =>
      cases touched
      cases (SortedMap.get?_insert_self ..).symm.trans found
      cases regular
    | written foundBefore regularBefore =>
      cases touched
      cases (SortedMap.get?_insert_self ..).symm.trans found
      obtain ⟨created, bytes⟩ := accounted key _ foundBefore regularBefore
      refine ⟨List.mem_append_left _ created, ?_⟩
      rw [writtenTo_concat (by simp), bytesFor_written_self, ← bytes]
    | removed =>
      cases touched
      cases (SortedMap.get?_erase_self ..).symm.trans found
  · obtain ⟨created, bytes⟩ := accounted key node ((leads.get?_of_ne touched).symm.trans found)
      regular
    rw [writtenTo_concat_of_apart touched]
    exact ⟨List.mem_append_left _ created, bytes⟩

/-! ### All files -/

/-- The files of a store, in the order of their paths. -/
def filePaths (m : Memory) : List Text :=
  (m.nodes.entries.filter fun e => e.2.kind = .regular).map (·.1)

theorem mem_filePaths {m : Memory} {key : Text} : key ∈ m.filePaths ↔ m.IsFile key := by
  simp only [filePaths, List.mem_map, List.mem_filter, decide_eq_true_eq, IsFile,
    SortedMap.get?_eq_some_iff]
  constructor
  · rintro ⟨⟨_, node⟩, ⟨member, regular⟩, rfl⟩
    exact ⟨node, member, regular⟩
  · rintro ⟨node, member, regular⟩
    exact ⟨(key, node), ⟨member, regular⟩, rfl⟩

theorem nodup_filePaths (m : Memory) : m.filePaths.Nodup := by
  have ascending := m.nodes.ascending.filter fun e => e.2.kind = .regular
  refine List.pairwise_map.mpr (ascending.imp fun {a b} before same => ?_)
  have equal := Std.compare_eq_iff_eq.mpr same
  cases before.symm.trans equal

theorem sum_filePaths {size : Text → Nat} {entries : List (Text × Node)}
    (files : ∀ e ∈ entries, e.2.kind = .regular → e.2.size = size e.1)
    (directories : ∀ e ∈ entries, e.2.kind = .directory → e.2.size = 0) :
    (entries.map (·.2)).foldr (fun node total => node.size + total) 0 =
      (((entries.filter fun e => e.2.kind = .regular).map (·.1)).map size).sum := by
  induction entries with
  | nil => rfl
  | cons e rest ih =>
    have sum := ih (fun d member => files d (List.mem_cons_of_mem _ member))
      (fun d member => directories d (List.mem_cons_of_mem _ member))
    rw [List.map_cons, List.foldr_cons, sum]
    cases kind : e.2.kind with
    | regular =>
      rw [List.filter_cons_of_pos (by simp [kind]), List.map_cons, List.map_cons, List.sum_cons,
        files e List.mem_cons_self kind]
    | directory =>
      rw [List.filter_cons_of_neg (by simp [kind]), directories e List.mem_cons_self kind,
        Nat.zero_add]

theorem Sound.usedBytes_eq {m : Memory} {done : List Change} (sound : Sound m)
    (accounted : Accounted m done) :
    m.usedBytes = (m.filePaths.map fun key => (writtenTo key done).length).sum := by
  have found : ∀ e ∈ m.nodes.entries, m.nodes.get? e.1 = some e.2 :=
    fun e member => (SortedMap.get?_eq_some_iff m.nodes e.1 e.2).mpr member
  refine sum_filePaths (fun e member regular => ?_) (fun e member directory => ?_)
  · exact congrArg List.length (accounted e.1 e.2 (found e member) regular).2
  · exact congrArg List.length (sound.bytes e.1 e.2 (found e member) directory)

/-! ### All histories -/

/-- After every history a file holds exactly what was written to it since it was last created, in
that order and through whichever handles, and the used bytes are those of the files there are, each
of them counted once. What a removed file held counts no more, nor what it held before it was
created anew. -/
theorem stored_bytes (requests : List Request) :
    let m := ((history requests).run initial).state
    let done := changes requests initial
    (∀ key node, m.nodes.get? key = some node → node.kind = .regular →
      .created key ∈ done ∧ node.data = writtenTo key done) ∧
    (∀ key, key ∈ m.filePaths ↔ m.IsFile key) ∧ m.filePaths.Nodup ∧
    m.usedBytes = (m.filePaths.map fun key => (writtenTo key done).length).sum := by
  intro m done
  have accounted : Accounted m done :=
    along_changes (fun leads before => leads.accounted before) requests [] sound_initial
      accounted_initial
  exact ⟨accounted, fun key => mem_filePaths, m.nodup_filePaths,
    Sound.usedBytes_eq (Reachable.sound ⟨requests, rfl⟩) accounted⟩

/-- A second creation takes away what was written, and then both handles write to one file. -/
example :
    let requests : List Request := [.files (.create "f".toList), .write ⟨0⟩ [1],
      .files (.create "d/../f".toList), .write ⟨0⟩ [2], .write ⟨1⟩ [3]]
    writtenTo "/f".toList (changes requests initial) = [2, 3] := by decide

end FileRemoval.Memory
