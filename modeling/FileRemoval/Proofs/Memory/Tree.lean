import FileRemoval.Memory

/-! # Trees of files and directories

A directory holds its entries by name, and a path is followed from the top one name at a time. A
change at the end of a path shows there and nowhere else. -/

namespace FileRemoval

/-! ### Entries by name -/

namespace SortedMap

variable {κ α : Type} [Ord κ]

theorem mem_of_lookupIn {key : κ} {value : α} {l : List (κ × α)}
    (h : lookupIn key l = some value) : ∃ e ∈ l, e.2 = value := by
  induction l with
  | nil => cases h
  | cons e rest ih =>
    simp only [lookupIn] at h
    split at h
    · exact ⟨e, List.mem_cons_self, Option.some.inj h⟩
    · obtain ⟨d, member, same⟩ := ih h
      exact ⟨d, List.mem_cons_of_mem e member, same⟩

theorem lookupIn_filter [Std.LawfulEqOrd κ] [DecidableEq κ] (key other : κ) (l : List (κ × α)) :
    lookupIn other (l.filter fun e => e.1 ≠ key) =
      if other = key then none else lookupIn other l := by
  induction l with
  | nil => simp [lookupIn]
  | cons e rest ih =>
    by_cases same : e.1 = key
    · rw [List.filter_cons_of_neg (by simpa using same), ih]
      by_cases found : other = key
      · simp [found]
      · simp [lookupIn, same, found]
    · rw [List.filter_cons_of_pos (by simpa using same)]
      simp only [lookupIn, Std.compare_eq_iff_eq, ih]
      by_cases found : other = e.1
      · simp [found, same]
      · simp [found]

end SortedMap

/-- A file with its bytes, or a directory with its entries, each under a number. -/
inductive Tree where
  | file (inode : Nat) (data : Bytes)
  | directory (inode : Nat) (entries : List (Text × Tree))

namespace Tree

def inode : Tree → Nat
  | .file inode _ => inode
  | .directory inode _ => inode

def kind : Tree → Kind
  | .file .. => .regular
  | .directory .. => .directory

def node : Tree → Node
  | .file inode data => ⟨inode, .regular, data⟩
  | .directory inode _ => ⟨inode, .directory, []⟩

/-- What a directory holds under a name. A file holds nothing. -/
def entryAt (name : Text) : Tree → Option Tree
  | .file .. => none
  | .directory _ entries => SortedMap.lookupIn name entries

def descend : List Text → Tree → Option Tree
  | [], t => some t
  | name :: rest, t => (t.entryAt name).bind (descend rest)

def look (names : List Text) (t : Tree) : Option Node :=
  (t.descend names).map node

/-- The tree with `f` applied at the end of a path, if that leads anywhere. -/
def alter (f : Tree → Tree) : List Text → Tree → Tree
  | [], t => f t
  | _ :: _, .file inode data => .file inode data
  | name :: rest, .directory inode entries =>
    match SortedMap.lookupIn name entries with
    | none => .directory inode entries
    | some child => .directory inode (SortedMap.insertIn name (alter f rest child) entries)

/-- The directory with a new entry under `name` in place of the old, or with none. -/
def setEntry (name : Text) (new : Option Tree) : Tree → Tree
  | .file inode data => .file inode data
  | .directory inode entries =>
    match new with
    | none => .directory inode (entries.filter fun e => e.1 ≠ name)
    | some child => .directory inode (SortedMap.insertIn name child entries)

def IsLeaf (t : Tree) : Prop :=
  ∀ name, t.entryAt name = none

theorem isLeaf_file (inode : Nat) (data : Bytes) : IsLeaf (.file inode data) :=
  fun _ => rfl

theorem isLeaf_directory (inode : Nat) : IsLeaf (.directory inode []) :=
  fun _ => rfl

/-! ### Following a path -/

theorem descend_append (names rest : List Text) (t : Tree) :
    descend (names ++ rest) t = (descend names t).bind (descend rest) := by
  induction names generalizing t with
  | nil => rfl
  | cons name names ih =>
    simp only [List.cons_append, descend, Option.bind_assoc]
    congr 1
    funext child
    exact ih child

theorem descend_concat (names : List Text) (name : Text) (t : Tree) :
    descend (names ++ [name]) t = (descend names t).bind (entryAt name) := by
  rw [descend_append]
  congr 1
  funext child
  simp only [descend, Option.bind_fun_some]

theorem look_append (names rest : List Text) (t : Tree) :
    look (names ++ rest) t = (descend names t).bind (look rest) := by
  rw [look, descend_append, Option.map_bind]
  rfl

theorem look_cons (name : Text) (rest : List Text) (t : Tree) :
    look (name :: rest) t = (t.entryAt name).bind (look rest) := by
  rw [look, descend, Option.map_bind]
  rfl

theorem IsLeaf.look_cons {t : Tree} (leaf : IsLeaf t) (name : Text) (rest : List Text) :
    look (name :: rest) t = none := by
  rw [Tree.look_cons, leaf name]
  rfl

/-! ### Changing what lies at the end of a path -/

section

variable {f : Tree → Tree} {t sub : Tree} {names : List Text}

theorem descend_alter (h : descend names t = some sub) (rest : List Text) :
    descend (names ++ rest) (alter f names t) = descend rest (f sub) := by
  induction names generalizing t with
  | nil =>
    cases h
    rfl
  | cons name names ih =>
    cases t with
    | file inode data => cases h
    | directory inode entries =>
      obtain ⟨child, found, later⟩ := Option.bind_eq_some_iff.mp h
      have entry : SortedMap.lookupIn name entries = some child := found
      simp only [alter, entry, List.cons_append, descend, entryAt]
      rw [SortedMap.lookupIn_insertIn, if_pos rfl]
      exact ih later

/-- Paths that do not pass through the end of the altered one show what they showed. -/
theorem look_alter_of_not_below {other : List Text} (h : ¬ names <+: other) :
    look other (alter f names t) = look other t := by
  induction names generalizing t other with
  | nil => exact absurd (List.nil_prefix) h
  | cons name names ih =>
    cases t with
    | file inode data => rfl
    | directory inode entries =>
      cases entry : SortedMap.lookupIn name entries with
      | none => simp only [alter, entry]
      | some child =>
        simp only [alter, entry]
        cases other with
        | nil => rfl
        | cons first rest =>
          rw [look_cons, look_cons, entryAt, entryAt, SortedMap.lookupIn_insertIn]
          split
          · rename_i same
            have apart : ¬ names <+: rest := fun bad =>
              h (by rw [same]; exact (List.prefix_cons_inj name).mpr bad)
            rw [same, entry]
            exact ih apart
          · rfl

theorem look_alter_of_isLeaf (h : descend names t = some sub) (leaf : IsLeaf sub)
    (leaf' : IsLeaf (f sub)) (other : List Text) :
    look other (alter f names t) = if other = names then some (f sub).node else look other t := by
  by_cases below : names <+: other
  · obtain ⟨rest, rfl⟩ := below
    rw [look, descend_alter h rest, look_append, h]
    cases rest with
    | nil =>
      rw [List.append_nil, if_pos rfl]
      rfl
    | cons first rest =>
      have differs : names ++ first :: rest ≠ names := by simp
      rw [if_neg differs, Option.bind_some, leaf.look_cons]
      exact leaf'.look_cons first rest
  · have differs : other ≠ names := by
      rintro rfl
      exact below (List.prefix_refl other)
    rw [look_alter_of_not_below below, if_neg differs]

theorem entryAt_setEntry (name other : Text) (new : Option Tree) (inode : Nat)
    (entries : List (Text × Tree)) :
    (setEntry name new (.directory inode entries)).entryAt other =
      if other = name then new else (Tree.directory inode entries).entryAt other := by
  cases new with
  | none => exact SortedMap.lookupIn_filter name other entries
  | some child => exact SortedMap.lookupIn_insertIn name other child entries

theorem node_setEntry (name : Text) (new : Option Tree) (inode : Nat)
    (entries : List (Text × Tree)) :
    (setEntry name new (.directory inode entries)).node = ⟨inode, .directory, []⟩ := by
  cases new <;> rfl

/-- Where neither the old entry nor the new one has anything below, a new entry shows at its own
path only. -/
theorem look_setEntry {name : Text} {new : Option Tree} {inode : Nat}
    {entries : List (Text × Tree)} (h : descend names t = some (.directory inode entries))
    (leaf : ∀ old, descend (names ++ [name]) t = some old → IsLeaf old)
    (leaf' : ∀ child, new = some child → IsLeaf child) (other : List Text) :
    look other (alter (setEntry name new) names t) =
      if other = names ++ [name] then new.map node else look other t := by
  -- outside the directory, at it, at the entry, below the entry, or below another entry
  by_cases below : names <+: other
  · obtain ⟨rest, rfl⟩ := below
    rw [look, descend_alter h rest, look_append, h, Option.bind_some]
    cases rest with
    | nil =>
      have differs : names ++ [] ≠ names ++ [name] := by simp
      rw [if_neg differs]
      simp only [descend, Option.map_some, node_setEntry]
      rfl
    | cons first rest =>
      rw [← look, look_cons, look_cons, entryAt_setEntry]
      by_cases same : first = name
      · rw [if_pos same]
        cases rest with
        | nil =>
          rw [if_pos (by rw [same])]
          cases new <;> rfl
        | cons second rest =>
          have differs : names ++ first :: second :: rest ≠ names ++ [name] := by simp
          have gone : new.bind (look (second :: rest)) = none := by
            cases new with
            | none => rfl
            | some child => exact (leaf' child rfl).look_cons second rest
          have before : (Tree.entryAt first (.directory inode entries)).bind
              (look (second :: rest)) = none := by
            cases found : Tree.entryAt first (.directory inode entries) with
            | none => rfl
            | some old =>
              have old_leaf : IsLeaf old := by
                apply leaf old
                rw [descend_concat, h, ← same]
                exact found
              exact old_leaf.look_cons second rest
          rw [if_neg differs, gone, before]
      · have differs : names ++ first :: rest ≠ names ++ [name] := by
          simp [same]
        rw [if_neg same, if_neg differs]
  · have differs : other ≠ names ++ [name] := by
      rintro rfl
      exact below (List.prefix_append names [name])
    rw [look_alter_of_not_below below, if_neg differs]

end

/-! ### Order of the entries -/

/-- In every directory the entries stand in the order of their names, each name once. -/
inductive Ordered : Tree → Prop
  | file (inode : Nat) (data : Bytes) : Ordered (.file inode data)
  | directory (inode : Nat) {entries : List (Text × Tree)}
      (ascending : entries.Pairwise fun a b => compare a.1 b.1 = .lt)
      (below : ∀ e ∈ entries, Ordered e.2) : Ordered (.directory inode entries)

theorem Ordered.descend {names : List Text} {t sub : Tree} (h : Ordered t)
    (there : Tree.descend names t = some sub) : Ordered sub := by
  induction names generalizing t with
  | nil =>
    cases there
    exact h
  | cons name names ih =>
    obtain ⟨child, found, later⟩ := Option.bind_eq_some_iff.mp there
    cases h with
    | file inode data => cases found
    | directory inode ascending below =>
      obtain ⟨e, member, same⟩ := SortedMap.mem_of_lookupIn found
      have child_ordered : Ordered child := same ▸ below e member
      exact ih child_ordered later

theorem Ordered.alter {f : Tree → Tree} (keeps : ∀ t, Ordered t → Ordered (f t))
    {names : List Text} {t : Tree} (h : Ordered t) : Ordered (t.alter f names) := by
  induction names generalizing t with
  | nil => exact keeps t h
  | cons name names ih =>
    cases h with
    | file inode data => exact .file inode data
    | @directory inode entries ascending below =>
      cases entry : SortedMap.lookupIn name entries with
      | none =>
        simp only [Tree.alter, entry]
        exact .directory inode ascending below
      | some child =>
        obtain ⟨e, member, same⟩ := SortedMap.mem_of_lookupIn entry
        have child_ordered : Ordered child := same ▸ below e member
        simp only [Tree.alter, entry]
        refine .directory inode (SortedMap.ascending_insertIn ascending) fun d inside => ?_
        rcases SortedMap.mem_insertIn inside with rfl | old
        · exact ih child_ordered
        · exact below d old

theorem Ordered.setEntry {name : Text} {new : Option Tree} {t : Tree} (h : Ordered t)
    (ordered : ∀ child, new = some child → Ordered child) : Ordered (t.setEntry name new) := by
  cases h with
  | file inode data => exact .file inode data
  | @directory inode entries ascending below =>
    cases new with
    | none =>
      exact .directory inode (ascending.filter _) fun e member =>
        below e (List.mem_filter.mp member).1
    | some child =>
      refine .directory inode (SortedMap.ascending_insertIn ascending) fun e member => ?_
      rcases SortedMap.mem_insertIn member with rfl | old
      · exact ordered child rfl
      · exact below e old

/-- Two ordered trees that show the same at every path are equal. -/
theorem Ordered.eq_of_look {t other : Tree} (h : Ordered t) (h' : Ordered other)
    (same : ∀ names, look names t = look names other) : t = other := by
  -- on the first tree; the hypothesis for a child takes `same` below that child's name
  induction h generalizing other with
  | file inode data =>
    have top := same []
    cases h' with
    | file inode' data' =>
      cases top
      rfl
    | directory inode' => cases top
  | @directory inode entries ascending below ih =>
    have top := same []
    cases h' with
    | file inode' data' => cases top
    | @directory inode' entries' ascending' below' =>
      cases top
      have lookups : ∀ name,
          SortedMap.lookupIn name entries = SortedMap.lookupIn name entries' := by
        intro name
        have at_name (rest : List Text) := same (name :: rest)
        simp only [look_cons, entryAt] at at_name
        cases found : SortedMap.lookupIn name entries with
        | none =>
          cases found' : SortedMap.lookupIn name entries' with
          | none => rfl
          | some child' =>
            have bad := at_name []
            rw [found, found'] at bad
            cases bad
        | some child =>
          cases found' : SortedMap.lookupIn name entries' with
          | none =>
            have bad := at_name []
            rw [found, found'] at bad
            cases bad
          | some child' =>
            simp only [found, found', Option.bind_some] at at_name
            have member := (SortedMap.get?_eq_some_iff ⟨entries, ascending⟩ name child).mp found
            have member' :=
              (SortedMap.get?_eq_some_iff ⟨entries', ascending'⟩ name child').mp found'
            have children : child = child' :=
              ih (name, child) member (below' (name, child') member') at_name
            rw [children]
      have maps : (⟨entries, ascending⟩ : SortedMap Text Tree) = ⟨entries', ascending'⟩ :=
        SortedMap.ext_get? lookups
      cases maps
      rfl

end Tree

end FileRemoval
