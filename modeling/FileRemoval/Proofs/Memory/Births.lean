import Mathlib.Algebra.Group.Nat.Defs
import FileRemoval.Proofs.Memory.Permanence
import FileRemoval.Proofs.Memory.Walk
import FileRemoval.Proofs.Step.Simulation

/-! # Node numbers

A record beside a store has every node that was ever put in, those that a run of the remover puts
in and takes out again among them. The numbers on it go up without a gap, so no two nodes of one
history have the same, whichever of them are left. -/

namespace FileRemoval.Memory

open Path

/-! ### The record -/

structure Birth where
  path : Text
  kind : Kind
  inode : Nat
deriving DecidableEq, Repr

/-- The nodes that are there after a call, and were not, under their numbers, before it. -/
def born (before after : Memory) : List Birth :=
  after.nodes.entries.filterMap fun (path, node) =>
    if (before.nodes.get? path).map Node.inode = some node.inode then none
    else some ⟨path, node.kind, node.inode⟩

/-- A call after which the record is led on. -/
def recording {α : Type} (x : Step Memory α) : Step (Memory × List Birth) α := fun t =>
  let o := x.run t.1
  ⟨o.answer, (o.state, t.2 ++ born t.1 o.state), o.events⟩

/-- The file system of a store with a record beside it. -/
def recorded : FileSystem (Step (Memory × List Birth)) where
  create path := recording (create path)
  close handle := recording (close handle)
  remove path := recording (remove path)
  holds path := recording (holds path)

def performRecorded : Request → Step (Memory × List Birth) Answer
  | .files request => do pure (.files (← recorded.perform request))
  | .makeDirectory path => do pure (.made (← recording (makeDirectory path)))
  | .write handle data => do pure (.wrote (← recording (write handle data)))
  | .list path => do pure (.listed (← recording (list path)))

def recordedHistory (requests : List Request) : Step (Memory × List Birth) (List Answer) :=
  requests.mapM performRecorded

/-- All nodes that requests put into a new store, in the order in which they came. -/
def births (requests : List Request) : List Birth :=
  ((recordedHistory requests).run (initial, [])).state.2

theorem matches_recording {α : Type} (x : Step Memory α) :
    Step.Matches (fun t m => t.1 = m) (recording x) x := by
  rintro t m rfl
  exact ⟨rfl, rfl⟩

/-- The record is not looked at. -/
theorem matches_recorded : recorded.Matches (fun t m => t.1 = m) fileSystem where
  create path := matches_recording (create path)
  close handle := matches_recording (close handle)
  remove path := matches_recording (remove path)
  holds path := matches_recording (holds path)

theorem matches_performRecorded (request : Request) :
    Step.Matches (fun t m => t.1 = m) (performRecorded request) (perform request) := by
  cases request with
  | files request => exact .bind (FileSystem.matches_perform matches_recorded request) fun _ => .pure _
  | makeDirectory path => exact .bind (matches_recording _) fun _ => .pure _
  | write handle data => exact .bind (matches_recording _) fun _ => .pure _
  | list path => exact .bind (matches_recording _) fun _ => .pure _

/-! ### One call -/

variable {m m' : Memory} {key : Text}

/-- A call takes nodes away or leaves them, under their numbers, or it puts one in under the next
number. -/
inductive Begets (m : Memory) : Memory → Prop
  | none {m' : Memory} (next : m'.nextInode = m.nextInode)
      (old : ∀ key node, m'.nodes.get? key = some node →
        ∃ before, m.nodes.get? key = some before ∧ node.inode = before.inode ∧
          node.kind = before.kind) : Begets m m'
  | one {key : Text} (kind : Kind) (handles : SlotTable Text)
      (absent : m.nodes.get? key = .none) : Begets m { m.addNode key kind with handles }

theorem Begets.of_same (nodes : m'.nodes = m.nodes) (next : m'.nextInode = m.nextInode) :
    Begets m m' :=
  .none next fun _ node found => ⟨node, nodes ▸ found, rfl, rfl⟩

theorem Begets.of_setData {node : Node} (found : m.nodes.get? key = some node) (data : Bytes)
    (handles : SlotTable Text) : Begets m { m.setData key node data with handles } := by
  refine .none rfl fun other new there => ?_
  obtain ⟨old, oldFound, inode, kind, -⟩ := get?_setData found data there
  exact ⟨old, oldFound, inode, kind⟩

theorem Begets.of_dropAt (m : Memory) (key : Text) : Begets m (m.dropAt key).state := by
  refine .none rfl fun other node there => ⟨node, ?_, rfl, rfl⟩
  change (m.nodes.erase key).get? other = some node at there
  rw [SortedMap.get?_erase] at there
  split at there
  · cases there
  · exact there

theorem begets_createAt (m : Memory) (key : Text) : Begets m ((createAt key).run m).state := by
  rcases createAt_cases m key with ⟨cause, failed⟩ | ⟨-, -, absent, made⟩ |
    ⟨node, -, -, found, -, emptied⟩
  · rw [failed]
    exact .of_same rfl rfl
  · rw [made]
    exact .one .regular _ absent
  · rw [emptied]
    exact .of_setData found [] _

theorem begets_removeAt (m : Memory) (key : Text) : Begets m ((removeAt key).run m).state := by
  rcases removeAt_cases m key with ⟨cause, failed⟩ | ⟨-, -, dropped⟩
  · rw [failed]
    exact .of_same rfl rfl
  · rw [dropped]
    exact .of_dropAt m key

theorem begets_makeDirectoryAt (m : Memory) (key : Text) :
    Begets m ((makeDirectoryAt key).run m).state := by
  rcases makeDirectoryAt_cases m key with ⟨cause, failed⟩ | ⟨-, absent, made⟩
  · rw [failed]
    exact .of_same rfl rfl
  · rw [made]
    exact .one .directory m.handles absent

theorem begets_resolving {α : Type} {act : Text → Step Memory (Except FileError α)}
    (h : ∀ key, Begets m ((act key).run m).state) (path : Text) :
    Begets m ((resolving path act).run m).state := by
  cases resolved : resolve top path with
  | error cause =>
    rw [run_resolving_error act m resolved]
    exact .of_same rfl rfl
  | ok key =>
    rw [run_resolving_ok act m resolved]
    exact h key

theorem begets_close (m : Memory) (handle : Handle) : Begets m ((close handle).run m).state := by
  rcases close_cases m handle with ⟨-, failed⟩ | ⟨key, -, closed⟩
  · rw [failed]
    exact .of_same rfl rfl
  · rw [closed]
    exact .of_same rfl rfl

theorem begets_write (m : Memory) (handle : Handle) (data : Bytes) :
    Begets m ((write handle data).run m).state := by
  rcases write_cases m handle data with failed | ⟨key, node, -, found, written⟩
  · rw [failed]
    exact .of_same rfl rfl
  · rw [written]
    exact .of_setData found _ m.handles

/-- What every call of a store in memory does, those that a remover makes like any other. -/
structure IsCall {α : Type} (x : Step Memory α) : Prop where
  keeps : Step.Keeps Sound WithinTable x
  begets : ∀ m, Begets m (x.run m).state

theorem isCall_create (path : Text) : IsCall (create path) where
  keeps := keeps_fileSystem.create path
  begets m := begets_resolving (begets_createAt m) path

theorem isCall_close (handle : Handle) : IsCall (close handle) where
  keeps := keeps_close handle
  begets m := begets_close m handle

theorem isCall_remove (path : Text) : IsCall (remove path) where
  keeps := keeps_fileSystem.remove path
  begets m := begets_resolving (begets_removeAt m) path

theorem isCall_holds (path : Text) : IsCall (holds path) where
  keeps := keeps_holds path
  begets m := by
    rw [state_holds]
    exact .of_same rfl rfl

theorem isCall_makeDirectory (path : Text) : IsCall (makeDirectory path) where
  keeps := keeps_makeDirectory path
  begets m := begets_resolving (begets_makeDirectoryAt m) path

theorem isCall_write (handle : Handle) (data : Bytes) : IsCall (write handle data) where
  keeps := keeps_write handle data
  begets m := begets_write m handle data

theorem isCall_list (path : Text) : IsCall (list path) where
  keeps := keeps_list path
  begets m := by
    rw [state_list]
    exact .of_same rfl rfl

/-- What every call keeps of the store and the record, every history keeps. -/
theorem keeps_recordedHistory {inv : Memory × List Birth → Prop}
    (call : ∀ {α : Type} {x : Step Memory α}, IsCall x →
      Step.Keeps inv (fun _ => True) (recording x)) (requests : List Request) :
    Step.Keeps inv (fun _ => True) (recordedHistory requests) := by
  have files : recorded.Keeps inv fun _ => True :=
    ⟨fun path => call (isCall_create path), fun handle => call (isCall_close handle),
      fun path => call (isCall_remove path), fun path => call (isCall_holds path)⟩
  have reports : Remover.Reports fun _ => True :=
    ⟨fun _ => trivial, fun _ _ => trivial, fun _ _ _ => trivial, trivial⟩
  refine .mapM (fun request => ?_) requests
  cases request with
  | files request => exact .bind (FileSystem.keeps_perform files reports request) fun _ => .pure _
  | makeDirectory path => exact .bind (call (isCall_makeDirectory path)) fun _ => .pure _
  | write handle data => exact .bind (call (isCall_write handle data)) fun _ => .pure _
  | list path => exact .bind (call (isCall_list path)) fun _ => .pure _

/-! ### What a call records -/

theorem born_of_old (old : ∀ key node, m'.nodes.get? key = some node →
    ∃ before, m.nodes.get? key = some before ∧ node.inode = before.inode ∧
      node.kind = before.kind) : born m m' = [] := by
  refine List.filterMap_eq_nil_iff.mpr fun ⟨path, node⟩ member => ?_
  obtain ⟨before, found, same, -⟩ :=
    old path node ((SortedMap.get?_eq_some_iff m'.nodes path node).mpr member)
  dsimp only
  rw [found, if_pos (by rw [same]; rfl)]

theorem filterMap_insertIn {α β : Type} {f : Text × α → Option β} {value : α} {b : β}
    {l : List (Text × α)} (new : f (key, value) = some b) (old : ∀ e ∈ l, f e = none) :
    (SortedMap.insertIn key value l).filterMap f = [b] := by
  induction l with
  | nil => rw [SortedMap.insertIn, List.filterMap_cons_some new, List.filterMap_nil]
  | cons e rest ih =>
    have none_of_old := List.filterMap_eq_nil_iff.mpr old
    obtain ⟨first, later⟩ := List.forall_mem_cons.mp old
    rw [SortedMap.insertIn]
    split
    · rw [List.filterMap_cons_some new, none_of_old]
    · rw [List.filterMap_cons_some new, List.filterMap_eq_nil_iff.mpr later]
    · rw [List.filterMap_cons_none first, ih later]

theorem born_addNode (absent : m.nodes.get? key = none) (kind : Kind) (handles : SlotTable Text) :
    born m { m.addNode key kind with handles } = [⟨key, kind, m.nextInode⟩] := by
  refine filterMap_insertIn ?_ fun ⟨path, node⟩ member => ?_
  · dsimp only
    rw [absent, if_neg (by simp)]
  · have found := (SortedMap.get?_eq_some_iff m.nodes path node).mpr member
    dsimp only
    rw [found, Option.map_some, if_pos rfl]

/-- The record is complete, and its numbers are those after the top's, in order. -/
structure Registered (m : Memory) (l : List Birth) : Prop where
  sound : Sound m
  numbers : l.map Birth.inode = List.range' (topInode + 1) l.length
  next : m.nextInode = topInode + 1 + l.length
  nodes : ∀ path node, m.nodes.get? path = some node → path ≠ top →
    ⟨path, node.kind, node.inode⟩ ∈ l

theorem registered_initial : Registered initial [] := by
  refine ⟨sound_initial, rfl, rfl, fun path node found notTop => ?_⟩
  rw [initial, SortedMap.get?_insert, if_neg notTop] at found
  cases found

section

variable {l : List Birth} (h : Registered m l)
include h

theorem Registered.begets (begets : Begets m m') (sound : Sound m') :
    Registered m' (l ++ born m m') := by
  cases begets with
  | none next old =>
    rw [born_of_old old, List.append_nil]
    refine ⟨sound, h.numbers, next.trans h.next, fun path node found notTop => ?_⟩
    obtain ⟨before, there, inode, kind⟩ := old path node found
    rw [inode, kind]
    exact h.nodes path before there notTop
  | @one key kind handles absent =>
    have next := h.next
    rw [born_addNode absent]
    refine ⟨sound, ?_, ?_, fun path node found notTop => ?_⟩
    · rw [List.map_append, h.numbers, List.length_append, List.length_singleton,
        List.range'_concat]
      simpa using next
    · show m.nextInode + 1 = _
      rw [List.length_append, List.length_singleton]
      omega
    · change (m.addNode key kind).nodes.get? path = some node at found
      rw [addNode, SortedMap.get?_insert] at found
      split at found
      · rename_i isHere
        cases found
        rw [isHere]
        exact List.mem_append_right l List.mem_cons_self
      · exact List.mem_append_left _ (h.nodes path node found notTop)

theorem Registered.ascending : l.Pairwise fun a b => a.inode < b.inode := by
  have numbers := List.pairwise_lt_range' (s := topInode + 1) (n := l.length) 1
  rw [← h.numbers, List.pairwise_map] at numbers
  exact numbers

theorem Registered.topInode_lt {b : Birth} (member : b ∈ l) : topInode < b.inode := by
  have number : b.inode ∈ l.map Birth.inode := List.mem_map_of_mem member
  rw [h.numbers, List.mem_range'_1] at number
  omega

theorem Registered.eq_of_inode {a b : Birth} (first : a ∈ l) (second : b ∈ l)
    (same : a.inode = b.inode) : a = b := by
  have nodup : (l.map Birth.inode).Nodup := by
    rw [h.numbers]
    exact List.nodup_range'
  exact List.inj_on_of_nodup_map nodup first second same

end

theorem keeps_registered {α : Type} {x : Step Memory α} (call : IsCall x) :
    Step.Keeps (fun t => Registered t.1 t.2) (fun _ => True) (recording x) := by
  intro t h
  exact ⟨h.begets (call.begets t.1) (call.keeps t.1 h.sound).1, fun _ _ => trivial⟩

/-! ### All histories -/

theorem state_recordedHistory_append (first later : List Request) (t : Memory × List Birth) :
    ((recordedHistory (first ++ later)).run t).state =
      ((recordedHistory later).run ((recordedHistory first).run t).state).state := by
  simp only [recordedHistory, List.mapM_append, Step.run_bind, Step.run_pure]

theorem state_history_append (first later : List Request) (m : Memory) :
    ((history (first ++ later)).run m).state =
      ((history later).run ((history first).run m).state).state := by
  simp only [history, List.mapM_append, Step.run_bind, Step.run_pure]

theorem recordedHistory_eq (requests : List Request) :
    let seen := (recordedHistory requests).run (initial, [])
    let last := (history requests).run initial
    seen.answer = last.answer ∧ seen.state = (last.state, births requests) := by
  intro seen last
  obtain ⟨answers, same⟩ := Step.Matches.mapM matches_performRecorded requests (initial, []) initial rfl
  exact ⟨answers, Prod.ext same rfl⟩

theorem births_append (first later : List Request) : births first <+: births (first ++ later) := by
  have grows : Step.Keeps (fun t => births first <+: t.2) (fun _ => True) (recordedHistory later) :=
    keeps_recordedHistory (fun _ t before =>
      ⟨before.trans (List.prefix_append t.2 _), fun _ _ => trivial⟩) later
  have whole : births (first ++ later) =
      ((recordedHistory later).run ((recordedHistory first).run (initial, [])).state).state.2 := by
    rw [births, state_recordedHistory_append]
  rw [whole]
  exact (grows _ (List.prefix_refl (births first))).1

theorem registered_births (requests : List Request) :
    Registered ((history requests).run initial).state (births requests) := by
  have kept := keeps_recordedHistory keeps_registered requests (initial, []) registered_initial
  rw [(recordedHistory_eq requests).2] at kept
  exact kept.1

/-! ### Calls that fail -/

def Answer.IsFailure : Answer → Prop
  | .files (.opened (.error _)) => True
  | .files (.settled (.error _)) => True
  | .files (.ended .failure _) => True
  | .made (.error _) => True
  | .wrote (.error _) => True
  | .listed (.error _) => True
  | _ => False

theorem changeOf_of_isFailure {request : Request} {answer : Answer} (failed : answer.IsFailure) :
    changeOf m request answer = .nothing := by
  unfold changeOf
  split <;> first | rfl | exact failed.elim

theorem Sound.nextInode_of_isFailure (sound : Sound m) {request : Request}
    (failed : ((perform request).run m).answer.IsFailure) :
    ((perform request).run m).state.nextInode = m.nextInode := by
  have leads := sound.leads_perform request
  dsimp only at leads
  rw [changeOf_of_isFailure failed] at leads
  generalize ((perform request).run m).state = m' at leads
  cases leads
  rfl

theorem births_concat_of_isFailure {requests : List Request} {request : Request}
    (failed : ((perform request).run ((history requests).run initial).state).answer.IsFailure) :
    births (requests ++ [request]) = births requests := by
  have before := registered_births requests
  have after := registered_births (requests ++ [request])
  have next := before.sound.nextInode_of_isFailure failed
  rw [← state_history_concat] at next
  have lengths := after.next.symm.trans (next.trans before.next)
  exact ((births_append requests [request]).eq_of_length (by omega)).symm

/-! ### Nodes and entries over time -/

/-- As long as it is not removed a node stays what it is, under its number. -/
theorem Leads.hasNode {c : Change} {kind : Kind} {inode : Nat} (leads : Leads m c m')
    (notRemoved : c ≠ .removed key) (has : m.HasNode key kind inode) :
    m'.HasNode key kind inode := by
  obtain ⟨node, found, sameKind, sameInode⟩ := has
  by_cases touched : c.key? = some key
  · have present : m.nodes.get? key ≠ none := by
      rw [found]
      exact Option.some_ne_none node
    have put {old : Node} (there : m.nodes.get? key = some old) (data : Bytes) :
        (m.setData key old data).HasNode key kind inode := by
      cases found.symm.trans there
      exact ⟨_, SortedMap.get?_insert_self .., sameKind, sameInode⟩
    cases leads with
    | nothing => cases touched
    | added _ _ absent =>
      cases touched
      exact absurd absent present
    | emptied _ there =>
      cases touched
      exact put there []
    | madeDirectory _ absent =>
      cases touched
      exact absurd absent present
    | written there =>
      cases touched
      exact put there _
    | removed =>
      cases touched
      exact absurd rfl notRemoved
  · exact ⟨node, (leads.get?_of_ne touched).trans found, sameKind, sameInode⟩

theorem hasNode_of_history (sound : Sound m) {kind : Kind} {inode : Nat}
    (has : m.HasNode key kind inode) (later : List Request)
    (notRemoved : .removed key ∉ changes later m) :
    ((history later).run m).state.HasNode key kind inode :=
  kept_along (· ≠ .removed key) (fun leads => leads.hasNode) later sound
    (fun _ member same => notRemoved (same ▸ member)) has

/-- Some list that the store answers with has the entry, for the node at that path. -/
def Shows (m : Memory) (path : Text) (entry : Entry) : Prop :=
  ∃ directory key entries, resolve top directory = .ok key ∧
    ((list directory).run m).answer = .ok entries ∧ entry ∈ entries ∧
    path = childPath key entry.name

theorem Sound.hasNode_of_shows (sound : Sound m) {path : Text} {entry : Entry}
    (shows : m.Shows path entry) :
    path ≠ Path.top ∧ m.HasNode path entry.kind entry.inode := by
  obtain ⟨directory, key, entries, resolved, answer, member, rfl⟩ := shows
  obtain ⟨names, rfl, areNames, -⟩ := resolve_top_eq_ok resolved
  obtain ⟨other, same, -, rfl⟩ := list_eq_ok answer
  cases resolved.symm.trans same
  obtain ⟨isName, has⟩ := (mem_childrenOf sound areNames entry).mp member
  rw [childPath_ofNames areNames]
  exact ⟨ofNames_concat_ne_top (areNames_concat.mpr ⟨areNames, isName⟩), has⟩

theorem Registered.mem_of_shows {l : List Birth} (h : Registered m l) {path : Text} {entry : Entry}
    (shows : m.Shows path entry) : ⟨path, entry.kind, entry.inode⟩ ∈ l := by
  obtain ⟨notTop, node, found, kind, inode⟩ := h.sound.hasNode_of_shows shows
  rw [← kind, ← inode]
  exact h.nodes path node found notTop

/-- A number stands for one node for as long as the store lives. The record of all nodes ever put
in, by a creation, as a directory or by a remover, only gets longer; its numbers go up, from the
one after the top's to the last one given out, which sixty-four bits hold unless there were too many
nodes. A request that fails adds nothing to it. As long as a node is not removed it keeps its number
and its kind. So if two lists at any two times show the same number, it is at the same path and for
the same kind, and if they show two numbers at one path, what was there has been removed. -/
theorem inodes_name_nodes (first later : List Request) :
    let m := ((history first).run initial).state
    let last := ((history later).run m).state
    let all := births (first ++ later)
    let seen := (recordedHistory (first ++ later)).run (initial, [])
    seen.answer = ((history (first ++ later)).run initial).answer ∧ seen.state = (last, all) ∧
    births first <+: all ∧
    all.Pairwise (fun a b => a.inode < b.inode) ∧ (∀ b ∈ all, topInode < b.inode) ∧
    last.nextInode = topInode + 1 + all.length ∧
    (all.length < 2 ^ 64 - 2 → last.nextInode < 2 ^ 64) ∧
    (∀ path node, last.nodes.get? path = some node → path ≠ top →
      ⟨path, node.kind, node.inode⟩ ∈ all) ∧
    (∀ request, ((perform request).run last).answer.IsFailure →
      births (first ++ later ++ [request]) = all ∧
        ((perform request).run last).state.nextInode = last.nextInode) ∧
    (∀ path kind inode, m.HasNode path kind inode → .removed path ∉ changes later m →
      last.HasNode path kind inode) ∧
    (∀ path path' entry entry', m.Shows path entry → last.Shows path' entry' →
      entry.inode = entry'.inode → path = path' ∧ entry.kind = entry'.kind) ∧
    (∀ path entry entry', m.Shows path entry → last.Shows path entry' →
      entry.inode ≠ entry'.inode → .removed path ∈ changes later m) := by
  intro m last all seen
  have whole : ((history (first ++ later)).run initial).state = last :=
    state_history_append first later initial
  have early : Registered m (births first) := registered_births first
  have registered : Registered last all := whole ▸ registered_births (first ++ later)
  have earlier : births first <+: all := births_append first later
  obtain ⟨answers, state⟩ := recordedHistory_eq (first ++ later)
  rw [whole] at state
  have next := registered.next
  refine ⟨answers, state, earlier, registered.ascending, fun b member => registered.topInode_lt member,
    next, fun few => ?_, registered.nodes, fun request failed => ⟨?_, ?_⟩, ?_, ?_, ?_⟩
  · have first : topInode = 1 := rfl
    omega
  · exact births_concat_of_isFailure (by rw [whole]; exact failed)
  · exact registered.sound.nextInode_of_isFailure failed
  · exact fun path kind inode has notRemoved =>
      hasNode_of_history early.sound has later notRemoved
  · intro path path' entry entry' shows shows' same
    have birth := earlier.subset (early.mem_of_shows shows)
    have one := registered.eq_of_inode birth (registered.mem_of_shows shows') same
    exact ⟨congrArg Birth.path one, congrArg Birth.kind one⟩
  · intro path entry entry' shows shows' apart
    refine Classical.byContradiction fun notRemoved => apart ?_
    obtain ⟨-, has⟩ := early.sound.hasNode_of_shows shows
    obtain ⟨-, node, found, -, inode⟩ := registered.sound.hasNode_of_shows shows'
    obtain ⟨kept, there, -, same⟩ := hasNode_of_history early.sound has later notRemoved
    cases there.symm.trans found
    exact same.symm.trans inode

/-- The file that a run made and took away again has had a number, which the next one does not get. -/
example :
    births [.files (.create "f".toList), .files (.run true ["g".toList] none),
      .files (.create "f".toList), .makeDirectory "g".toList] =
      [⟨"/f".toList, .regular, 2⟩, ⟨"/g".toList, .regular, 3⟩, ⟨"/g".toList, .directory, 4⟩] := by
  rfl

end FileRemoval.Memory
