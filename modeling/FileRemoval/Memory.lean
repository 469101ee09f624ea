import FileRemoval.FileSystem
import FileRemoval.Path.Resolve
import FileRemoval.SlotTable
import FileRemoval.SortedMap

/-! # A file store in memory

All nodes are kept in one map, by canonical path, and open files in one slot table, by the
canonical path of the file. Relative paths start at the top directory.

Each operation on a path comes in two parts. What it does at a canonical path is one function of
the state (`createAt`, `removeAt`, …), and `resolving` puts the resolution of the caller's path in
front of it. A failing operation leaves the state it was given. -/

namespace FileRemoval

inductive Kind where
  | directory
  | regular
deriving DecidableEq, Repr

/-- A node: the number that it keeps for as long as it exists, what it is, and its bytes. -/
structure Node where
  inode : Nat
  kind : Kind
  data : Bytes
deriving DecidableEq, Repr

def Node.size (n : Node) : Nat :=
  n.data.length

structure Entry where
  name : Text
  kind : Kind
  inode : Nat
deriving DecidableEq, Repr

def topInode : Nat := 1

/-- Nodes by canonical path, the files behind the live handles, and the next unused node number. -/
structure Memory where
  nodes : SortedMap Text Node
  handles : SlotTable Text
  nextInode : Nat
deriving DecidableEq

namespace Memory

def initial : Memory where
  nodes := (∅ : SortedMap Text Node).insert Path.top ⟨topInode, .directory, []⟩
  handles := ∅
  nextInode := topInode + 1

/-! ### Outcomes -/

variable {α : Type}

def failure (m : Memory) (cause : FileError) : Outcome Memory (Except FileError α) :=
  ⟨.error cause, m, []⟩

def success (m : Memory) (a : α) (events : List Event) : Outcome Memory (Except FileError α) :=
  ⟨.ok a, m, events⟩

def resolving (path : Text) (act : Text → Step Memory (Except FileError α)) :
    Step Memory (Except FileError α) := fun m =>
  match Path.resolveNoted Path.top path with
  | (.error cause, events) => ⟨.error cause, m, events⟩
  | (.ok key, events) =>
    let rest := act key m
    ⟨rest.answer, rest.state, events ++ rest.events⟩

/-! ### Nodes -/

/-- Whether a node can be at `key`: the directory that is to hold it exists. The top directory is
in no other. -/
def checkParent (m : Memory) (key : Text) : Except FileError Unit :=
  match Path.parentFile key with
  | none => .error .isADirectory
  | some (parent, _) =>
    match m.nodes.get? parent with
    | none => .error .notFound
    | some node =>
      match node.kind with
      | .regular => .error .notADirectory
      | .directory => .ok ()

def addNode (m : Memory) (key : Text) (kind : Kind) : Memory :=
  { m with nodes := m.nodes.insert key ⟨m.nextInode, kind, []⟩, nextInode := m.nextInode + 1 }

def setData (m : Memory) (key : Text) (node : Node) (data : Bytes) : Memory :=
  { m with nodes := m.nodes.insert key { node with data } }

/-! ### Operations at a canonical path -/

def openAt (m : Memory) (key : Text) : Outcome Memory (Except FileError Handle) :=
  let (handles, index) := m.handles.insert key
  success { m with handles } ⟨index⟩ [.opened ⟨index⟩]

/-- Makes a new file, or empties the one that is there under its old number, and opens it. -/
def createAt (key : Text) : Step Memory (Except FileError Handle) := fun m =>
  match m.checkParent key with
  | .error cause => m.failure cause
  | .ok () =>
    if maxOpenFiles ≤ m.handles.occupied then m.failure .tooManyOpenFiles
    else
      match m.nodes.get? key with
      | none => (m.addNode key .regular).openAt key
      | some node =>
        match node.kind with
        | .directory => m.failure .isADirectory
        | .regular => (m.setData key node []).openAt key

def dropAt (m : Memory) (key : Text) : Outcome Memory (Except FileError Unit) :=
  let (handles, closed) := m.handles.retain (· ≠ key)
  success { m with nodes := m.nodes.erase key, handles } ()
    (if 0 < closed then [.closedAll closed key] else [])

/-- Removes the file at `key`. Directories stay. -/
def removeAt (key : Text) : Step Memory (Except FileError Unit) := fun m =>
  match m.checkParent key with
  | .error cause => m.failure cause
  | .ok () =>
    match m.nodes.get? key with
    | none => m.failure .notFound
    | some node =>
      match node.kind with
      | .directory => m.failure .isADirectory
      | .regular => m.dropAt key

def makeDirectoryAt (key : Text) : Step Memory (Except FileError Unit) := fun m =>
  if m.nodes.contains key then m.failure .alreadyExists
  else
    match m.checkParent key with
    | .error cause => m.failure cause
    | .ok () => success (m.addNode key .directory) () []

/-- The nodes whose path lies in the directory `key`, in the order of their paths. -/
def childrenOf (m : Memory) (key : Text) : List Entry :=
  m.nodes.entries.filterMap fun (path, node) =>
    match Path.parentFile path with
    | none => none
    | some (parent, name) =>
      if parent = key then some ⟨name, node.kind, node.inode⟩ else none

def listAt (key : Text) : Step Memory (Except FileError (List Entry)) := fun m =>
  match m.nodes.get? key with
  | none => m.failure .notFound
  | some node =>
    match node.kind with
    | .regular => m.failure .notADirectory
    | .directory => success m (m.childrenOf key) []

/-! ### Operations of the store -/

def create (path : Text) : Step Memory (Except FileError Handle) :=
  resolving path createAt

def remove (path : Text) : Step Memory (Except FileError Unit) :=
  resolving path removeAt

def makeDirectory (path : Text) : Step Memory (Except FileError Unit) :=
  resolving path makeDirectoryAt

def list (path : Text) : Step Memory (Except FileError (List Entry)) :=
  resolving path listAt

def close (handle : Handle) : Step Memory (Except FileError Unit) := fun m =>
  match m.handles.get? handle.index with
  | none => m.failure .badHandle
  | some key =>
    success { m with handles := m.handles.erase handle.index } () [.closed handle key]

def write (handle : Handle) (data : Bytes) : Step Memory (Except FileError Nat) := fun m =>
  match m.handles.get? handle.index with
  | none => m.failure .badHandle
  | some key =>
    match m.nodes.get? key with
    | none => m.failure .badHandle
    | some node => success (m.setData key node (node.data ++ data)) data.length []

/-- Whether there is a node at `path`. A path that cannot be resolved leads to none. -/
def holds (path : Text) : Step Memory Bool := fun m =>
  match Path.resolveNoted Path.top path with
  | (.error _, events) => ⟨false, m, events⟩
  | (.ok key, events) => ⟨m.nodes.contains key, m, events⟩

def usedBytes (m : Memory) : Nat :=
  m.nodes.values.foldr (fun node total => node.size + total) 0

def openHandles (m : Memory) : Nat :=
  m.handles.occupied

def fileSystem : FileSystem (Step Memory) where
  create := create
  close := close
  remove := remove
  holds := holds

end Memory

end FileRemoval
