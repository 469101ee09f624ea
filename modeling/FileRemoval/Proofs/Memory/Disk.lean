import FileRemoval.Memory.Request
import FileRemoval.Proofs.Memory.Tree
import FileRemoval.Proofs.Path.Names
import FileRemoval.Proofs.SlotTable.FiniteMap

/-! # A store that keeps a real tree

The operations of a store in memory, said for a tree of directories in place of a map of paths and
for a finite map in place of a slot table. A path is looked up by going down from the top one name
at a time. -/

namespace FileRemoval

/-- The tree, the names that lead to the file behind each live handle, and the next unused number. -/
structure Disk where
  tree : Tree
  handles : SortedMap Nat (List Text)
  nextInode : Nat

namespace Disk

variable {α : Type}

def initial : Disk :=
  ⟨.directory topInode [], ∅, topInode + 1⟩

def failure (d : Disk) (cause : FileError) : Outcome Disk (Except FileError α) :=
  ⟨.error cause, d, []⟩

def success (d : Disk) (a : α) : Outcome Disk (Except FileError α) :=
  ⟨.ok a, d, []⟩

def resolving (path : Text) (act : List Text → Step Disk (Except FileError α)) :
    Step Disk (Except FileError α) := fun d =>
  match Path.resolve Path.top path with
  | .error cause => d.failure cause
  | .ok key => act (Path.namesOf key) d

/-- The directory for the entry at the end of a path, and the entry's name. The top directory is no
entry; what cannot be reached is not found, be it missing or below a file. -/
def holder (d : Disk) (names : List Text) : Except FileError (List Text × Text) :=
  match names.reverse with
  | [] => .error .isADirectory
  | name :: above =>
    match d.tree.descend above.reverse with
    | none => .error .notFound
    | some (.file ..) => .error .notADirectory
    | some (.directory ..) => .ok (above.reverse, name)

def setEntry (d : Disk) (directory : List Text) (name : Text) (new : Option Tree) : Disk :=
  { d with tree := d.tree.alter (.setEntry name new) directory }

def addEntry (d : Disk) (directory : List Text) (name : Text) (new : Nat → Tree) : Disk :=
  { d.setEntry directory name (some (new d.nextInode)) with nextInode := d.nextInode + 1 }

def openAt (d : Disk) (names : List Text) : Outcome Disk (Except FileError Handle) :=
  success { d with handles := d.handles.insert d.handles.leastFree names } ⟨d.handles.leastFree⟩

def createAt (names : List Text) : Step Disk (Except FileError Handle) := fun d =>
  match d.holder names with
  | .error cause => d.failure cause
  | .ok (directory, name) =>
    if maxOpenFiles ≤ d.handles.size then d.failure .tooManyOpenFiles
    else
      match d.tree.descend names with
      | none => (d.addEntry directory name fun inode => .file inode []).openAt names
      | some (.directory ..) => d.failure .isADirectory
      | some (.file inode _) => (d.setEntry directory name (some (.file inode []))).openAt names

def removeAt (names : List Text) : Step Disk (Except FileError Unit) := fun d =>
  match d.holder names with
  | .error cause => d.failure cause
  | .ok (directory, name) =>
    match d.tree.descend names with
    | none => d.failure .notFound
    | some (.directory ..) => d.failure .isADirectory
    | some (.file ..) =>
      success { d.setEntry directory name none with handles := d.handles.filter (· ≠ names) } ()

def makeDirectoryAt (names : List Text) : Step Disk (Except FileError Unit) := fun d =>
  match d.tree.descend names with
  | some _ => d.failure .alreadyExists
  | none =>
    match d.holder names with
    | .error cause => d.failure cause
    | .ok (directory, name) =>
      success (d.addEntry directory name fun inode => .directory inode []) ()

def listAt (names : List Text) : Step Disk (Except FileError (List Entry)) := fun d =>
  match d.tree.descend names with
  | none => d.failure .notFound
  | some (.file ..) => d.failure .notADirectory
  | some (.directory _ entries) =>
    d.success (entries.map fun e => ⟨e.1, e.2.kind, e.2.inode⟩)

def close (handle : Handle) : Step Disk (Except FileError Unit) := fun d =>
  match d.handles.get? handle.index with
  | none => d.failure .badHandle
  | some _ => success { d with handles := d.handles.erase handle.index } ()

def write (handle : Handle) (data : Bytes) : Step Disk (Except FileError Nat) := fun d =>
  match d.handles.get? handle.index with
  | none => d.failure .badHandle
  | some names =>
    match d.tree.descend names with
    | some (.file inode old) =>
      success { d with tree := d.tree.alter (fun _ => .file inode (old ++ data)) names } data.length
    | _ => d.failure .badHandle

def holds (path : Text) : Step Disk Bool := fun d =>
  match Path.resolve Path.top path with
  | .error _ => ⟨false, d, []⟩
  | .ok key => ⟨(d.tree.descend (Path.namesOf key)).isSome, d, []⟩

def fileSystem : FileSystem (Step Disk) where
  create path := resolving path createAt
  close := close
  remove path := resolving path removeAt
  holds := holds

def perform : Memory.Request → Step Disk Memory.Answer
  | .files request => do pure (.files (← fileSystem.perform request))
  | .makeDirectory path => do pure (.made (← resolving path makeDirectoryAt))
  | .write handle data => do pure (.wrote (← write handle data))
  | .list path => do pure (.listed (← resolving path listAt))

end Disk

end FileRemoval
