import FileRemoval.Host.Error
import FileRemoval.Host.Path
import FileRemoval.SortedMap

/-! # The host

The part of a Linux host that the program can see: a tree of directories and regular files, and a
working directory. The program runs as the superuser, and there are no links and no other
programs. File calls take a path apart and walk it name by name, so an error tells where the walk
ended. -/

namespace FileRemoval

abbrev Location := List Bytes

instance : Std.TransOrd Location :=
  inferInstanceAs (Std.TransOrd (List (List UInt8)))

inductive HostNode where
  | directory
  | file (content : Bytes)
deriving DecidableEq, Repr

def HostNode.size? : HostNode → Option Nat
  | .directory => none
  | .file content => some content.length

/-- Where a walk stands. A directory that was taken away while in use has no entries, but still
leads up to the directory that held it. -/
inductive Place where
  | at (location : Location)
  | takenFrom (parent : Location)
deriving DecidableEq, Repr

/-- A part of the tree that the host's kernel fills by itself, such as the one with its processes.
No entry can be added there, which is refused in a way of its own, or taken away, and names may
have any length. -/
structure FixedTree where
  root : Location
  refusal : HostError
deriving DecidableEq, Repr

/-- Files and directories by location, without the top directory, which is always there; where
relative paths start; and the trees whose entries are fixed. -/
structure Host where
  nodes : SortedMap Location HostNode
  workingDirectory : Place
  fixed : List FixedTree
deriving DecidableEq

namespace Host

def maxName : Nat := 255

/-- The first path length that the host does not read. -/
def pathRoom : Nat := 4096

def node? (h : Host) (location : Location) : Option HostNode :=
  if location = [] then some .directory else h.nodes.get? location

/-- How a new entry of a directory is refused, if the directory lies in a fixed tree. -/
def refusalIn? (h : Host) (directory : Location) : Option HostError :=
  (h.fixed.find? fun t => t.root.isPrefixOf directory).map (·.refusal)

def isTooLong (h : Host) (directory : Location) (name : Bytes) : Bool :=
  (h.refusalIn? directory).isNone && maxName < name.length

/-! ### Walking -/

/-- The place that a walk comes to with one more name. Only a directory leads on; whether it is
one is settled before the name is looked at. -/
def enter (h : Host) (place : Place) (name : Bytes) : Except HostError Place :=
  match place with
  | .takenFrom parent =>
    if name = HostPath.here then .ok place
    else if name = HostPath.above then .ok (.at parent)
    else .error .noEntry
  | .at location =>
    match h.node? location with
    | none => .error .noEntry
    | some (.file _) => .error .notADirectory
    | some .directory =>
      if name = HostPath.here then .ok place
      else if name = HostPath.above then .ok (.at location.dropLast)
      else if h.isTooLong location name then .error .nameTooLong
      else
        match h.node? (location ++ [name]) with
        | none => .error .noEntry
        | some _ => .ok (.at (location ++ [name]))

def startOf (h : Host) (path : Bytes) : Place :=
  if HostPath.isAbsolute path then .at [] else h.workingDirectory

def accept (path : Bytes) : Except HostError Unit :=
  if 0 ∈ path then .error .nulInPath
  else if path = [] then .error .noEntry
  else if pathRoom ≤ path.length then .error .nameTooLong
  else .ok ()

def find (h : Host) (path : Bytes) : Except HostError Place :=
  match accept path with
  | .error refusal => .error refusal
  | .ok () => (HostPath.names path).foldlM h.enter (h.startOf path)

/-- What the last step of a path aims at: an entry, which may or may not be there; a name that the
directory cannot hold; or a directory that is reached without a name of its own. -/
inductive Target where
  | entry (directory : Location) (name : Bytes)
  | barred (refusal : HostError)
  | dots
deriving DecidableEq, Repr

/-- What the last name of a path says about a directory that was reached. A directory that was
taken away has no entries, and its name is not looked at. -/
def targetIn (h : Host) (place : Place) (name : Bytes) : Except HostError Target :=
  match place with
  | .takenFrom _ =>
    if name = HostPath.here ∨ name = HostPath.above then .ok .dots else .ok (.barred .noEntry)
  | .at location =>
    match h.node? location with
    | none => .error .noEntry
    | some (.file _) => .error .notADirectory
    | some .directory =>
      if name = HostPath.here ∨ name = HostPath.above then .ok .dots
      else if h.isTooLong location name then .ok (.barred .nameTooLong)
      else .ok (.entry location name)

/-- Walks all names of a path but the last. A path without names is the top directory. -/
def target (h : Host) (path : Bytes) : Except HostError Target :=
  match accept path with
  | .error refusal => .error refusal
  | .ok () =>
    match (HostPath.names path).getLast? with
    | none => .ok .dots
    | some name =>
      match (HostPath.names path).dropLast.foldlM h.enter (h.startOf path) with
      | .error refusal => .error refusal
      | .ok place => h.targetIn place name

/-! ### File calls -/

/-- Opens the file at `path` for writing, emptied if it is there and made if it is not. A slash at
the end of the path is refused before the name is looked up. -/
def openEmpty (h : Host) (path : Bytes) : Except HostError Unit × Host :=
  match h.target path with
  | .error refusal => (.error refusal, h)
  | .ok .dots => (.error .isADirectory, h)
  | .ok (.barred refusal) =>
    (.error (if HostPath.endsInSlash path then .isADirectory else refusal), h)
  | .ok (.entry directory name) =>
    if HostPath.endsInSlash path then (.error .isADirectory, h)
    else
      match h.node? (directory ++ [name]) with
      | some .directory => (.error .isADirectory, h)
      | some (.file _) =>
        (.ok (), { h with nodes := h.nodes.insert (directory ++ [name]) (.file []) })
      | none =>
        match h.refusalIn? directory with
        | some refusal => (.error refusal, h)
        | none => (.ok (), { h with nodes := h.nodes.insert (directory ++ [name]) (.file []) })

def unlink (h : Host) (path : Bytes) : Except HostError Unit × Host :=
  match h.target path with
  | .error refusal => (.error refusal, h)
  | .ok .dots => (.error .isADirectory, h)
  | .ok (.barred refusal) => (.error refusal, h)
  | .ok (.entry directory name) =>
    match h.node? (directory ++ [name]) with
    | none => (.error .noEntry, h)
    | some .directory => (.error .isADirectory, h)
    | some (.file _) =>
      if HostPath.endsInSlash path then (.error .notADirectory, h)
      else if (h.refusalIn? directory).isSome then (.error .notPermitted, h)
      else (.ok (), { h with nodes := h.nodes.erase (directory ++ [name]) })

/-- Whether a path leads to something. With a slash at its end it has to be a directory. -/
def holds (h : Host) (path : Bytes) : Bool :=
  match h.find path with
  | .error _ => false
  | .ok (.takenFrom _) => true
  | .ok (.at location) =>
    match h.node? location with
    | none => false
    | some .directory => true
    | some (.file _) => !HostPath.endsInSlash path

def pathOf (location : Location) : Bytes :=
  HostPath.slash :: [HostPath.slash].intercalate location

def workingPath (h : Host) : Except HostError Bytes :=
  match h.workingDirectory with
  | .at location => .ok (pathOf location)
  | .takenFrom _ => .error .noEntry

end Host

end FileRemoval
