import FileRemoval.Text

/-! # Host paths

A host path is a byte string. Its names are set apart by slashes, of which several in a row count
as one. Two spellings of a path compare equal when their components do. -/

namespace FileRemoval.HostPath

def slash : UInt8 := '/'.toUInt8

def here : Bytes := ['.'.toUInt8]

def above : Bytes := ['.'.toUInt8, '.'.toUInt8]

def isAbsolute (path : Bytes) : Bool :=
  path.head? = some slash

def names (path : Bytes) : List Bytes :=
  (path.splitOn slash).filter (· ≠ [])

/-- A slash at the end asks for a directory. -/
def endsInSlash (path : Bytes) : Bool :=
  path.getLast? = some slash

/-- The path that continues `root` with `rest`. An absolute `rest` stands for itself. -/
def join (root rest : Bytes) : Bytes :=
  if isAbsolute rest then rest
  else if root = [] ∨ endsInSlash root then root ++ rest
  else root ++ slash :: rest

/-! ### Components -/

/-- A part of a path as comparison sees it. -/
inductive Component where
  | top
  | here
  | above
  | name (bytes : Bytes)
deriving DecidableEq, Repr

/-- The component for a name on the way. Staying where one is makes no difference there. -/
def Component.ofName? (name : Bytes) : Option Component :=
  if name = HostPath.here then none
  else if name = HostPath.above then some .above
  else some (.name name)

/-- The components of a path. A relative path that starts with `.` keeps it. -/
def components (path : Bytes) : List Component :=
  if isAbsolute path then .top :: (names path).filterMap Component.ofName?
  else
    match names path with
    | [] => []
    | first :: rest =>
      if first = HostPath.here then .here :: rest.filterMap Component.ofName?
      else (first :: rest).filterMap Component.ofName?

def same (p q : Bytes) : Bool :=
  components p = components q

def fileName (path : Bytes) : Option Bytes :=
  match (components path).getLast? with
  | some (.name name) => some name
  | _ => none

end FileRemoval.HostPath
