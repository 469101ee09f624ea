import FileRemoval.Text

/-! # Paths

A path is a text whose pieces are set apart by slashes. An absolute path starts with a slash. The
text `/` names the top directory, and a path can be taken apart into the file's name and the path
of the directory that holds it. -/

namespace FileRemoval.Path

def top : Text := ['/']

/-- The texts between the slashes of a path, empty ones included. -/
def pieces (path : Text) : List Text :=
  path.splitOn '/'

/-- The pieces with a slash between each two. -/
def joined (names : List Text) : Text :=
  ['/'].intercalate names

/-- The path that leads from the top through `names`; without names, the top itself. -/
def ofNames (names : List Text) : Text :=
  '/' :: joined names

def isAbsolute (path : Text) : Bool :=
  path.head? = some '/'

def isRelative (path : Text) : Bool :=
  !isAbsolute path

/-! ### Directory and name -/

/-- The directory and the name in it: what stands before the last slash and what stands after it.
A path without a slash has no such parts, nor has the top directory. -/
def parentFile (path : Text) : Option (Text × Text) :=
  if path = top then none
  else
    match (pieces path).reverse with
    | name :: piece :: above =>
      let parent := joined (piece :: above).reverse
      some (if parent = [] then top else parent, name)
    | _ => none

def fileName (path : Text) : Option Text :=
  (parentFile path).map (·.2)

/-! ### Splitting and joining -/

@[simp] theorem joined_pieces (path : Text) : joined (pieces path) = path :=
  List.intercalate_splitOn '/'

theorem pieces_joined {names : List Text} (slashless : ∀ name ∈ names, '/' ∉ name)
    (h : names ≠ []) : pieces (joined names) = names :=
  List.splitOn_intercalate '/' slashless h

end FileRemoval.Path
