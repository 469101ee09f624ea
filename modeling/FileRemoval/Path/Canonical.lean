import FileRemoval.Path

/-! # Canonical paths

The canonical form of a path is the absolute path that leads to the same place by names alone. It
is found from the text: the names so far make a stack, the deepest on top, and each piece of the
path pushes a name or takes one off. A piece that is empty, or that would take a name off the
empty stack, leaves the path without a canonical form. -/

namespace FileRemoval.Path

def here : Text := ['.']

def above : Text := ['.', '.']

/-- The names after one more piece, deepest first. -/
def follow (names : List Text) (piece : Text) : Option (List Text) :=
  if piece = above then
    match names with
    | [] => none
    | _ :: rest => some rest
  else if piece = here then some names
  else if piece = [] then none
  else some (piece :: names)

/-- Where a path starts, deepest name first. The pieces of the working directory count as names,
whatever they read. -/
def start (cwd path : Text) : List Text :=
  if isAbsolute path then []
  else ((pieces cwd).filter (· ≠ [])).reverse

/-- The pieces to follow: those after the slashes that the path starts with. -/
def steps (path : Text) : List Text :=
  pieces (path.dropWhile (· = '/'))

def canonicalize (cwd path : Text) : Option Text :=
  if path = top then some top
  else ((steps path).foldlM follow (start cwd path)).map fun names => ofNames names.reverse

end FileRemoval.Path
