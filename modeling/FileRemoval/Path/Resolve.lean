import FileRemoval.Event
import FileRemoval.Path.Canonical

/-! # Resolving a path that a caller hands in -/

namespace FileRemoval.Path

/-- The most bytes that a path may have, counted before it is made canonical. -/
def maxLength : Nat := 256

/-- A path is refused if it is empty or holds a NUL, and else if it is too long. -/
def validate (path : Text) : Except FileError Text :=
  if path = [] ∨ '\x00' ∈ path then .error .invalidPath
  else if maxLength < path.byteLength then .error .nameTooLong
  else .ok path

def resolve (cwd path : Text) : Except FileError Text :=
  match validate path with
  | .error cause => .error cause
  | .ok path =>
    match canonicalize cwd path with
    | none => .error .invalidPath
    | some canonical => .ok canonical

/-- A resolution together with what is reported of it: only one that succeeds is. -/
def resolveNoted (cwd path : Text) : Except FileError Text × List Event :=
  match resolve cwd path with
  | .error cause => (.error cause, [])
  | .ok canonical => (.ok canonical, [.resolved path canonical])

end FileRemoval.Path
