import FileRemoval.FileError

/-! # Reports

What one run comes to, as a line for the user and as an exit. -/

namespace FileRemoval

inductive Exit where
  | success
  | failure
deriving DecidableEq, Repr

def Exit.code : Exit → UInt8
  | .success => 0
  | .failure => 1

def usageLine : Text :=
  "Usage: rm <file>".toList

/-- The outcomes of a run: it was not given exactly one path, or the file at the path was removed,
or it could not be removed. -/
inductive Report where
  | usage
  | removed (path : Text)
  | failed (path : Text) (cause : FileError)
deriving DecidableEq, Repr

namespace Report

/-- The line for the user, without the line feed that ends it. Paths are shown as they are. -/
def line : Report → Text
  | .usage => usageLine
  | .removed path => "remove successful: ".toList ++ path
  | .failed path cause => "Unable to remove ".toList ++ path ++ ": ".toList ++ cause.message

def exit : Report → Exit
  | .usage => .failure
  | .removed _ => .success
  | .failed .. => .failure

def cause? : Report → Option FileError
  | .usage => none
  | .removed _ => none
  | .failed _ cause => some cause

def text (r : Report) : Text :=
  r.line ++ ['\n']

end Report

end FileRemoval
