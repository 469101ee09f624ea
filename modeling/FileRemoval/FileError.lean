import FileRemoval.Text

/-! # Why a file operation fails -/

namespace FileRemoval

/-- The causes a file store tells apart. `invalidPath` stands for a path that is empty, holds a
NUL or climbs above the top; `io` for any failure of the storage without a cause of its own here. -/
inductive FileError where
  | alreadyExists
  | notFound
  | isADirectory
  | notADirectory
  | permissionDenied
  | invalidPath
  | nameTooLong
  | tooManyOpenFiles
  | badHandle
  | io
deriving DecidableEq, Repr

def FileError.message : FileError → Text
  | .alreadyExists => "already exists".toList
  | .notFound => "no such file or directory".toList
  | .isADirectory => "is a directory".toList
  | .notADirectory => "not a directory".toList
  | .permissionDenied => "permission denied".toList
  | .invalidPath => "invalid path".toList
  | .nameTooLong => "file name too long".toList
  | .tooManyOpenFiles => "too many open files".toList
  | .badHandle => "bad file handle".toList
  | .io => "i/o error".toList

end FileRemoval
