import FileRemoval.FileError

/-! # Why the host refuses a request -/

namespace FileRemoval

/-- The refusals of the host's file calls. `other` is for one with nothing but a description. -/
inductive HostError where
  | noEntry
  | alreadyExists
  | accessDenied
  | notPermitted
  | isADirectory
  | notADirectory
  | nameTooLong
  | nulInPath
  | other (description : Text)
deriving DecidableEq, Repr

/-- The host's own wording, with its number for the refusal where it has one. -/
def HostError.description : HostError → Text
  | .noEntry => "No such file or directory (os error 2)".toList
  | .alreadyExists => "File exists (os error 17)".toList
  | .accessDenied => "Permission denied (os error 13)".toList
  | .notPermitted => "Operation not permitted (os error 1)".toList
  | .isADirectory => "Is a directory (os error 21)".toList
  | .notADirectory => "Not a directory (os error 20)".toList
  | .nameTooLong => "File name too long (os error 36)".toList
  | .nulInPath => "file name contained an unexpected NUL byte".toList
  | .other description => description

/-- The cause that a file store reports for a refusal. A name that is too long for the host is not
the same as a path over the store's own limit, and has no cause of its own. -/
def HostError.cause? : HostError → Option FileError
  | .noEntry => some .notFound
  | .alreadyExists => some .alreadyExists
  | .accessDenied => some .permissionDenied
  | .notPermitted => some .permissionDenied
  | .isADirectory => some .isADirectory
  | .notADirectory => some .notADirectory
  | .nameTooLong => none
  | .nulInPath => none
  | .other _ => none

end FileRemoval
