import FileRemoval.Step

/-! # File systems -/

namespace FileRemoval

/-- The calls that a user of files may make, in whatever computations `m` carry them out.

* `create` makes an empty file at a path, or empties the one that is there, and opens it.
* `close` gives a handle back.
* `remove` takes a file out of its directory. Handles still open on it are closed.
* `holds` tells whether there is something at a path. -/
structure FileSystem (m : Type → Type) where
  create : Text → m (Except FileError Handle)
  close : Handle → m (Except FileError Unit)
  remove : Text → m (Except FileError Unit)
  holds : Text → m Bool

end FileRemoval
