import FileRemoval.Remover

/-! # Requests

The calls of a file system, and whole runs of the remover over it, as data. A history of use is a
list of requests. -/

namespace FileRemoval

/-- Something asked of a file system. A run writes its report to a sink of its own. -/
inductive Request where
  | create (path : Text)
  | close (handle : Handle)
  | remove (path : Text)
  | holds (path : Text)
  | run (createFirst : Bool) (paths : List Text) (room : Option Nat)
deriving DecidableEq, Repr

inductive Answer where
  | opened (result : Except FileError Handle)
  | settled (result : Except FileError Unit)
  | held (truth : Bool)
  | ended (exit : Exit) (output : Bytes)

def FileSystem.perform {m : Type → Type} [Monad m] [Reporting m] (files : FileSystem m) :
    Request → m Answer
  | .create path => do pure (.opened (← files.create path))
  | .close handle => do pure (.settled (← files.close handle))
  | .remove path => do pure (.settled (← files.remove path))
  | .holds path => do pure (.held (← files.holds path))
  | .run createFirst paths room => do
    let (exit, out) ← Remover.run ⟨files, createFirst⟩ paths (.ofLimit room)
    pure (.ended exit out.taken)

end FileRemoval
