import FileRemoval.FileSystem.Request
import FileRemoval.Memory

/-! # Requests to a store in memory -/

namespace FileRemoval.Memory

/-- What can be asked of a store: all that any file system does, and what only this one does. -/
inductive Request where
  | files (request : FileRemoval.Request)
  | makeDirectory (path : Text)
  | write (handle : Handle) (data : Bytes)
  | list (path : Text)
deriving DecidableEq, Repr

inductive Answer where
  | files (answer : FileRemoval.Answer)
  | made (result : Except FileError Unit)
  | wrote (result : Except FileError Nat)
  | listed (result : Except FileError (List Entry))

def perform : Request → Step Memory Answer
  | .files request => do pure (.files (← fileSystem.perform request))
  | .makeDirectory path => do pure (.made (← makeDirectory path))
  | .write handle data => do pure (.wrote (← write handle data))
  | .list path => do pure (.listed (← list path))

end FileRemoval.Memory
