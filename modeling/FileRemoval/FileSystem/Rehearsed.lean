import FileRemoval.FileSystem

/-! # Rehearsed file systems

A file system without files, which answers every call as its script says. -/

namespace FileRemoval

/-- The failure of each kind of call, if it is to fail, and the handle of a creation. -/
structure Script where
  create : Option FileError
  close : Option FileError
  remove : Option FileError
  handle : Handle

namespace Script

def answer {α : Type} (failure : Option FileError) (a : α) : Except FileError α :=
  match failure with
  | some cause => .error cause
  | none => .ok a

def fileSystem (s : Script) : FileSystem (Step Unit) where
  create _ := pure (answer s.create s.handle)
  close _ := pure (answer s.close ())
  remove _ := pure (answer s.remove ())
  holds _ := pure false

end Script

end FileRemoval
