import FileRemoval.FileSystem

/-! # Traced file systems

A file system that works as another does and keeps the calls that it gets, so that what a user of
files asks for can be looked at apart from what comes of it. -/

namespace FileRemoval

inductive Call where
  | create (path : Text)
  | close (handle : Handle)
  | remove (path : Text)
  | holds (path : Text)
deriving DecidableEq, Repr

def Call.line : Call → Text
  | .create path => "create ".toList ++ path
  | .close handle => "close ".toList ++ handle.text
  | .remove path => "remove ".toList ++ path
  | .holds path => "holds ".toList ++ path

variable {σ α : Type}

/-- A step that leaves `call` behind the calls before it. -/
def Step.noting (call : Call) (x : Step σ α) : Step (σ × List Call) α := fun s =>
  let o := x s.1
  ⟨o.answer, (o.state, s.2 ++ [call]), o.events⟩

def FileSystem.traced (files : FileSystem (Step σ)) : FileSystem (Step (σ × List Call)) where
  create path := .noting (.create path) (files.create path)
  close handle := .noting (.close handle) (files.close handle)
  remove path := .noting (.remove path) (files.remove path)
  holds path := .noting (.holds path) (files.holds path)

end FileRemoval
