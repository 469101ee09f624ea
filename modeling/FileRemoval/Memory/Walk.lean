import FileRemoval.Memory

/-! # Walking a store

The nodes of a store as a caller finds them: by listing the top directory, then every directory
that turns up. A directory whose path is too long to be listed is passed over. -/

namespace FileRemoval.Memory

def childPath (directory name : Text) : Text :=
  if directory = Path.top then Path.top ++ name else directory ++ '/' :: name

def entriesOf (m : Memory) (directory : Text) : List Entry :=
  match (list directory m).answer with
  | .error _ => []
  | .ok entries => entries

/-- What is found from `directory` down, at most `depth` levels deep. -/
def walkFrom (m : Memory) : Nat → Text → List (Text × Entry)
  | 0, _ => []
  | depth + 1, directory =>
    (m.entriesOf directory).flatMap fun entry =>
      let path := childPath directory entry.name
      (path, entry) ::
        match entry.kind with
        | .regular => []
        | .directory => walkFrom m depth path

/-- All that is found from the top down. A path grows with every level and one over the length
limit is not listed, so there are no more levels than bytes in the longest path. -/
def walk (m : Memory) : List (Text × Entry) :=
  m.walkFrom (Path.maxLength + 1) Path.top

def dump (m : Memory) : List (Text × Entry) :=
  m.walk.mergeSort fun a b => (compare a.1 b.1).isLE

end FileRemoval.Memory
