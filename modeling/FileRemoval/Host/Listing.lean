import FileRemoval.Host

/-! # Filling and listing a host

How a host comes to hold directories and files, and what it holds below a directory. -/

namespace FileRemoval.Host

def bare : Host :=
  ⟨∅, .at [], []⟩

def addDirectory (h : Host) (location : Location) : Host :=
  if (h.node? location).isSome then h
  else { h with nodes := h.nodes.insert location .directory }

def addDirectories (h : Host) (location : Location) : Host :=
  (List.range (location.length + 1)).foldl (fun h n => h.addDirectory (location.take n)) h

def addFile (h : Host) (location : Location) (content : Bytes) : Host :=
  let h := h.addDirectories location.dropLast
  { h with nodes := h.nodes.insert location (.file content) }

def below? (base : Location) (location : Location) : Option Location :=
  if base.isPrefixOf location && base.length < location.length then
    some (location.drop base.length)
  else none

/-- All that lies below a directory, by relative path in the order of the bytes. -/
def listing (h : Host) (base : Location) : List (Bytes × Option Nat) :=
  let found := h.nodes.entries.filterMap fun (location, node) =>
    (below? base location).map fun rest =>
      ([HostPath.slash].intercalate rest, node.size?)
  found.mergeSort fun a b => (compare a.1 b.1).isLE

end FileRemoval.Host
