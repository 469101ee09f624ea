import FileRemoval.FileSystem.Request
import FileRemoval.Host
import FileRemoval.Path.Resolve
import FileRemoval.SlotTable

/-! # A file store on the host

The store keeps the directory that relative paths start at and the table of its open files, by
host path. It resolves a path by its text first, so that different spellings of a path come to one
host path and a relative path cannot leave the directory, and only then asks the host.

Around each file call stand two pure parts: what is settled before the host is asked, and what
follows from the answer. -/

namespace FileRemoval

/-- Where relative paths start, and the host paths of the open files. -/
structure HostStore where
  root : Bytes
  handles : SlotTable Bytes
deriving DecidableEq, Repr

namespace HostStore

variable {α : Type}

def anchoredAt (root : Bytes) : HostStore :=
  ⟨root, ∅⟩

/-- A store whose relative paths start at the working directory. If that has no path, host paths
are left relative. -/
def anchoredIn (directory : Except HostError Bytes) : HostStore × List Event :=
  match directory with
  | .ok path => (anchoredAt path, [])
  | .error refusal => (anchoredAt [], [.directoryUnknown refusal])

/-! ### Before the host is asked -/

/-- The host path that stands for `path`. A relative path goes on from the root by its canonical
names; an absolute one is its canonical path. -/
def hostPath (s : HostStore) (path : Text) : Except FileError Bytes × List Event :=
  match Path.resolveNoted Path.top path with
  | (.error cause, events) => (.error cause, events)
  | (.ok canonical, events) =>
    let host :=
      if Path.isAbsolute path then canonical.utf8
      else HostPath.join s.root (Text.utf8 (canonical.dropWhile (· = '/')))
    (.ok host, events ++ [.located path host])

/-- The host path of a file that may be opened: the table of open files must not be full. -/
def hostPathToOpen (s : HostStore) (path : Text) : Except FileError Bytes × List Event :=
  match s.hostPath path with
  | (.error cause, events) => (.error cause, events)
  | (.ok host, events) =>
    if maxOpenFiles ≤ s.handles.occupied then (.error .tooManyOpenFiles, events)
    else (.ok host, events)

/-! ### After the host has answered -/

/-- The cause for a refusal of the host. One without a cause of its own is reported. -/
def refused (s : HostStore) (refusal : HostError) : Outcome HostStore (Except FileError α) :=
  match refusal.cause? with
  | some cause => ⟨.error cause, s, []⟩
  | none => ⟨.error .io, s, [.unmapped refusal]⟩

def opened (s : HostStore) (host : Bytes) :
    Except HostError Unit → Outcome HostStore (Except FileError Handle)
  | .error refusal => s.refused refusal
  | .ok () =>
    let (handles, index) := s.handles.insert host
    ⟨.ok ⟨index⟩, { s with handles }, [.opened ⟨index⟩]⟩

def unlinked (s : HostStore) (host : Bytes) :
    Except HostError Unit → Outcome HostStore (Except FileError Unit)
  | .error refusal => s.refused refusal
  | .ok () =>
    let (handles, closed) := s.handles.retain fun other => !HostPath.same other host
    ⟨.ok (), { s with handles }, if 0 < closed then [.hostClosedAll closed host] else []⟩

def close (handle : Handle) : Step HostStore (Except FileError Unit) := fun s =>
  match s.handles.get? handle.index with
  | none => ⟨.error .badHandle, s, []⟩
  | some host =>
    ⟨.ok (), { s with handles := s.handles.erase handle.index }, [.hostClosed handle host]⟩

end HostStore

/-! ### The store together with its host -/

structure HostSession where
  store : HostStore
  host : Host
deriving DecidableEq

namespace HostSession

/-- What a step of the store leaves, seen with the host it leaves and after `events`. -/
def after {α : Type} (host : Host) (events : List Event) (o : Outcome HostStore α) :
    Outcome HostSession α :=
  ⟨o.answer, ⟨o.state, host⟩, events ++ o.events⟩

def create (path : Text) : Step HostSession (Except FileError Handle) := fun s =>
  match s.store.hostPathToOpen path with
  | (.error cause, events) => ⟨.error cause, s, events⟩
  | (.ok target, events) =>
    let (reply, host) := s.host.openEmpty target
    after host events (s.store.opened target reply)

def close (handle : Handle) : Step HostSession (Except FileError Unit) := fun s =>
  after s.host [] (HostStore.close handle s.store)

def remove (path : Text) : Step HostSession (Except FileError Unit) := fun s =>
  match s.store.hostPath path with
  | (.error cause, events) => ⟨.error cause, s, events⟩
  | (.ok target, events) =>
    let (reply, host) := s.host.unlink target
    after host events (s.store.unlinked target reply)

def holds (path : Text) : Step HostSession Bool := fun s =>
  match s.store.hostPath path with
  | (.error _, events) => ⟨false, s, events⟩
  | (.ok target, events) => ⟨s.host.holds target, s, events⟩

def fileSystem : FileSystem (Step HostSession) where
  create := create
  close := close
  remove := remove
  holds := holds

end HostSession

end FileRemoval
