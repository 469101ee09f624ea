import FileRemoval.FileSystem
import FileRemoval.Report
import FileRemoval.Sink

/-! # The remover

Removes the one file it is asked to remove, through whatever file system it is given, and writes
one report. It can be told to create the file first, so that a run needs nothing that was there
before. A creation that fails does not stop the run: if there is no file, the removal says so. -/

namespace FileRemoval

open Reporting (report)

/-- A file system to work on, and whether to create a file before its removal. -/
structure Remover (m : Type → Type) where
  files : FileSystem m
  createFirst : Bool

namespace Remover

variable {m : Type → Type} [Monad m] [Reporting m]

/-- Creates the file at `path` and gives its handle back at once. Failures are only reported. -/
def prepare (r : Remover m) (path : Text) : m Unit := do
  match ← r.files.create path with
  | .error cause => report (.createFailed path cause)
  | .ok handle =>
    match ← r.files.close handle with
    | .error cause => report (.closeFailed handle path cause)
    | .ok () => pure ()

def removeAt (r : Remover m) (path : Text) : m Report := do
  if r.createFirst then
    r.prepare path
  match ← r.files.remove path with
  | .error cause => pure (.failed path cause)
  | .ok () =>
    report (.removed path)
    pure (.removed path)

/-- The removal asked for by `paths`. Unless that is exactly one path, no file is touched. -/
def attempt (r : Remover m) : List Text → m Report
  | [path] => r.removeAt path
  | _ => pure .usage

/-- Writes the text of a report. If it does not fit, that too is reported. -/
def deliver (out : Sink) (outcome : Report) : m Sink := do
  let (written, complete) := out.write outcome.text.utf8
  if complete then
    pure written
  else
    report .reportLost
    pure written

/-- One run: the removal and its report. The exit does not depend on whether the report fits. -/
def run (r : Remover m) (paths : List Text) (out : Sink) : m (Exit × Sink) := do
  let outcome ← r.attempt paths
  let written ← deliver out outcome
  pure (outcome.exit, written)

end Remover

end FileRemoval
