import FileRemoval.CommandLine.Reader
import FileRemoval.Host.Store

/-! # The program

One command line from its arguments to its exit, as a step of the host. -/

namespace FileRemoval.Program

open Reporting (report)

def openStore (line : CommandLine) (directory : Except HostError Bytes) :
    HostStore × List Event :=
  match line.root with
  | some root => (.anchoredAt root, [])
  | none => HostStore.anchoredIn directory

def remove (line : CommandLine) (out : Sink) : Step Host (Exit × Sink) := fun host =>
  let (store, opening) := openStore line host.workingPath
  let last := Remover.run ⟨HostSession.fileSystem, line.create⟩ line.paths out ⟨store, host⟩
  ⟨last.answer, last.state.host, opening ++ last.events⟩

/-- The whole program: its arguments, with its name in front, to its exit and its output. -/
def runWith (derived : CommandLine.Derived) (args : List Bytes) (out : Sink) :
    Step Host (Exit × Sink) := do
  match ← derived.load args out with
  | (.error exit, written) => pure (exit, written)
  | (.ok line, written) =>
    report (.commandLine (derived.shown line))
    remove line written

/-- The program as it is built here. -/
def run : List Bytes → Sink → Step Host (Exit × Sink) :=
  runWith CommandLine.reader

end FileRemoval.Program
