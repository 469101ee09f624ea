import FileRemoval.Program

/-! # The command line program

Runs the remover on the files of the machine that it is started on. Errors are told on standard
error, other events are not shown. -/

namespace FileRemoval.Shell

def pathText (path : Bytes) : Except HostError String :=
  match Text.ofUtf8? path with
  | some t => .ok (String.ofList t)
  | none => .error (.other "path is not a text".toList)

def refusalOf (e : IO.Error) : HostError :=
  match e with
  | .noFileOrDirectory .. => .noEntry
  | .alreadyExists .. => .alreadyExists
  | .permissionDenied _ code _ => if code = 1 then .notPermitted else .accessDenied
  | .inappropriateType _ code _ => if code = 20 then .notADirectory else .isADirectory
  | other => .other (toString other).toList

def ask (path : Bytes) (call : String → IO Unit) : IO (Except HostError Unit) := do
  match pathText path with
  | .error refusal => pure (.error refusal)
  | .ok name =>
    try
      call name
      pure (.ok ())
    catch e =>
      pure (.error (refusalOf e))

/-- A directory is refused here, since the call that removes a file may take an empty one too. -/
def unlink (name : String) : IO Unit := do
  if ← (System.mkFilePath [name]).isDir then
    throw (.inappropriateType (some name) 21 "is a directory")
  IO.FS.removeFile name

def openEmpty (name : String) : IO Unit := do
  let _ ← IO.FS.Handle.mk name .write

def workingPath : IO (Except HostError Bytes) := do
  try
    pure (.ok (Text.utf8 (← IO.currentDir).toString.toList))
  catch e =>
    pure (.error (refusalOf e))

instance : Reporting IO where
  report e := do
    if e.level = .error then
      IO.eprintln (String.ofList e.line)

def reportAll (events : List Event) : IO Unit :=
  events.forM Reporting.report

def settle {α : Type} (store : IO.Ref HostStore) (o : Outcome HostStore α) : IO α := do
  store.set o.state
  reportAll o.events
  pure o.answer

def fileSystem (store : IO.Ref HostStore) : FileSystem IO where
  create path := do
    let (target, events) := (← store.get).hostPathToOpen path
    reportAll events
    match target with
    | .error cause => pure (.error cause)
    | .ok host => settle store ((← store.get).opened host (← ask host openEmpty))
  close handle := do settle store (HostStore.close handle (← store.get))
  remove path := do
    let (target, events) := (← store.get).hostPath path
    reportAll events
    match target with
    | .error cause => pure (.error cause)
    | .ok host => settle store ((← store.get).unlinked host (← ask host unlink))
  holds path := do
    let (target, events) := (← store.get).hostPath path
    reportAll events
    match target.toOption.map pathText with
    | some (.ok name) => (System.mkFilePath [name]).pathExists
    | _ => pure false

def flushOutput (out : Sink) (lost : Event) : IO Unit := do
  try
    let stdout ← IO.getStdout
    stdout.write out.taken.toByteArray
    stdout.flush
  catch _ =>
    Reporting.report lost

def run (args : List Bytes) : IO Exit := do
  let derived := CommandLine.reader
  let (result, notice) ← derived.load args (.ofLimit none)
  match result with
  | .error exit =>
    flushOutput notice .usageLost
    pure exit
  | .ok line =>
    Reporting.report (.commandLine (derived.shown line))
    let (opened, events) := Program.openStore line (← workingPath)
    reportAll events
    let store ← IO.mkRef opened
    let (exit, out) ← Remover.run ⟨fileSystem store, line.create⟩ line.paths notice
    flushOutput out .reportLost
    pure exit

end FileRemoval.Shell

open FileRemoval in
def main (args : List String) : IO UInt32 := do
  let name := (← IO.appPath).toString
  let exit ← Shell.run ((name :: args).map fun arg => Text.utf8 arg.toList)
  pure exit.code.toUInt32
