import FileRemoval.CommandLine
import FileRemoval.Report
import FileRemoval.Sink
import FileRemoval.Step

/-! # Notices

What the program writes when its command line asks for no run. -/

namespace FileRemoval

open Reporting (report)

namespace Stop

/-- Help and version are what was asked for; anything else is a failure. -/
def exit (s : Stop) : Exit :=
  match s.kind with
  | .help => .success
  | .version => .success
  | .misuse => .failure

/-- What was asked for is shown as it was rendered. A misuse only gets the usage line. -/
def text (s : Stop) : Text :=
  match s.kind with
  | .help => s.rendered
  | .version => s.rendered
  | .misuse => usageLine ++ ['\n']

end Stop

/-- Reads a command line. If it asks for no run, the notice is written and the exit is settled,
whether the notice fits or not. -/
def CommandLine.Derived.load {m : Type → Type} [Monad m] [Reporting m] (derived : Derived)
    (args : List Bytes) (out : Sink) : m (Except Exit CommandLine × Sink) := do
  match derived.parse args with
  | .ok line => pure (.ok line, out)
  | .error stop =>
    if stop.kind = .misuse then
      report (.misused stop.shown)
    let (written, complete) := out.write (Text.utf8 stop.text)
    if complete then
      pure (.error stop.exit, written)
    else
      report .usageLost
      pure (.error stop.exit, written)

end FileRemoval
