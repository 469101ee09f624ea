import FileRemoval.Handle
import FileRemoval.Host.Error
import FileRemoval.Text.Quoted

/-! # Events

What stores, remover and program report on the way. An event is data, so that what happened can be
read off the events themselves; `Event.line` is the log line that shows one. -/

namespace FileRemoval

inductive Level where
  | error
  | warn
  | info
  | debug
deriving DecidableEq, Repr

def Level.word : Level → Text
  | .error => "ERROR".toList
  | .warn => "WARN".toList
  | .info => "INFO".toList
  | .debug => "DEBUG".toList

/-- What can be reported. Paths of a store are texts, those of the host are byte strings. -/
inductive Event where
  | resolved (path canonical : Text)
  | opened (handle : Handle)
  | closed (handle : Handle) (path : Text)
  | closedAll (count : Nat) (path : Text)
  | located (path : Text) (host : Bytes)
  | hostClosed (handle : Handle) (host : Bytes)
  | hostClosedAll (count : Nat) (host : Bytes)
  | unmapped (refusal : HostError)
  | directoryUnknown (refusal : HostError)
  | removed (path : Text)
  | closeFailed (handle : Handle) (path : Text) (cause : FileError)
  | createFailed (path : Text) (cause : FileError)
  | reportLost
  | usageLost
  | misused (shown : Text)
  | commandLine (shown : Text)
deriving DecidableEq, Repr

namespace Event

/-- The steps of a store and what became of the arguments are for debugging, a removal is news, a
mishap that the run survives is a warning, and a text that reached nobody is an error. -/
def level : Event → Level
  | .resolved .. => .debug
  | .opened _ => .debug
  | .closed .. => .debug
  | .closedAll .. => .debug
  | .located .. => .debug
  | .hostClosed .. => .debug
  | .hostClosedAll .. => .debug
  | .unmapped _ => .warn
  | .directoryUnknown _ => .warn
  | .removed _ => .info
  | .closeFailed .. => .warn
  | .createFailed .. => .warn
  | .reportLost => .error
  | .usageLost => .error
  | .misused _ => .debug
  | .commandLine _ => .debug

/-- The wording of an event. Paths of a store are quoted, those of the host are not. -/
def message : Event → Text
  | .resolved path canonical =>
    "path=".toList ++ path.quoted ++ " resolved=".toList ++ canonical.quoted
  | .opened handle => "opened ".toList ++ handle.text
  | .closed handle path =>
    "closed ".toList ++ handle.text ++ " (".toList ++ path.quoted ++ ")".toList
  | .closedAll count path =>
    "closed ".toList ++ decimal count ++ " handle(s) still open on ".toList ++ path.quoted
  | .located path host =>
    "path=".toList ++ path.quoted ++ " host=".toList ++ Text.ofUtf8Marked host
  | .hostClosed handle host =>
    "closed ".toList ++ handle.text ++ " (".toList ++ Text.ofUtf8Marked host ++ ")".toList
  | .hostClosedAll count host =>
    "closed ".toList ++ decimal count ++ " handle(s) still open on ".toList ++
      Text.ofUtf8Marked host
  | .unmapped refusal => "unmapped host error: ".toList ++ refusal.description
  | .directoryUnknown refusal =>
    "failed to read cwd, resolving against `.`: ".toList ++ refusal.description
  | .removed path => "removed ".toList ++ path.quoted
  | .closeFailed handle path cause =>
    "failed to close ".toList ++ handle.text ++ " on ".toList ++ path.quoted ++ ": ".toList ++
      cause.message
  | .createFailed path cause =>
    "failed to create ".toList ++ path.quoted ++ ": ".toList ++ cause.message
  | .reportLost => "failed to report result: output full".toList
  | .usageLost => "failed to report usage: output full".toList
  | .misused shown => shown
  | .commandLine shown => shown

def line (e : Event) : Text :=
  e.level.word ++ ' ' :: e.message

end Event

end FileRemoval
