import FileRemoval.Text

/-! # Command lines

What a command line asks for, and what arguments come to that make none. How arguments are read is
derived from the fields of a command line alone, by rules that are not this program's, so whatever
reads them is given to the program. -/

namespace FileRemoval

/-- What a command line asks for: the paths, whether to create the file first, and the directory
that relative paths start at. -/
structure CommandLine where
  paths : List Text
  create : Bool
  root : Option Bytes
deriving DecidableEq, Repr

inductive Stop.Kind where
  | help
  | version
  | misuse
deriving DecidableEq, Repr

/-- Why there is no command line: help or the version were asked for, or the arguments are wrong.
With it come the text that was asked for and the text for a log. -/
structure Stop where
  kind : Stop.Kind
  rendered : Text
  shown : Text
deriving DecidableEq, Repr

/-- What is derived from the fields: the parser of arguments, with the name of the program in front,
and the text that shows a command line in a log. -/
structure CommandLine.Derived where
  parse : List Bytes → Except Stop CommandLine
  shown : CommandLine → Text

end FileRemoval
