import FileRemoval.CommandLine.Notice
import FileRemoval.Host.Path
import FileRemoval.Text.ControlSequence
import FileRemoval.Text.Quoted

/-! # A reader of command lines

One parser, for running the program. Arguments are byte strings. They are read from the left, one
after the other: options and paths mix freely, two dashes end the options, and the first argument
that is wrong, or that asks for help or for the version, decides. -/

namespace FileRemoval

namespace CommandLine

def empty : CommandLine :=
  ⟨[], false, none⟩

/-! ### One item more -/

def addPath (c : CommandLine) (arg : Bytes) : Except Stop.Kind CommandLine :=
  match Text.ofUtf8? arg with
  | none => .error .misuse
  | some path => .ok { c with paths := c.paths ++ [path] }

/-- Asks for the creation of the file, which may be done once. -/
def addCreate (c : CommandLine) : Except Stop.Kind CommandLine :=
  if c.create then .error .misuse else .ok { c with create := true }

/-- Names the directory, which may be done once and not by nothing. -/
def addRoot (c : CommandLine) (value : Bytes) : Except Stop.Kind CommandLine :=
  if c.root.isSome ∨ value = [] then .error .misuse else .ok { c with root := some value }

/-! ### Kinds of arguments -/

def dash : UInt8 := '-'.toUInt8

def equals : UInt8 := '='.toUInt8

/-- An argument by its form: two dashes alone; a long option, with what follows its first equals
sign; letters after one dash; anything else, a single dash among them. -/
inductive Argument where
  | ending
  | long (name : Bytes) (value : Option Bytes)
  | letters (letters : Bytes)
  | plain
deriving DecidableEq, Repr

def longOption (rest : Bytes) : Argument :=
  match rest.dropWhile (· ≠ equals) with
  | [] => .long rest none
  | _ :: value => .long (rest.takeWhile (· ≠ equals)) (some value)

def Argument.ofBytes : Bytes → Argument
  | first :: second :: rest =>
    if first = dash then
      if second = dash then
        if rest = [] then .ending else longOption rest
      else .letters (second :: rest)
    else .plain
  | _ => .plain

/-! ### Reading -/

/-- How the next argument is read: by its form, as the value of the option for the directory, or as
a path whatever its form. -/
inductive Expecting where
  | anything
  | rootValue
  | path
deriving DecidableEq, Repr

structure Reader where
  line : CommandLine
  expecting : Expecting
deriving DecidableEq, Repr

def attached : Bytes → Bytes
  | [] => []
  | b :: rest => if b = equals then rest else b :: rest

/-- Reads the letters after one dash. The letter for the directory takes the rest of them as its
value, and the next argument if there are none. -/
def readLetters (c : CommandLine) : Bytes → Except Stop.Kind Reader
  | [] => .ok ⟨c, .anything⟩
  | letter :: rest =>
    if letter = 'c'.toUInt8 then do readLetters (← c.addCreate) rest
    else if letter = 'C'.toUInt8 then
      if rest = [] then .ok ⟨c, .rootValue⟩
      else do pure ⟨← c.addRoot (attached rest), .anything⟩
    else if letter = 'h'.toUInt8 then .error .help
    else if letter = 'V'.toUInt8 then .error .version
    else .error .misuse

def createOption : Bytes := Text.utf8 "create".toList
def rootOption : Bytes := Text.utf8 "root".toList
def helpOption : Bytes := Text.utf8 "help".toList
def versionOption : Bytes := Text.utf8 "version".toList

/-- Reads a long option. Names are not abbreviated, and only the directory takes a value. -/
def readLong (c : CommandLine) (name : Bytes) : Option Bytes → Except Stop.Kind Reader
  | none =>
    if name = createOption then do pure ⟨← c.addCreate, .anything⟩
    else if name = rootOption then .ok ⟨c, .rootValue⟩
    else if name = helpOption then .error .help
    else if name = versionOption then .error .version
    else .error .misuse
  | some value =>
    if name = rootOption then do pure ⟨← c.addRoot value, .anything⟩
    else .error .misuse

/-- Reads one argument. One that looks like an option is not taken for the value of another. -/
def Reader.read (r : Reader) (arg : Bytes) : Except Stop.Kind Reader :=
  match r.expecting with
  | .path => do pure ⟨← r.line.addPath arg, .path⟩
  | .rootValue =>
    match Argument.ofBytes arg with
    | .plain => do pure ⟨← r.line.addRoot arg, .anything⟩
    | _ => .error .misuse
  | .anything =>
    match Argument.ofBytes arg with
    | .plain => do pure ⟨← r.line.addPath arg, .anything⟩
    | .ending => .ok ⟨r.line, .path⟩
    | .letters letters => readLetters r.line letters
    | .long name value => readLong r.line name value

/-- The command line once all arguments are read. A value must not be missing. -/
def Reader.finish (r : Reader) : Except Stop.Kind CommandLine :=
  match r.expecting with
  | .rootValue => .error .misuse
  | _ => .ok r.line

def ofArguments (args : List Bytes) : Except Stop.Kind CommandLine := do
  let last ← args.foldlM Reader.read ⟨empty, .anything⟩
  last.finish

/-! ### Texts -/

def defaultName : Text :=
  "rm".toList

/-- The name that the program was started under: the last name of the path in front of its
arguments, if that is UTF-8. -/
def programName (args : List Bytes) : Text :=
  match args with
  | [] => defaultName
  | path :: _ =>
    match (HostPath.fileName path).bind Text.ofUtf8? with
    | none => defaultName
    | some name => name

/-- The help shows the program's name without control sequences. -/
def helpText (name : Text) : Text :=
  "Remove a single file\n\nUsage: ".toList ++ name.withoutControls ++
  " [OPTIONS] [PATHS]...\n\nArguments:\n".toList ++
  "  [PATHS]...  File to remove; exactly one is expected\n\nOptions:\n".toList ++
  "  -c, --create       Create the file before removing it\n".toList ++
  "  -C, --root <ROOT>  Directory that relative paths are resolved against ".toList ++
  "[default: cwd]\n".toList ++
  "  -h, --help         Print help\n".toList ++
  "  -V, --version      Print version\n".toList

/-- A misuse is told by its kind alone. -/
def stopOf (name : Text) (kind : Stop.Kind) : Stop :=
  let rendered : Text :=
    match kind with
    | .help => helpText name
    | .version => "rm 0.1.0\n".toList
    | .misuse => "error: invalid arguments\n".toList
  ⟨kind, rendered, rendered⟩

def shownRoot : Option Bytes → Text
  | none => "None".toList
  | some root => "Some(".toList ++ (Text.ofUtf8Marked root).quoted ++ ")".toList

def shownLine (c : CommandLine) : Text :=
  "Cli \x7b paths: [".toList ++ ", ".toList.intercalate (c.paths.map Text.quoted) ++
  "], create: ".toList ++ (toString c.create).toList ++ ", root: ".toList ++ shownRoot c.root ++
  " \x7d".toList

def reader : Derived where
  parse args := (ofArguments args.tail).mapError (stopOf (programName args))
  shown := shownLine

/-- Command lines as this reader reads them. -/
def load {m : Type → Type} [Monad m] [Reporting m] (args : List Bytes) (out : Sink) :
    m (Except Exit CommandLine × Sink) :=
  reader.load args out

end CommandLine

end FileRemoval
