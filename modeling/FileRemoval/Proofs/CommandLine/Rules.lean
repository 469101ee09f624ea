import FileRemoval.CommandLine
import FileRemoval.Proofs.Text.Ascii

/-! # Rules of command lines

How options and paths are spelled, and what is taken of a parser that reads them. The rules are the
documented ones. Each speaks of one word, or of two neighbours, in a command line that is read; none
says what becomes of a whole one. -/

namespace FileRemoval.CommandLine

/-! ### Words -/

/-- A path that is none of the forms of an option. A single dash is a path. -/
def IsPlain (path : Text) : Prop :=
  path.head? ≠ some '-' ∨ path = ['-']

def IsDashed (word : Bytes) : Prop :=
  word.head? = some '-'.toUInt8

def dashes : Bytes := Text.utf8 "--".toList

/-- The words that ask for the creation of the file. -/
def SpellsCreate (word : Bytes) : Prop :=
  word = Text.utf8 "-c".toList ∨ word = Text.utf8 "--create".toList

def attachedRoot (root : Bytes) : Bytes :=
  Text.utf8 "--root=".toList ++ root

def SpellsRootOption (word : Bytes) : Prop :=
  word = Text.utf8 "-C".toList ∨ word = Text.utf8 "--root".toList

/-- The words that name the directory: one with an equals sign in front of the value, or two if
the value does not look like an option. -/
inductive SpellsRoot (root : Bytes) : List Bytes → Prop where
  | attached : SpellsRoot root [attachedRoot root]
  | separate {word : Bytes} : SpellsRootOption word → ¬ IsDashed root →
      SpellsRoot root [word, root]

/-- All words of one option. -/
inductive SpellsOption : List Bytes → Prop where
  | create {word : Bytes} : SpellsCreate word → SpellsOption [word]
  | root {root : Bytes} {words : List Bytes} : root ≠ [] → SpellsRoot root words →
      SpellsOption words

/-! ### Parsers -/

/-- What is taken of a parser, for any name that the program was started under. -/
structure FollowsRules (parse : List Bytes → Except Stop CommandLine) : Prop where
  /-- Words that are no options are paths, a single dash and the empty word among them. -/
  positionals (name : Bytes) (paths : List Text) (plain : ∀ path ∈ paths, IsPlain path) :
    parse (name :: paths.map Text.utf8) = .ok ⟨paths, false, none⟩
  /-- Options and paths mix freely: a path may as well stand in front of the option before it. -/
  mixes (name : Bytes) {front words rest : List Bytes} {path : Text} {line : CommandLine}
    (unended : dashes ∉ front) (option : SpellsOption words) (plain : IsPlain path)
    (read : parse (name :: (front ++ (words ++ path.utf8 :: rest))) = .ok line) :
    parse (name :: (front ++ path.utf8 :: (words ++ rest))) = .ok line
  /-- Two dashes end the options: what follows are paths, whatever they look like. -/
  ending (name : Bytes) {front : List Bytes} {line : CommandLine} (unended : dashes ∉ front)
    (read : parse (name :: front) = .ok line) (later : List Text) :
    parse (name :: (front ++ dashes :: later.map Text.utf8)) =
      .ok { line with paths := line.paths ++ later }
  /-- The creation may be asked for once. -/
  create (name : Bytes) {word : Bytes} {rest : List Bytes} {line : CommandLine}
    (spells : SpellsCreate word) (read : parse (name :: rest) = .ok line)
    (unasked : line.create = false) :
    parse (name :: word :: rest) = .ok { line with create := true }
  /-- The directory may be named once. An attached value is taken as it is. -/
  attached (name : Bytes) {root : Bytes} {rest : List Bytes} {line : CommandLine}
    (nonempty : root ≠ []) (read : parse (name :: rest) = .ok line) (unnamed : line.root = none) :
    parse (name :: attachedRoot root :: rest) = .ok { line with root := some root }
  /-- A value that does not look like an option may be a word of its own. -/
  separate (name : Bytes) {word root : Bytes} {rest : List Bytes} {line : CommandLine}
    (option : SpellsRootOption word) (undashed : ¬ IsDashed root)
    (read : parse (name :: attachedRoot root :: rest) = .ok line) :
    parse (name :: word :: root :: rest) = .ok line

/-! ### Two dashes -/

theorem isPlain_ne_dashes {path : Text} (plain : IsPlain path) : path.utf8 ≠ dashes := by
  intro same
  have isDashes : path = "--".toList := Text.utf8_injective same
  rw [isDashes] at plain
  rcases plain with undashed | single
  · exact undashed rfl
  · cases single

theorem dashes_notMem_option {words : List Bytes} (option : SpellsOption words) :
    dashes ∉ words := by
  intro member
  cases option with
  | create spells =>
    rw [List.mem_singleton] at member
    rcases spells with letter | long
    · exact absurd (member.trans letter) (by decide)
    · exact absurd (member.trans long) (by decide)
  | root nonempty spells =>
    cases spells with
    | attached =>
      have lengths := congrArg List.length (List.mem_singleton.mp member)
      rw [attachedRoot, List.length_append] at lengths
      have short : dashes.length = 2 := by decide
      have long : (Text.utf8 "--root=".toList).length = 7 := by decide
      omega
    | separate isOption undashed =>
      rcases List.mem_cons.mp member with same | value
      · rcases isOption with letter | long
        · exact absurd (same.trans letter) (by decide)
        · exact absurd (same.trans long) (by decide)
      · rw [List.mem_singleton] at value
        exact undashed (value ▸ rfl)

section

variable {front : List Bytes} (unended : dashes ∉ front)
include unended

theorem dashes_notMem_append_path {path : Text} (plain : IsPlain path) :
    dashes ∉ front ++ [path.utf8] := by
  intro member
  rcases List.mem_append.mp member with earlier | last
  · exact unended earlier
  · exact isPlain_ne_dashes plain (List.mem_singleton.mp last).symm

theorem dashes_notMem_append_option {words : List Bytes} (option : SpellsOption words) :
    dashes ∉ front ++ words := by
  intro member
  rcases List.mem_append.mp member with earlier | last
  · exact unended earlier
  · exact dashes_notMem_option option last

end

end FileRemoval.CommandLine
