import FileRemoval.CommandLine.Notice
import FileRemoval.Proofs.CommandLine.Reader

/-! # Command lines read back

How a command line can be spelled: paths in their order, the options anywhere between them, and,
after two dashes, more paths of any form. However it is spelled, a parser that follows the rules
reads it back as what it was made from. -/

namespace FileRemoval.CommandLine

/-! ### Spellings -/

/-- Paths in their order, and between them at most one request for the creation and at most one
directory, which is not empty. -/
inductive Mixes : List Text → Bool → Option Bytes → List Bytes → Prop where
  | nil : Mixes [] false none []
  | path {path : Text} {paths : List Text} {create : Bool} {root : Option Bytes}
      {args : List Bytes} : IsPlain path → Mixes paths create root args →
      Mixes (path :: paths) create root (path.utf8 :: args)
  | create {word : Bytes} {paths : List Text} {root : Option Bytes} {args : List Bytes} :
      SpellsCreate word → Mixes paths false root args → Mixes paths true root (word :: args)
  | root {root : Bytes} {words : List Bytes} {paths : List Text} {create : Bool}
      {args : List Bytes} : root ≠ [] → SpellsRoot root words → Mixes paths create none args →
      Mixes paths create (some root) (words ++ args)

/-- Two dashes with the paths after them, or nothing if there are none. -/
inductive Closes : List Text → List Bytes → Prop where
  | bare : Closes [] []
  | dashes (paths : List Text) : Closes paths (dashes :: paths.map Text.utf8)

section

variable {paths : List Text} {create : Bool} {root : Option Bytes} {args : List Bytes}

theorem Mixes.plain (mixes : Mixes paths create root args) : ∀ path ∈ paths, IsPlain path := by
  induction mixes with
  | nil => exact nofun
  | path plain _ ih => exact List.forall_mem_cons.mpr ⟨plain, ih⟩
  | create _ _ ih => exact ih
  | root _ _ _ ih => exact ih

theorem Mixes.unended (mixes : Mixes paths create root args) : dashes ∉ args := by
  induction mixes with
  | nil => exact List.not_mem_nil
  | path plain _ ih =>
    intro member
    rcases List.mem_cons.mp member with same | later
    · exact isPlain_ne_dashes plain same.symm
    · exact ih later
  | create spells _ ih =>
    intro member
    rcases List.mem_cons.mp member with same | later
    · exact dashes_notMem_option (.create spells) (List.mem_singleton.mpr same)
    · exact ih later
  | root nonempty spells _ ih =>
    intro member
    rcases List.mem_append.mp member with named | later
    · exact dashes_notMem_option (.root nonempty spells) named
    · exact ih later

end

/-! ### Options in front -/

section

variable {parse : List Bytes → Except Stop CommandLine} (rules : FollowsRules parse) (name : Bytes)
include rules

/-- What is read with all options in front of a path is read with the path in front of them. -/
theorem path_before_options {path : Text} (plain : IsPlain path) {rest : List Bytes}
    {line : CommandLine} {options : List (List Bytes)}
    (isOption : ∀ words ∈ options, SpellsOption words) {front : List Bytes}
    (unended : dashes ∉ front)
    (read : parse (name :: (front ++ (options.flatten ++ path.utf8 :: rest))) = .ok line) :
    parse (name :: (front ++ path.utf8 :: (options.flatten ++ rest))) = .ok line := by
  -- the path passes the last option first, behind the options before it
  induction options generalizing front with
  | nil => exact read
  | cons words more ih =>
    obtain ⟨first, later⟩ := List.forall_mem_cons.mp isOption
    rw [List.flatten_cons, List.append_assoc, ← List.append_assoc front] at read
    have passed := ih later (dashes_notMem_append_option unended first) read
    rw [List.append_assoc] at passed
    rw [List.flatten_cons, List.append_assoc]
    exact rules.mixes name unended first plain passed

/-- The options of a command line, taken out of it. In front of the paths they are read as they
should be, and then so is the command line. -/
theorem Mixes.exists_options {paths : List Text} {create : Bool} {root : Option Bytes}
    {args : List Bytes} (mixes : Mixes paths create root args) :
    ∃ options : List (List Bytes), (∀ words ∈ options, SpellsOption words) ∧
      (∀ others : List Text, (∀ path ∈ others, IsPlain path) →
        parse (name :: (options.flatten ++ others.map Text.utf8)) = .ok ⟨others, create, root⟩) ∧
      ∀ front line, dashes ∉ front →
        parse (name :: (front ++ (options.flatten ++ paths.map Text.utf8))) = .ok line →
        parse (name :: (front ++ args)) = .ok line := by
  induction mixes with
  | nil => exact ⟨[], nofun, fun others plain => rules.positionals name others plain,
      fun front line _ read => read⟩
  | @path path paths create root args plain _ ih =>
    obtain ⟨options, isOption, inFront, mixed⟩ := ih
    refine ⟨options, isOption, inFront, fun front line unended read => ?_⟩
    have first := path_before_options rules name plain isOption unended read
    rw [List.append_cons] at first ⊢
    exact mixed _ line (dashes_notMem_append_path unended plain) first
  | @create word paths root args spells _ ih =>
    obtain ⟨options, isOption, inFront, mixed⟩ := ih
    refine ⟨[word] :: options, List.forall_mem_cons.mpr ⟨.create spells, isOption⟩,
      fun others plain => rules.create name spells (inFront others plain) rfl,
      fun front line unended read => ?_⟩
    rw [List.flatten_cons, List.append_assoc, ← List.append_assoc front] at read
    rw [List.append_cons]
    exact mixed _ line (dashes_notMem_append_option unended (.create spells)) read
  | @root root words paths create args nonempty spells _ ih =>
    obtain ⟨options, isOption, inFront, mixed⟩ := ih
    have option : SpellsOption words := .root nonempty spells
    refine ⟨words :: options, List.forall_mem_cons.mpr ⟨option, isOption⟩,
      fun others plain => ?_, fun front line unended read => ?_⟩
    · have attached := rules.attached name nonempty (inFront others plain) rfl
      cases spells with
      | attached => exact attached
      | separate isRoot undashed => exact rules.separate name isRoot undashed attached
    · rw [List.flatten_cons, List.append_assoc, ← List.append_assoc front] at read
      rw [← List.append_assoc]
      exact mixed _ line (dashes_notMem_append_option unended option) read

end

/-- A parser that follows the rules reads a command line back as what it was made from, wherever its
options stand and whatever the paths after the two dashes look like. Nothing is written. -/
theorem load_spelling (derived : Derived) (rules : FollowsRules derived.parse)
    {paths later : List Text} {create : Bool} {root : Option Bytes} {front rest : List Bytes}
    (mixes : Mixes paths create root front) (closes : Closes later rest) (name : Bytes) :
    derived.parse (name :: (front ++ rest)) = .ok ⟨paths ++ later, create, root⟩ ∧
    ∀ (m : Type → Type) [Monad m] [Reporting m] (out : Sink),
      (derived.load (name :: (front ++ rest)) out : m _) =
        pure (.ok ⟨paths ++ later, create, root⟩, out) := by
  obtain ⟨options, -, inFront, mixed⟩ := mixes.exists_options rules name
  have opened : derived.parse (name :: front) = .ok ⟨paths, create, root⟩ :=
    mixed [] _ List.not_mem_nil (inFront paths mixes.plain)
  have parsed : derived.parse (name :: (front ++ rest)) = .ok ⟨paths ++ later, create, root⟩ := by
    cases closes with
    | bare =>
      rw [List.append_nil, List.append_nil]
      exact opened
    | dashes => exact rules.ending name mixes.unended opened later
  refine ⟨parsed, ?_⟩
  intro m _ _ out
  simp only [Derived.load, parsed]

/-- A directory that is no UTF-8 and starts like an option, paths that are empty or a dash, and
paths after the two dashes that look like options. -/
theorem load_spelling_of_oddities :
    let bytes (s : String) : Bytes := Text.utf8 s.toList
    let text (s : String) : Text := s.toList
    let root : Bytes := [0x2D, 0xFF]
    let front := [bytes "a b", bytes "--root=" ++ root, bytes "", bytes "--create", bytes "-"]
    let rest := [bytes "--", bytes "--root=x", bytes "-c", bytes "--"]
    FollowsRules reader.parse ∧ Mixes [text "a b", [], text "-"] true (some root) front ∧
    Closes [text "--root=x", text "-c", text "--"] rest ∧
    reader.parse (bytes "rm" :: (front ++ rest)) =
      .ok ⟨[text "a b", [], text "-", text "--root=x", text "-c", text "--"], true, some root⟩ := by
  intro bytes text root front rest
  have dashLast : Mixes [text "-"] false none [bytes "-"] := .path (.inr rfl) .nil
  have created : Mixes [text "-"] true none [bytes "--create", bytes "-"] :=
    .create (.inr rfl) dashLast
  have emptyFirst : Mixes [[], text "-"] true none [bytes "", bytes "--create", bytes "-"] :=
    .path (.inl (by decide)) created
  have rooted : Mixes [[], text "-"] true (some root)
      [bytes "--root=" ++ root, bytes "", bytes "--create", bytes "-"] :=
    .root (by decide) .attached emptyFirst
  have mixes : Mixes [text "a b", [], text "-"] true (some root) front :=
    .path (.inl (by decide)) rooted
  have closes : Closes [text "--root=x", text "-c", text "--"] rest := .dashes _
  exact ⟨followsRules_reader, mixes, closes,
    (load_spelling reader followsRules_reader mixes closes (bytes "rm")).1⟩

end FileRemoval.CommandLine
