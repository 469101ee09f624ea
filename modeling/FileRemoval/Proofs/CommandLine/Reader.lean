import FileRemoval.CommandLine.Reader
import FileRemoval.Proofs.CommandLine.Rules

/-! # The reader follows the rules

An option that is read can be read later as well, or earlier: what was read before it does not
matter, unless it was asked for already. -/

namespace FileRemoval.CommandLine

/-! ### The form of an argument -/

theorem head?_utf8 {path : Text} (h : path.head? ≠ some '-') : ¬ IsDashed path.utf8 := by
  cases path with
  | nil => exact fun same => nomatch same
  | cons c rest =>
    intro same
    rw [IsDashed, Text.utf8_cons] at same
    cases encoded : String.utf8EncodeChar c with
    | nil =>
      have size := String.length_utf8EncodeChar c
      have positive := Char.utf8Size_pos c
      rw [encoded, List.length_nil] at size
      omega
    | cons lead more =>
      rw [encoded] at same
      have isLead : lead = '-'.toUInt8 := Option.some.inj same
      have member : '-'.toUInt8 ∈ String.utf8EncodeChar c := by
        rw [encoded, isLead]
        exact List.mem_cons_self
      have isDash : c = '-' := Text.eq_of_mem_utf8EncodeChar (by decide) member
      rw [isDash] at h
      exact h rfl

theorem ofBytes_of_undashed {arg : Bytes} (h : ¬ IsDashed arg) : Argument.ofBytes arg = .plain := by
  cases arg with
  | nil => rfl
  | cons first rest =>
    cases rest with
    | nil => rfl
    | cons second rest =>
      have other : first ≠ dash := by
        intro same
        exact h (congrArg some same)
      simp only [Argument.ofBytes, if_neg other]

theorem ofBytes_utf8 {path : Text} (plain : IsPlain path) :
    Argument.ofBytes path.utf8 = .plain := by
  rcases plain with noDash | single
  · exact ofBytes_of_undashed (head?_utf8 noDash)
  · rw [single]
    rfl

theorem ofBytes_attachedRoot (root : Bytes) :
    Argument.ofBytes (attachedRoot root) = .long rootOption (some root) := by
  rfl

theorem ofBytes_ne_ending {arg : Bytes} (h : arg ≠ dashes) : Argument.ofBytes arg ≠ .ending := by
  intro ending
  unfold Argument.ofBytes at ending
  split at ending
  · split at ending
    · split at ending
      · split at ending
        · rename_i first second rest isDash isSecond isLast
          rw [isDash, isSecond, isLast] at h
          exact h rfl
        · rw [longOption] at ending
          split at ending <;> cases ending
      · cases ending
    · cases ending
  · cases ending

/-! ### Sequences -/

theorem bind_eq_ok {ε α β : Type} {x : Except ε α} {f : α → Except ε β} {b : β} :
    (x >>= f) = .ok b ↔ ∃ a, x = .ok a ∧ f a = .ok b := by
  cases x with
  | error cause =>
    constructor
    · intro h
      cases h
    · rintro ⟨a, h, -⟩
      cases h
  | ok a =>
    constructor
    · intro h
      exact ⟨a, rfl, h⟩
    · rintro ⟨other, h, done⟩
      cases h
      exact done

theorem mapError_eq_ok {ε ε' α : Type} {x : Except ε α} {f : ε → ε'} {a : α} :
    x.mapError f = .ok a ↔ x = .ok a := by
  cases x with
  | error cause => exact ⟨nofun, nofun⟩
  | ok b =>
    constructor
    · rintro ⟨⟩
      rfl
    · rintro ⟨⟩
      rfl

theorem finish_eq_ok {r : Reader} {line : CommandLine} :
    r.finish = .ok line ↔ r.line = line ∧ r.expecting ≠ .rootValue := by
  obtain ⟨read, expecting⟩ := r
  cases expecting <;> simp [Reader.finish]

theorem parse_reader_eq_ok {name : Bytes} {args : List Bytes} {line : CommandLine} :
    reader.parse (name :: args) = .ok line ↔
      ∃ expecting, args.foldlM Reader.read ⟨empty, .anything⟩ = .ok ⟨line, expecting⟩ ∧
        expecting ≠ .rootValue := by
  show ((args.foldlM Reader.read ⟨empty, .anything⟩ >>= Reader.finish).mapError
    (stopOf (programName (name :: args)))) = .ok line ↔ _
  rw [mapError_eq_ok, bind_eq_ok]
  constructor
  · rintro ⟨⟨read, expecting⟩, whole, finished⟩
    obtain ⟨rfl, settled⟩ := finish_eq_ok.mp finished
    exact ⟨expecting, whole, settled⟩
  · rintro ⟨expecting, whole, settled⟩
    exact ⟨_, whole, finish_eq_ok.mpr ⟨rfl, settled⟩⟩

/-! ### Paths -/

section

variable (line : CommandLine)

theorem read_plain {path : Text} (plain : IsPlain path) :
    Reader.read ⟨line, .anything⟩ path.utf8 =
      .ok ⟨{ line with paths := line.paths ++ [path] }, .anything⟩ := by
  simp only [Reader.read, ofBytes_utf8 plain, addPath, Text.ofUtf8?_utf8]
  rfl

theorem read_path (path : Text) :
    Reader.read ⟨line, .path⟩ path.utf8 =
      .ok ⟨{ line with paths := line.paths ++ [path] }, .path⟩ := by
  simp only [Reader.read, addPath, Text.ofUtf8?_utf8]
  rfl

end

/-- Paths are taken one after the other where each of them is taken. -/
theorem foldlM_read_paths {expecting : Expecting} {paths : List Text}
    (taken : ∀ path ∈ paths, ∀ line : CommandLine, Reader.read ⟨line, expecting⟩ path.utf8 =
      .ok ⟨{ line with paths := line.paths ++ [path] }, expecting⟩) (line : CommandLine) :
    (paths.map Text.utf8).foldlM Reader.read ⟨line, expecting⟩ =
      .ok ⟨{ line with paths := line.paths ++ paths }, expecting⟩ := by
  induction paths generalizing line with
  | nil =>
    rw [List.append_nil]
    rfl
  | cons path rest ih =>
    rw [List.map_cons, List.foldlM_cons, taken path List.mem_cons_self]
    have later := ih (fun other member => taken other (List.mem_cons_of_mem _ member))
      { line with paths := line.paths ++ [path] }
    rw [List.append_assoc] at later
    exact later

/-! ### Options -/

theorem read_create {word : Bytes} (spells : SpellsCreate word) (line : CommandLine) :
    Reader.read ⟨line, .anything⟩ word = (do pure ⟨← line.addCreate, .anything⟩) := by
  rcases spells with letter | long
  · have form : Argument.ofBytes word = .letters ['c'.toUInt8] := by
      rw [letter]
      rfl
    simp only [Reader.read, form, readLetters, ↓reduceIte]
    rfl
  · have form : Argument.ofBytes word = .long createOption none := by
      rw [long]
      rfl
    simp only [Reader.read, form, readLong, ↓reduceIte]

theorem read_rootOption {word : Bytes} (option : SpellsRootOption word) (line : CommandLine) :
    Reader.read ⟨line, .anything⟩ word = .ok ⟨line, .rootValue⟩ := by
  rcases option with letter | long
  · rw [letter]
    rfl
  · rw [long]
    rfl

theorem foldlM_read_root {root : Bytes} {words : List Bytes} (spells : SpellsRoot root words)
    (line : CommandLine) : words.foldlM Reader.read ⟨line, .anything⟩ =
      (do pure ⟨← line.addRoot root, .anything⟩) := by
  cases spells with
  | attached =>
    rw [List.foldlM_cons]
    simp only [Reader.read, ofBytes_attachedRoot, readLong, ↓reduceIte, List.foldlM_nil, bind_pure]
  | separate option undashed =>
    rw [List.foldlM_cons, read_rootOption option]
    show Reader.read ⟨line, .rootValue⟩ root >>= pure = _
    simp only [Reader.read, ofBytes_of_undashed undashed, bind_pure]

/-- An option does not look at the paths that were read before it. -/
theorem foldlM_read_option {words : List Bytes} (option : SpellsOption words) {line : CommandLine}
    {next : Reader} (read : words.foldlM Reader.read ⟨line, .anything⟩ = .ok next) :
    ∃ after : CommandLine, next = ⟨after, .anything⟩ ∧ after.paths = line.paths ∧
      ∀ paths, words.foldlM Reader.read ⟨{ line with paths }, .anything⟩ =
        .ok ⟨{ after with paths }, .anything⟩ := by
  cases option with
  | create spells =>
    rw [List.foldlM_cons, read_create spells] at read
    simp only [List.foldlM_cons, read_create spells]
    unfold addCreate at read ⊢
    split at read
    · cases read
    · rename_i unasked
      cases read
      refine ⟨_, rfl, rfl, fun paths => ?_⟩
      rw [if_neg unasked]
      rfl
  | root nonempty spells =>
    rw [foldlM_read_root spells] at read
    simp only [foldlM_read_root spells]
    unfold addRoot at read ⊢
    split at read
    · cases read
    · rename_i unnamed
      cases read
      refine ⟨_, rfl, rfl, fun paths => ?_⟩
      rw [if_neg unnamed]
      rfl

/-- No option can stand where a value is due. -/
theorem foldlM_read_option_of_rootValue {words : List Bytes} (option : SpellsOption words)
    (line : CommandLine) (next : Reader) :
    words.foldlM Reader.read ⟨line, .rootValue⟩ ≠ .ok next := by
  cases option with
  | create spells =>
    rcases spells with rfl | rfl
    · exact nofun
    · exact nofun
  | root nonempty spells =>
    cases spells with
    | attached => exact nofun
    | separate option undashed =>
      rcases option with rfl | rfl
      · exact nofun
      · exact nofun

/-! ### What is expected -/

theorem expecting_readLetters {letters : Bytes} {line : CommandLine} {next : Reader}
    (read : readLetters line letters = .ok next) : next.expecting ≠ .path := by
  induction letters generalizing line with
  | nil =>
    cases read
    exact nofun
  | cons letter rest ih =>
    rw [readLetters] at read
    split at read
    · obtain ⟨asked, -, later⟩ := bind_eq_ok.mp read
      exact ih later
    · split at read
      · split at read
        · cases read
          exact nofun
        · obtain ⟨named, -, done⟩ := bind_eq_ok.mp read
          cases done
          exact nofun
      · split at read
        · cases read
        · split at read <;> cases read

theorem expecting_readLong {name : Bytes} {value : Option Bytes} {line : CommandLine}
    {next : Reader} (read : readLong line name value = .ok next) : next.expecting ≠ .path := by
  cases value with
  | none =>
    rw [readLong] at read
    split at read
    · obtain ⟨asked, -, done⟩ := bind_eq_ok.mp read
      cases done
      exact nofun
    · split at read
      · cases read
        exact nofun
      · split at read
        · cases read
        · split at read <;> cases read
  | some value =>
    rw [readLong] at read
    split at read
    · obtain ⟨named, -, done⟩ := bind_eq_ok.mp read
      cases done
      exact nofun
    · cases read

/-- Only two dashes end the options. -/
theorem expecting_read {r next : Reader} {arg : Bytes} (before : r.expecting ≠ .path)
    (other : arg ≠ dashes) (read : r.read arg = .ok next) : next.expecting ≠ .path := by
  obtain ⟨line, expecting⟩ := r
  cases expecting with
  | path => exact absurd rfl before
  | rootValue =>
    simp only [Reader.read] at read
    split at read
    · obtain ⟨named, -, done⟩ := bind_eq_ok.mp read
      cases done
      exact nofun
    · cases read
  | anything =>
    have notEnding := ofBytes_ne_ending other
    simp only [Reader.read] at read
    cases form : Argument.ofBytes arg with
    | plain =>
      rw [form] at read
      obtain ⟨added, -, done⟩ := bind_eq_ok.mp read
      cases done
      exact nofun
    | ending => exact absurd form notEnding
    | letters letters =>
      rw [form] at read
      exact expecting_readLetters read
    | long name value =>
      rw [form] at read
      exact expecting_readLong read

theorem expecting_foldlM_read {args : List Bytes} (unended : dashes ∉ args) {r last : Reader}
    (before : r.expecting ≠ .path) (read : args.foldlM Reader.read r = .ok last) :
    last.expecting ≠ .path := by
  induction args generalizing r with
  | nil =>
    cases read
    exact before
  | cons arg rest ih =>
    obtain ⟨notFirst, notLater⟩ := not_or.mp (mt List.mem_cons.mpr unended)
    rw [List.foldlM_cons] at read
    obtain ⟨next, first, later⟩ := bind_eq_ok.mp read
    exact ih notLater (expecting_read before (Ne.symm notFirst) first) later

theorem expecting_whole {args : List Bytes} (unended : dashes ∉ args) {last : Reader}
    (read : args.foldlM Reader.read ⟨empty, .anything⟩ = .ok last) : last.expecting ≠ .path :=
  have start : (⟨empty, .anything⟩ : Reader).expecting ≠ .path := nofun
  expecting_foldlM_read unended start read

/-! ### Something asked for earlier -/

/-- What is asked for nowhere else can be `set` before all other items: each of them is added as it
is without. -/
structure CanPrecede (free : CommandLine → Prop) (set : CommandLine → CommandLine) : Prop where
  addPath {line after : CommandLine} {arg : Bytes} (added : line.addPath arg = .ok after)
    (unasked : free after) : free line ∧ (set line).addPath arg = .ok (set after)
  addCreate {line after : CommandLine} (added : line.addCreate = .ok after)
    (unasked : free after) : free line ∧ (set line).addCreate = .ok (set after)
  addRoot {line after : CommandLine} {value : Bytes} (added : line.addRoot value = .ok after)
    (unasked : free after) : free line ∧ (set line).addRoot value = .ok (set after)

theorem addPath_eq_ok {line after : CommandLine} {arg : Bytes} :
    line.addPath arg = .ok after ↔ ∃ path, Text.ofUtf8? arg = some path ∧
      after = { line with paths := line.paths ++ [path] } := by
  unfold addPath
  cases Text.ofUtf8? arg with
  | none =>
    constructor
    · intro added
      cases added
    · rintro ⟨path, isText, -⟩
      cases isText
  | some path =>
    constructor
    · intro added
      cases added
      exact ⟨path, rfl, rfl⟩
    · rintro ⟨other, isText, rfl⟩
      cases isText
      rfl

theorem addCreate_eq_ok {line after : CommandLine} :
    line.addCreate = .ok after ↔ line.create = false ∧ after = { line with create := true } := by
  unfold addCreate
  split
  · rename_i asked
    exact ⟨nofun, fun ⟨unasked, _⟩ => by simp [asked] at unasked⟩
  · rename_i unasked
    constructor
    · intro added
      cases added
      exact ⟨by simpa using unasked, rfl⟩
    · rintro ⟨-, rfl⟩
      rfl

theorem addRoot_eq_ok {line after : CommandLine} {value : Bytes} :
    line.addRoot value = .ok after ↔ line.root = none ∧ value ≠ [] ∧
      after = { line with root := some value } := by
  unfold addRoot
  split
  · rename_i refused
    exact ⟨nofun, fun ⟨unnamed, nonempty, _⟩ => by simp [unnamed, nonempty] at refused⟩
  · rename_i allowed
    constructor
    · intro added
      cases added
      have unnamed : line.root = none := by simpa using fun named => allowed (.inl named)
      exact ⟨unnamed, fun isNil => allowed (.inr isNil), rfl⟩
    · rintro ⟨-, -, rfl⟩
      rfl

theorem canPrecede_create :
    CanPrecede (fun line => line.create = false) fun line => { line with create := true } where
  addPath added unasked := by
    obtain ⟨path, isText, rfl⟩ := addPath_eq_ok.mp added
    exact ⟨unasked, addPath_eq_ok.mpr ⟨path, isText, rfl⟩⟩
  addCreate added unasked := by
    obtain ⟨-, rfl⟩ := addCreate_eq_ok.mp added
    cases unasked
  addRoot added unasked := by
    obtain ⟨unnamed, nonempty, rfl⟩ := addRoot_eq_ok.mp added
    exact ⟨unasked, addRoot_eq_ok.mpr ⟨unnamed, nonempty, rfl⟩⟩

theorem canPrecede_root (root : Bytes) :
    CanPrecede (fun line => line.root = none) fun line => { line with root := some root } where
  addPath added unasked := by
    obtain ⟨path, isText, rfl⟩ := addPath_eq_ok.mp added
    exact ⟨unasked, addPath_eq_ok.mpr ⟨path, isText, rfl⟩⟩
  addCreate added unasked := by
    obtain ⟨uncreated, rfl⟩ := addCreate_eq_ok.mp added
    exact ⟨unasked, addCreate_eq_ok.mpr ⟨uncreated, rfl⟩⟩
  addRoot added unasked := by
    obtain ⟨-, -, rfl⟩ := addRoot_eq_ok.mp added
    cases unasked

namespace CanPrecede

variable {free : CommandLine → Prop} {set : CommandLine → CommandLine}
  (precedes : CanPrecede free set) {line : CommandLine} {next : Reader}
include precedes

theorem readLetters {letters : Bytes} (read : readLetters line letters = .ok next)
    (unasked : free next.line) :
    free line ∧ CommandLine.readLetters (set line) letters =
      .ok ⟨set next.line, next.expecting⟩ := by
  induction letters generalizing line with
  | nil =>
    cases read
    exact ⟨unasked, rfl⟩
  | cons letter rest ih =>
    rw [CommandLine.readLetters] at read ⊢
    split at read
    · rename_i isCreate
      obtain ⟨asked, added, later⟩ := bind_eq_ok.mp read
      obtain ⟨unaskedThen, laterSet⟩ := ih later
      obtain ⟨unaskedNow, addedSet⟩ := precedes.addCreate added unaskedThen
      rw [if_pos isCreate]
      exact ⟨unaskedNow, bind_eq_ok.mpr ⟨_, addedSet, laterSet⟩⟩
    · rename_i notCreate
      rw [if_neg notCreate]
      split at read
      · rename_i isRoot
        rw [if_pos isRoot]
        split at read
        · rename_i isLast
          cases read
          rw [if_pos isLast]
          exact ⟨unasked, rfl⟩
        · rename_i notLast
          obtain ⟨named, added, done⟩ := bind_eq_ok.mp read
          cases done
          obtain ⟨unaskedNow, addedSet⟩ := precedes.addRoot added unasked
          rw [if_neg notLast]
          exact ⟨unaskedNow, bind_eq_ok.mpr ⟨_, addedSet, rfl⟩⟩
      · split at read
        · cases read
        · split at read <;> cases read

theorem readLong {name : Bytes} {value : Option Bytes} (read : readLong line name value = .ok next)
    (unasked : free next.line) :
    free line ∧ CommandLine.readLong (set line) name value =
      .ok ⟨set next.line, next.expecting⟩ := by
  cases value with
  | none =>
    rw [CommandLine.readLong] at read ⊢
    split at read
    · rename_i isCreate
      obtain ⟨asked, added, done⟩ := bind_eq_ok.mp read
      cases done
      obtain ⟨unaskedNow, addedSet⟩ := precedes.addCreate added unasked
      rw [if_pos isCreate]
      exact ⟨unaskedNow, bind_eq_ok.mpr ⟨_, addedSet, rfl⟩⟩
    · rename_i notCreate
      rw [if_neg notCreate]
      split at read
      · rename_i isRoot
        cases read
        rw [if_pos isRoot]
        exact ⟨unasked, rfl⟩
      · split at read
        · cases read
        · split at read <;> cases read
  | some value =>
    rw [CommandLine.readLong] at read ⊢
    split at read
    · rename_i isRoot
      obtain ⟨named, added, done⟩ := bind_eq_ok.mp read
      cases done
      obtain ⟨unaskedNow, addedSet⟩ := precedes.addRoot added unasked
      rw [if_pos isRoot]
      exact ⟨unaskedNow, bind_eq_ok.mpr ⟨_, addedSet, rfl⟩⟩
    · cases read

theorem read {expecting : Expecting} {arg : Bytes}
    (read : Reader.read ⟨line, expecting⟩ arg = .ok next) (unasked : free next.line) :
    free line ∧ Reader.read ⟨set line, expecting⟩ arg = .ok ⟨set next.line, next.expecting⟩ := by
  cases expecting with
  | path =>
    obtain ⟨after, added, done⟩ := bind_eq_ok.mp read
    cases done
    obtain ⟨unaskedNow, addedSet⟩ := precedes.addPath added unasked
    exact ⟨unaskedNow, bind_eq_ok.mpr ⟨_, addedSet, rfl⟩⟩
  | rootValue =>
    simp only [Reader.read] at read ⊢
    cases form : Argument.ofBytes arg with
    | plain =>
      rw [form] at read
      obtain ⟨after, added, done⟩ := bind_eq_ok.mp read
      cases done
      obtain ⟨unaskedNow, addedSet⟩ := precedes.addRoot added unasked
      exact ⟨unaskedNow, bind_eq_ok.mpr ⟨_, addedSet, rfl⟩⟩
    | ending =>
      rw [form] at read
      cases read
    | letters letters =>
      rw [form] at read
      cases read
    | long name value =>
      rw [form] at read
      cases read
  | anything =>
    simp only [Reader.read] at read ⊢
    cases form : Argument.ofBytes arg with
    | plain =>
      rw [form] at read
      obtain ⟨after, added, done⟩ := bind_eq_ok.mp read
      cases done
      obtain ⟨unaskedNow, addedSet⟩ := precedes.addPath added unasked
      exact ⟨unaskedNow, bind_eq_ok.mpr ⟨_, addedSet, rfl⟩⟩
    | ending =>
      rw [form] at read
      cases read
      exact ⟨unasked, rfl⟩
    | letters letters =>
      rw [form] at read
      exact precedes.readLetters read unasked
    | long name value =>
      rw [form] at read
      exact precedes.readLong read unasked

theorem foldlM_read {args : List Bytes} {expecting : Expecting}
    (whole : args.foldlM Reader.read ⟨line, expecting⟩ = .ok next) (unasked : free next.line) :
    free line ∧ args.foldlM Reader.read ⟨set line, expecting⟩ =
      .ok ⟨set next.line, next.expecting⟩ := by
  induction args generalizing line expecting with
  | nil =>
    cases whole
    exact ⟨unasked, rfl⟩
  | cons arg rest ih =>
    rw [List.foldlM_cons] at whole ⊢
    obtain ⟨⟨after, expectingThen⟩, first, later⟩ := bind_eq_ok.mp whole
    obtain ⟨unaskedThen, laterSet⟩ := ih later
    obtain ⟨unaskedNow, firstSet⟩ := precedes.read first unaskedThen
    exact ⟨unaskedNow, bind_eq_ok.mpr ⟨_, firstSet, laterSet⟩⟩

end CanPrecede

/-! ### The rules -/

theorem followsRules_reader : FollowsRules reader.parse where
  positionals name paths plain := by
    refine parse_reader_eq_ok.mpr ⟨.anything, ?_, nofun⟩
    rw [foldlM_read_paths (fun path member line => read_plain line (plain path member))]
    rfl
  mixes name front words rest path line unended option plain read := by
    obtain ⟨expecting, whole, settled⟩ := parse_reader_eq_ok.mp read
    refine parse_reader_eq_ok.mpr ⟨expecting, ?_, settled⟩
    rw [List.foldlM_append] at whole ⊢
    obtain ⟨⟨before, expectingThen⟩, inFront, behind⟩ := bind_eq_ok.mp whole
    refine bind_eq_ok.mpr ⟨_, inFront, ?_⟩
    rw [List.foldlM_append] at behind
    obtain ⟨next, asked, last⟩ := bind_eq_ok.mp behind
    have notPath : expectingThen ≠ .path := expecting_whole unended inFront
    cases expectingThen with
    | path => exact absurd rfl notPath
    | rootValue => exact absurd asked (foldlM_read_option_of_rootValue option before next)
    | anything =>
      obtain ⟨after, rfl, paths, anyPaths⟩ := foldlM_read_option option asked
      rw [List.foldlM_cons, read_plain _ plain] at last ⊢
      show (words ++ rest).foldlM Reader.read _ = _
      rw [List.foldlM_append, anyPaths, ← paths]
      exact last
  ending name front line unended read later := by
    obtain ⟨expecting, whole, settled⟩ := parse_reader_eq_ok.mp read
    have notPath : expecting ≠ .path := expecting_whole unended whole
    refine parse_reader_eq_ok.mpr ⟨.path, ?_, nofun⟩
    rw [List.foldlM_append]
    refine bind_eq_ok.mpr ⟨_, whole, ?_⟩
    cases expecting with
    | path => exact absurd rfl notPath
    | rootValue => exact absurd rfl settled
    | anything => exact foldlM_read_paths (fun path _ line => read_path line path) line
  create name word rest line spells read unasked := by
    obtain ⟨expecting, whole, settled⟩ := parse_reader_eq_ok.mp read
    refine parse_reader_eq_ok.mpr ⟨expecting, ?_, settled⟩
    rw [List.foldlM_cons, read_create spells]
    exact (canPrecede_create.foldlM_read whole unasked).2
  attached name root rest line nonempty read unnamed := by
    obtain ⟨expecting, whole, settled⟩ := parse_reader_eq_ok.mp read
    have added : empty.addRoot root = .ok { empty with root := some root } :=
      addRoot_eq_ok.mpr ⟨rfl, nonempty, rfl⟩
    refine parse_reader_eq_ok.mpr ⟨expecting, ?_, settled⟩
    have first := foldlM_read_root (.attached : SpellsRoot root _) empty
    rw [added] at first
    rw [show attachedRoot root :: rest = [attachedRoot root] ++ rest from rfl, List.foldlM_append,
      first]
    exact ((canPrecede_root root).foldlM_read whole unnamed).2
  separate name word root rest line option undashed read := by
    obtain ⟨expecting, whole, settled⟩ := parse_reader_eq_ok.mp read
    refine parse_reader_eq_ok.mpr ⟨expecting, ?_, settled⟩
    rw [show attachedRoot root :: rest = [attachedRoot root] ++ rest from rfl, List.foldlM_append,
      foldlM_read_root .attached] at whole
    rw [show word :: root :: rest = [word, root] ++ rest from rfl, List.foldlM_append,
      foldlM_read_root (.separate option undashed)]
    exact whole

end FileRemoval.CommandLine
