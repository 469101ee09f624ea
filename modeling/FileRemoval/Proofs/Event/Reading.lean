import Mathlib.Data.List.Basic
import FileRemoval.Event
import FileRemoval.Proofs.Text.Quoted

/-! # Reading a log

The lines of a log for debugging can be read back as the events that they show, as far as these are
events of a store with texts for paths. Lines of another level are passed over. -/

namespace FileRemoval

namespace Text

/-- The number that a text starts with, and what follows it. -/
def number? (t : Text) : Option (Nat × Text) :=
  if t.takeWhile Char.isDigit = [] then none
  else some (Nat.ofDigitChars 10 (t.takeWhile Char.isDigit) 0, t.dropWhile Char.isDigit)

theorem dropPrefix?_append_append (lead t s : Text) :
    (lead ++ t).dropPrefix? (lead ++ s) = t.dropPrefix? s := by
  induction lead with
  | nil => rfl
  | cons c rest ih =>
    rw [List.cons_append, List.cons_append, List.dropPrefix?, if_pos (beq_self_eq_true c), ih]

theorem dropPrefix?_append (lead t : Text) : (lead ++ t).dropPrefix? lead = some t := by
  have behind := dropPrefix?_append_append lead t []
  rwa [List.append_nil, List.dropPrefix?_nil] at behind

theorem isDigit_of_mem_decimal {n : Nat} {c : Char} (member : c ∈ decimal n) : c.isDigit = true :=
  Nat.isDigit_of_mem_toDigits (by decide) (by decide) member

theorem decimal_ne_nil (n : Nat) : decimal n ≠ [] :=
  Nat.toDigits_ne_nil

/-- A number ends where the digits end. -/
theorem number?_decimal (n : Nat) (rest : Text) (ends : ∀ c ∈ rest.head?, c.isDigit = false) :
    number? (decimal n ++ rest) = some (n, rest) := by
  have digits : ∀ c ∈ decimal n, c.isDigit = true := fun c => isDigit_of_mem_decimal
  have none : rest.takeWhile Char.isDigit = [] ∧ rest.dropWhile Char.isDigit = rest := by
    cases rest with
    | nil => exact ⟨rfl, rfl⟩
    | cons c more =>
      have notDigit : ¬ c.isDigit = true := by simp [ends c rfl]
      exact ⟨List.takeWhile_cons_of_neg notDigit, List.dropWhile_cons_of_neg notDigit⟩
  have value : Nat.ofDigitChars 10 (decimal n) 0 = n := Nat.ofDigitChars_ten_toDigits
  rw [number?, List.takeWhile_append_of_pos digits, List.dropWhile_append_of_pos digits, none.1,
    none.2, List.append_nil, if_neg (decimal_ne_nil n), value]

theorem unquote_quoted_self (t : Text) : unquote (quoted t) = some (t, []) := by
  have read := unquote_quoted t []
  rwa [List.append_nil] at read

end Text

namespace Event

/-! ### Readers -/

def resolved? (message : Text) : Option Event := do
  let (path, rest) ← Text.unquote (← message.dropPrefix? "path=".toList)
  let (canonical, rest) ← Text.unquote (← rest.dropPrefix? " resolved=".toList)
  if rest = [] then some (.resolved path canonical) else none

def opened? (message : Text) : Option Event := do
  let (index, rest) ← Text.number? (← message.dropPrefix? "opened #".toList)
  if rest = [] then some (.opened ⟨index⟩) else none

def closed? (message : Text) : Option Event := do
  let (index, rest) ← Text.number? (← message.dropPrefix? "closed #".toList)
  let (path, rest) ← Text.unquote (← rest.dropPrefix? " (".toList)
  if rest = [')'] then some (.closed ⟨index⟩ path) else none

def closedAll? (message : Text) : Option Event := do
  let (count, rest) ← Text.number? (← message.dropPrefix? "closed ".toList)
  let (path, rest) ← Text.unquote (← rest.dropPrefix? " handle(s) still open on ".toList)
  if rest = [] then some (.closedAll count path) else none

/-- The event of a store that a line for debugging shows. -/
def ofLine? (line : Text) : Option Event := do
  let message ← line.dropPrefix? "DEBUG ".toList
  resolved? message <|> opened? message <|> closed? message <|> closedAll? message

/-- What can be read off a log, in its order. -/
def ofLines (lines : List Text) : List Event :=
  lines.filterMap ofLine?

/-- What a reader of the lines of `events` is told. -/
def told (events : List Event) : List Event :=
  ofLines (events.map line)

/-! ### Lines read back -/

theorem ofLine?_debug {e : Event} (h : e.level = .debug) : ofLine? e.line =
    (resolved? e.message <|> opened? e.message <|> closed? e.message <|> closedAll? e.message) := by
  have behind := Text.dropPrefix?_append "DEBUG ".toList e.message
  rw [line, h, show Level.word .debug ++ ' ' :: e.message = "DEBUG ".toList ++ e.message from rfl,
    ofLine?, behind]
  rfl

theorem ofLine?_resolved (path canonical : Text) :
    ofLine? (line (.resolved path canonical)) = some (.resolved path canonical) := by
  have words : message (.resolved path canonical) =
      "path=".toList ++ path.quoted ++ " resolved=".toList ++ canonical.quoted := rfl
  have read : resolved? (message (.resolved path canonical)) = some (.resolved path canonical) := by
    simp only [resolved?, words, List.append_assoc, Text.dropPrefix?_append, Option.bind_eq_bind,
      Option.bind_some, Text.unquote_quoted, Text.unquote_quoted_self, ↓reduceIte]
  rw [ofLine?_debug rfl, read]
  rfl

theorem ofLine?_opened (handle : Handle) :
    ofLine? (line (.opened handle)) = some (.opened handle) := by
  have words : message (.opened handle) = "opened #".toList ++ decimal handle.index := rfl
  have number : Text.number? (decimal handle.index) = some (handle.index, []) := by
    have read := Text.number?_decimal handle.index [] (by simp)
    rwa [List.append_nil] at read
  have read : opened? (message (.opened handle)) = some (.opened handle) := by
    simp only [opened?, words, Text.dropPrefix?_append, Option.bind_eq_bind, Option.bind_some,
      number, ↓reduceIte]
  have notResolved : resolved? (message (.opened handle)) = none := rfl
  rw [ofLine?_debug rfl, notResolved, read]
  rfl

theorem ofLine?_closed (handle : Handle) (path : Text) :
    ofLine? (line (.closed handle path)) = some (.closed handle path) := by
  have words : message (.closed handle path) =
      "closed #".toList ++ decimal handle.index ++ " (".toList ++ path.quoted ++ [')'] := rfl
  have number := Text.number?_decimal handle.index (" (".toList ++ (path.quoted ++ [')'])) (by simp)
  have read : closed? (message (.closed handle path)) = some (.closed handle path) := by
    simp only [closed?, words, List.append_assoc, Text.dropPrefix?_append, Option.bind_eq_bind,
      Option.bind_some, number, Text.unquote_quoted, ↓reduceIte]
  have notResolved : resolved? (message (.closed handle path)) = none := rfl
  have notOpened : opened? (message (.closed handle path)) = none := rfl
  rw [ofLine?_debug rfl, notResolved, notOpened, read]
  rfl

theorem ofLine?_closedAll (count : Nat) (path : Text) :
    ofLine? (line (.closedAll count path)) = some (.closedAll count path) := by
  have words : message (.closedAll count path) = "closed ".toList ++ decimal count ++
      " handle(s) still open on ".toList ++ path.quoted := rfl
  have number := Text.number?_decimal count (" handle(s) still open on ".toList ++ path.quoted)
    (by simp)
  have read : closedAll? (message (.closedAll count path)) = some (.closedAll count path) := by
    simp only [closedAll?, words, List.append_assoc, Text.dropPrefix?_append, Option.bind_eq_bind,
      Option.bind_some, number, Text.unquote_quoted_self, ↓reduceIte]
  have notResolved : resolved? (message (.closedAll count path)) = none := rfl
  have notOpened : opened? (message (.closedAll count path)) = none := rfl
  -- a count starts with a digit where the line of one handle has its mark
  have notClosed : closed? (message (.closedAll count path)) = none := by
    obtain ⟨digit, more, split⟩ := List.exists_cons_of_ne_nil (Text.decimal_ne_nil count)
    have isDigit : digit.isDigit = true :=
      Text.isDigit_of_mem_decimal (split ▸ List.mem_cons_self)
    have apart : ¬ (digit == '#') = true := by
      intro same
      rw [beq_iff_eq.mp same] at isDigit
      cases isDigit
    rw [closed?, words, show "closed #".toList = "closed ".toList ++ ['#'] from rfl,
      List.append_assoc, List.append_assoc, Text.dropPrefix?_append_append, split, List.cons_append,
      List.dropPrefix?, if_neg apart]
    rfl
  rw [ofLine?_debug rfl, notResolved, notOpened, notClosed, read]
  rfl

theorem ofLine?_of_level_ne {e : Event} (h : e.level ≠ .debug) : ofLine? e.line = none := by
  rw [line]
  cases level : e.level with
  | debug => exact absurd level h
  | error => rfl
  | warn => rfl
  | info => rfl

theorem told_concat_of_read {e : Event} (events : List Event) (h : ofLine? e.line = some e) :
    told (events ++ [e]) = told events ++ [e] := by
  rw [told, List.map_append, ofLines, List.filterMap_append, List.map_singleton,
    List.filterMap_cons_some h]
  rfl

theorem told_concat_of_level_ne {e : Event} (events : List Event) (h : e.level ≠ .debug) :
    told (events ++ [e]) = told events := by
  rw [told, List.map_append, ofLines, List.filterMap_append, List.map_singleton,
    List.filterMap_cons_none (ofLine?_of_level_ne h)]
  exact List.append_nil _

end Event

end FileRemoval
