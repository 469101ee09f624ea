import FileRemoval.Text

/-! # Texts without control sequences

A text may hold control sequences, which a terminal obeys instead of showing them. They start with
an escape character and end as their kind says, or where the text does. For an output that need not
be a terminal they are left out, and with them every control character that is no blank.

The kinds are those of ECMA-48. A control sequence proper has parameters and a final letter; a
device control string has the same in front of its payload; an operating system command ends at a
bell; and a payload ends at the byte 0x9C. A new escape character cuts any of them short. -/

namespace FileRemoval.Text

/-- Where in a control sequence a text stands. -/
inductive ControlState where
  | ground
  | escape
  | escapeIntermediate
  | sequence
  | deviceEntry
  | deviceParameter
  | deviceIntermediate
  | payload
  | command
deriving DecidableEq, Repr

namespace ControlState

/-- The blanks of ASCII. They are shown although most of them are controls. -/
def isBlank (c : Char) : Bool :=
  c = ' ' || c = '\t' || c = '\n' || c = '\x0c' || c = '\r'

def isShown (c : Char) : Bool :=
  isBlank c || (0x20 ≤ c.toNat && c.toNat ≠ 0x7F)

def afterEscape (c : Char) : ControlState :=
  if c = '[' then .sequence
  else if c = ']' then .command
  else if c = 'P' then .deviceEntry
  else if c = 'X' ∨ c = '^' ∨ c = '_' then .payload
  else if c.toNat < 0x20 then .escape
  else if c.toNat < 0x30 then .escapeIntermediate
  else if c.toNat < 0x7F then .ground
  else .escape

/-- The state after a character in a control sequence, unless the character cuts it short. What
cannot stand in a sequence of the kind is passed over. -/
def follow (s : ControlState) (c : Char) : ControlState :=
  match s with
  | .ground => .ground
  | .escape => afterEscape c
  | .escapeIntermediate => if 0x30 ≤ c.toNat ∧ c.toNat < 0x7F then .ground else s
  | .sequence => if 0x40 ≤ c.toNat ∧ c.toNat < 0x7F then .ground else s
  | .deviceEntry =>
    if c.toNat < 0x20 then s
    else if c.toNat < 0x30 then .deviceIntermediate
    else if c.toNat < 0x40 then .deviceParameter
    else if c.toNat < 0x7F then .payload
    else s
  | .deviceParameter =>
    if c.toNat < 0x20 then s
    else if c.toNat < 0x30 then .deviceIntermediate
    else if c.toNat < 0x3C then s
    else if c.toNat < 0x7F then .payload
    else s
  | .deviceIntermediate => if 0x30 ≤ c.toNat ∧ c.toNat < 0x7F then .payload else s
  | .payload => if 0x9C ∈ String.utf8EncodeChar c then .ground else s
  | .command => if c = '\x07' then .ground else s

/-- The sequences that a blank control character ends, so that it is shown. -/
def yieldsToBlank : ControlState → Bool
  | .escape => true
  | .escapeIntermediate => true
  | .sequence => true
  | _ => false

def next (s : ControlState) (c : Char) : ControlState × Bool :=
  if c = '\x1b' then (.escape, false)
  else if c = '\x18' ∨ c = '\x1a' then (.ground, false)
  else if s = .ground then (.ground, isShown c)
  else if s.yieldsToBlank ∧ c.toNat < 0x20 ∧ isBlank c then (.ground, true)
  else (s.follow c, false)

end ControlState

def shownFrom : ControlState → Text → Text
  | _, [] => []
  | s, c :: rest =>
    if (s.next c).2 then c :: shownFrom (s.next c).1 rest else shownFrom (s.next c).1 rest

/-- The text without its control sequences and without control characters that are no blanks. -/
def withoutControls (t : Text) : Text :=
  shownFrom .ground t

end FileRemoval.Text
