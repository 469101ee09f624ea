import Mathlib.Tactic.SplitIfs
import FileRemoval.Text.Quoted

/-! # Reading quoted texts

What stands between the quotes can be read back, whatever it holds, and the reader knows where it
ends: no quote stands there without a backslash in front of it. -/

namespace FileRemoval.Text

/-- Where a reader stands between the quotes: at a character, behind a backslash, behind the mark of
a number, or within the number, with its value so far. -/
inductive Unquoting where
  | plain
  | escape
  | announced
  | number (value : Nat)

/-- The character that a letter behind a backslash stands for. -/
def escaped? (letter : Char) : Option Char :=
  if letter = '"' then some '"'
  else if letter = '\\' then some '\\'
  else if letter = 't' then some '\t'
  else if letter = 'n' then some '\n'
  else if letter = 'r' then some '\r'
  else if letter = '0' then some '\x00'
  else none

def hexDigit? (c : Char) : Option Nat :=
  if '0' ≤ c ∧ c ≤ '9' then some (c.toNat - '0'.toNat)
  else if 'a' ≤ c ∧ c ≤ 'f' then some (c.toNat - 'a'.toNat + 10)
  else none

def afterChar (c : Char) (read : Option (Text × Text)) : Option (Text × Text) :=
  read.map fun parts => (c :: parts.1, parts.2)

/-- Reads up to the closing quote and tells what was read and what is left behind it. -/
def unquoteOn : Unquoting → Text → Option (Text × Text)
  | _, [] => none
  | .plain, c :: rest =>
    if c = '"' then some ([], rest)
    else if c = '\\' then unquoteOn .escape rest
    else afterChar c (unquoteOn .plain rest)
  | .escape, c :: rest =>
    if c = 'u' then unquoteOn .announced rest
    else
      match escaped? c with
      | none => none
      | some meant => afterChar meant (unquoteOn .plain rest)
  | .announced, c :: rest => if c = '\x7b' then unquoteOn (.number 0) rest else none
  | .number value, c :: rest =>
    if c = '\x7d' then afterChar (Char.ofNat value) (unquoteOn .plain rest)
    else
      match hexDigit? c with
      | none => none
      | some digit => unquoteOn (.number (16 * value + digit)) rest

def unquote : Text → Option (Text × Text)
  | '"' :: rest => unquoteOn .plain rest
  | _ => none

/-! ### Characters by their number -/

theorem hexDigit?_digitChar {n : Nat} (h : n < 16) : hexDigit? (Nat.digitChar n) = some n := by
  decide +revert

theorem digitChar_ne_brace {n : Nat} (h : n < 16) : Nat.digitChar n ≠ '\x7d' := by
  decide +revert

theorem unquoteOn_digit (value : Nat) {digit : Nat} (h : digit < 16) (rest : Text) :
    unquoteOn (.number value) (Nat.digitChar digit :: rest) =
      unquoteOn (.number (16 * value + digit)) rest := by
  rw [unquoteOn, if_neg (digitChar_ne_brace h), hexDigit?_digitChar h]

theorem unquoteOn_toDigits (n : Nat) (rest : Text) :
    unquoteOn (.number 0) (Nat.toDigits 16 n ++ rest) = unquoteOn (.number n) rest := by
  -- the last digit comes last, behind the number without it
  induction n using Nat.strongRecOn generalizing rest with
  | ind n ih =>
    by_cases short : n < 16
    · rw [Nat.toDigits_of_lt_base short, List.singleton_append, unquoteOn_digit 0 short]
      simp
    · have last : n % 16 < 16 := Nat.mod_lt n (by omega)
      have parts : 16 * (n / 16) + n % 16 = n := Nat.div_add_mod n 16
      rw [Nat.toDigits_of_base_le (by omega) (Nat.not_lt.mp short), List.append_assoc,
        List.singleton_append, ih (n / 16) (by omega), unquoteOn_digit _ last, parts]

theorem unquoteOn_codePointEscape (c : Char) (rest : Text) :
    unquoteOn .plain (codePointEscape c.toNat ++ rest) = afterChar c (unquoteOn .plain rest) := by
  have opened : unquoteOn .plain (codePointEscape c.toNat ++ rest) =
      unquoteOn (.number 0) (Nat.toDigits 16 c.toNat ++ '\x7d' :: rest) := by
    rw [codePointEscape, List.append_assoc, List.append_assoc]
    rfl
  rw [opened, unquoteOn_toDigits, unquoteOn, if_pos rfl, Char.ofNat_toNat]

/-! ### Whole texts -/

theorem unquoteOn_quotedChar (c : Char) (rest : Text) :
    unquoteOn .plain (quotedChar c ++ rest) = afterChar c (unquoteOn .plain rest) := by
  unfold quotedChar
  split_ifs with isQuote isBackslash isTab isFeed isReturn isNul unprintable
  · rw [isQuote]
    rfl
  · rw [isBackslash]
    rfl
  · rw [isTab]
    rfl
  · rw [isFeed]
    rfl
  · rw [isReturn]
    rfl
  · rw [isNul]
    rfl
  · exact unquoteOn_codePointEscape c rest
  · rw [List.singleton_append, unquoteOn, if_neg isQuote, if_neg isBackslash]

/-- A quoted text can be told from what follows it, and reads as the text that was quoted. -/
theorem unquote_quoted (t rest : Text) : unquote (quoted t ++ rest) = some (t, rest) := by
  have inside : unquoteOn .plain (t.flatMap quotedChar ++ '"' :: rest) = some (t, rest) := by
    induction t with
    | nil => rfl
    | cons c more ih =>
      rw [List.flatMap_cons, List.append_assoc, unquoteOn_quotedChar, ih]
      rfl
  rw [quoted, List.cons_append, List.append_assoc]
  exact inside

end FileRemoval.Text
