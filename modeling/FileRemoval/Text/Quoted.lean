import FileRemoval.Text.Unprintable

/-! # Quoted texts

A text between double quotes, on one line and free of characters that cannot be seen. -/

namespace FileRemoval.Text

/-- The escape of a code point by its number: two marks, braces, hexadecimal in small letters. -/
def codePointEscape (code : Nat) : Text :=
  "\\u\x7b".toList ++ Nat.toDigits 16 code ++ "\x7d".toList

/-- One character between the quotes. A single quote needs no escape there. -/
def quotedChar (c : Char) : Text :=
  if c = '"' then ['\\', '"']
  else if c = '\\' then ['\\', '\\']
  else if c = '\t' then ['\\', 't']
  else if c = '\n' then ['\\', 'n']
  else if c = '\r' then ['\\', 'r']
  else if c = '\x00' then ['\\', '0']
  else if isUnprintable c then codePointEscape c.toNat
  else [c]

def quoted (t : Text) : Text :=
  '"' :: (t.flatMap quotedChar ++ ['"'])

end FileRemoval.Text
