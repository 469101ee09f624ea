import FileRemoval.Text

/-! # Handles of open files -/

namespace FileRemoval

structure Handle where
  index : Nat
deriving DecidableEq, Ord, Repr

def maxOpenFiles : Nat := 16

def decimal (n : Nat) : Text :=
  Nat.toDigits 10 n

/-- A handle as log lines show it: its number after a hash sign. -/
def Handle.text (h : Handle) : Text :=
  '#' :: decimal h.index

end FileRemoval
