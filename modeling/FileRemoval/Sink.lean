import FileRemoval.Text

/-! # Output that may fill up

A sink takes bytes until its room is used up. What does not fit is cut off, and the writer is told
so. A sink without a bound takes everything. -/

namespace FileRemoval

/-- The bytes taken so far, and how many more there is room for. -/
structure Sink where
  taken : Bytes
  room : Option Nat
deriving DecidableEq, Repr

namespace Sink

def ofLimit (limit : Option Nat) : Sink :=
  ⟨[], limit⟩

def write (s : Sink) (bytes : Bytes) : Sink × Bool :=
  match s.room with
  | none => (⟨s.taken ++ bytes, none⟩, true)
  | some n => (⟨s.taken ++ bytes.take n, some (n - bytes.length)⟩, decide (bytes.length ≤ n))

theorem taken_write_ofLimit (n : Nat) (bytes : Bytes) :
    ((ofLimit (some n)).write bytes).1.taken = bytes.take n := rfl

end Sink

end FileRemoval
