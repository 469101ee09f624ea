import FileRemoval.SlotTable

/-! # Requests to a slot table -/

namespace FileRemoval.SlotTable

variable {α : Type}

/-- What can be asked of a slot table. `take` empties a slot, `retain` all whose element it is not
to keep. -/
inductive Request (α : Type) where
  | insert (a : α)
  | take (i : Nat)
  | get (i : Nat)
  | occupied
  | retain (keep : α → Bool)

inductive Answer (α : Type) where
  | index (i : Nat)
  | element (a : Option α)
  | count (n : Nat)
deriving DecidableEq, Repr

def perform : Request α → StateM (SlotTable α) (Answer α)
  | .insert a => fun t => (.index (t.insert a).2, (t.insert a).1)
  | .take i => fun t => (.element (t.get? i), t.erase i)
  | .get i => fun t => (.element (t.get? i), t)
  | .occupied => fun t => (.count t.occupied, t)
  | .retain keep => fun t => (.count (t.retain keep).2, (t.retain keep).1)

end FileRemoval.SlotTable
