import FileRemoval.Text

/-! # The order of texts

Texts are in the order of their characters. That is the order of their UTF-8 bytes too: of two
characters the greater one has the greater encoding, and no encoding goes on from another. -/

namespace FileRemoval.Text

/-! ### Bytes of one character -/

/-- A byte after the first: a mark, and six bits of the code point. -/
def trailing (code : Nat) : UInt8 :=
  UInt8.ofNat (code % 64 + 128)

theorem toNat_trailing (code : Nat) : (trailing code).toNat = code % 64 + 128 := by
  rw [trailing, UInt8.toNat_ofNat']
  omega

theorem utf8EncodeChar_cases (c : Char) :
    let code := c.val.toNat
    ∃ lead rest, String.utf8EncodeChar c = lead :: rest ∧
      ((code < 128 ∧ lead.toNat = code ∧ rest = []) ∨
      (128 ≤ code ∧ code < 2048 ∧ lead.toNat = code / 64 + 192 ∧ rest = [trailing code]) ∨
      (2048 ≤ code ∧ code < 65536 ∧ lead.toNat = code / 4096 + 224 ∧
        rest = [trailing (code / 64), trailing code]) ∨
      (65536 ≤ code ∧ lead.toNat = code / 262144 + 240 ∧
        rest = [trailing (code / 4096), trailing (code / 64), trailing code])) := by
  intro code
  have valid : code < 0x110000 := by
    have valid := c.valid
    simp only [UInt32.isValidChar, Nat.isValidChar] at valid
    omega
  simp only [String.utf8EncodeChar]
  split
  · refine ⟨_, _, rfl, .inl ⟨by omega, ?_, rfl⟩⟩
    rw [UInt8.toNat_ofNat']
    omega
  · split
    · refine ⟨_, _, rfl, .inr (.inl ⟨by omega, by omega, ?_, rfl⟩)⟩
      rw [UInt8.toNat_ofNat']
      omega
    · split
      · refine ⟨_, _, rfl, .inr (.inr (.inl ⟨by omega, by omega, ?_, rfl⟩))⟩
        rw [UInt8.toNat_ofNat']
        omega
      · refine ⟨_, _, rfl, .inr (.inr (.inr ⟨by omega, ?_, rfl⟩))⟩
        rw [UInt8.toNat_ofNat']
        omega

/-! ### Order -/

theorem compare_append {α : Type} [Ord α] [Std.ReflOrd α] (lead a b : List α) :
    compare (lead ++ a) (lead ++ b) = compare a b := by
  induction lead with
  | nil => rfl
  | cons c rest ih =>
    have step : compare (c :: (rest ++ a)) (c :: (rest ++ b)) =
        (compare c c).then (compare (rest ++ a) (rest ++ b)) :=
      List.compareLex_cons_cons
    have same : compare c c = .eq := Std.ReflOrd.compare_self
    rw [List.cons_append, List.cons_append, step, same, ih]
    rfl

theorem compare_cons_eq_lt {a b : UInt8} {s t : Bytes} (notAbove : a.toNat ≤ b.toNat)
    (later : a.toNat = b.toNat → compare s t = .lt) : compare (a :: s) (b :: t) = .lt := by
  have step : compare (a :: s) (b :: t) = (compare a b).then (compare s t) :=
    List.compareLex_cons_cons
  rw [step]
  rcases Nat.lt_or_eq_of_le notAbove with less | same
  · have below : compare a b = .lt := Std.compare_eq_lt.mpr (UInt8.lt_iff_toNat_lt.mpr less)
    rw [below]
    rfl
  · have equal : compare a b = .eq := Std.compare_eq_iff_eq.mpr (UInt8.toNat_inj.mp same)
    rw [equal, later same]
    rfl

theorem compare_trailing {code other : Nat} {s t : Bytes} (notAbove : code % 64 ≤ other % 64)
    (later : code % 64 = other % 64 → compare s t = .lt) :
    compare (trailing code :: s) (trailing other :: t) = .lt := by
  have first := toNat_trailing code
  have second := toNat_trailing other
  exact compare_cons_eq_lt (by omega) fun same => later (by omega)

theorem compare_utf8EncodeChar {c d : Char} (less : c < d) (s t : Bytes) :
    compare (String.utf8EncodeChar c ++ s) (String.utf8EncodeChar d ++ t) = .lt := by
  have below : c.val.toNat < d.val.toNat := UInt32.lt_iff_toNat_lt.mp less
  obtain ⟨lead, rest, encoded, form⟩ := utf8EncodeChar_cases c
  obtain ⟨lead', rest', encoded', form'⟩ := utf8EncodeChar_cases d
  rw [encoded, encoded', List.cons_append, List.cons_append]
  refine compare_cons_eq_lt (by omega) fun same => ?_
  -- one lead byte means one length
  rcases form with ⟨_, _, rfl⟩ | ⟨_, _, _, rfl⟩ | ⟨_, _, _, rfl⟩ | ⟨_, _, rfl⟩ <;>
    rcases form' with ⟨_, _, rfl⟩ | ⟨_, _, _, rfl⟩ | ⟨_, _, _, rfl⟩ | ⟨_, _, rfl⟩ <;> try omega
  · exact compare_trailing (by omega) fun last => by omega
  · exact compare_trailing (by omega) fun middle =>
      compare_trailing (by omega) fun last => by omega
  · exact compare_trailing (by omega) fun high => compare_trailing (by omega) fun middle =>
      compare_trailing (by omega) fun last => by omega

theorem lt_of_compare {c d : Char} (h : compare c d = .lt) : c < d :=
  compareOfLessAndEq_eq_lt.mp h

/-- The order of texts is the order of their bytes. -/
theorem compare_utf8 (s t : Text) : compare s.utf8 t.utf8 = compare s t := by
  induction s generalizing t with
  | nil =>
    cases t with
    | nil => rfl
    | cons d t =>
      obtain ⟨lead, rest, encoded, -⟩ := utf8EncodeChar_cases d
      rw [utf8_cons, encoded]
      rfl
  | cons c s ih =>
    cases t with
    | nil =>
      obtain ⟨lead, rest, encoded, -⟩ := utf8EncodeChar_cases c
      rw [utf8_cons, encoded]
      rfl
    | cons d t =>
      have step : compare (c :: s) (d :: t) = (compare c d).then (compare s t) :=
        List.compareLex_cons_cons
      rw [step, utf8_cons, utf8_cons]
      cases order : compare c d with
      | lt => exact compare_utf8EncodeChar (lt_of_compare order) _ _
      | eq =>
        rw [Std.compare_eq_iff_eq.mp order, compare_append, ih]
        rfl
      | gt =>
        have above := lt_of_compare (Std.OrientedCmp.lt_of_gt order)
        exact Std.OrientedCmp.gt_of_lt (compare_utf8EncodeChar above _ _)

end FileRemoval.Text
