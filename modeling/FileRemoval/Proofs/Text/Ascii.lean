import FileRemoval.Text

/-! # ASCII bytes in UTF-8

A byte below 128 in the encoding of a text comes from the character with that number and from no
other, so a slash or a NUL among the bytes is one in the text. -/

namespace FileRemoval.Text

theorem le_toNat_or (a b : UInt8) : b.toNat ≤ (a ||| b).toNat := by
  rw [UInt8.toNat_or]
  exact Nat.right_le_or

/-- Every byte of an encoding with more than one is 128 or above. -/
theorem le_of_mem_utf8EncodeChar {c : Char} (h : c.utf8Size ≠ 1) {b : UInt8}
    (member : b ∈ String.utf8EncodeChar c) : 128 ≤ b.toNat := by
  have sizes := Char.utf8Size_le_four c
  have positive := Char.utf8Size_pos c
  have marked (a : UInt8) := le_toNat_or a 0x80
  have lead2 (a : UInt8) := le_toNat_or a 0xc0
  have lead3 (a : UInt8) := le_toNat_or a 0xe0
  have lead4 (a : UInt8) := le_toNat_or a 0xf0
  have split : c.utf8Size = 2 ∨ c.utf8Size = 3 ∨ c.utf8Size = 4 := by omega
  rcases split with two | three | four
  · rw [String.utf8EncodeChar_eq_cons_cons two] at member
    simp only [List.mem_cons, List.not_mem_nil, or_false] at member
    rcases member with rfl | rfl
    · exact Nat.le_trans (by decide) (lead2 _)
    · exact marked _
  · rw [String.utf8EncodeChar_eq_cons_cons_cons three] at member
    simp only [List.mem_cons, List.not_mem_nil, or_false] at member
    rcases member with rfl | rfl | rfl
    · exact Nat.le_trans (by decide) (lead3 _)
    · exact marked _
    · exact marked _
  · rw [String.utf8EncodeChar_eq_cons_cons_cons_cons four] at member
    simp only [List.mem_cons, List.not_mem_nil, or_false] at member
    rcases member with rfl | rfl | rfl | rfl
    · exact Nat.le_trans (by decide) (lead4 _)
    · exact marked _
    · exact marked _
    · exact marked _

theorem eq_of_mem_utf8EncodeChar {c d : Char} (ascii : d.toNat < 128)
    (member : d.toUInt8 ∈ String.utf8EncodeChar c) : c = d := by
  have number : d.toUInt8.toNat = d.toNat := by
    show d.val.toUInt8.toNat = d.val.toNat
    rw [UInt32.toNat_toUInt8]
    exact Nat.mod_eq_of_lt (Nat.lt_trans ascii (by decide))
  by_cases one : c.utf8Size = 1
  · have small : c.val.toNat ≤ 127 := UInt32.le_iff_toNat_le.mp (Char.utf8Size_eq_one_iff.mp one)
    rw [String.utf8EncodeChar_eq_singleton one, List.mem_singleton] at member
    have same : d.toNat = c.val.toNat := by
      rw [← number, member, UInt32.toNat_toUInt8]
      exact Nat.mod_eq_of_lt (by omega)
    exact Char.ext (UInt32.toNat_inj.mp same.symm)
  · have high := le_of_mem_utf8EncodeChar one member
    omega

theorem mem_of_mem_utf8 {t : Text} {d : Char} (ascii : d.toNat < 128)
    (member : d.toUInt8 ∈ utf8 t) : d ∈ t := by
  obtain ⟨c, inside, encoded⟩ := List.mem_flatMap.mp member
  rw [← eq_of_mem_utf8EncodeChar ascii encoded]
  exact inside

/-- An ASCII character stands among the bytes of a text as often as in the text. -/
theorem count_utf8 {d : Char} (ascii : d.toNat < 128) (t : Text) :
    (utf8 t).count d.toUInt8 = t.count d := by
  induction t with
  | nil => rfl
  | cons c rest ih =>
    rw [utf8_cons, List.count_append, ih]
    by_cases same : c = d
    · have one : c.utf8Size = 1 :=
        Char.utf8Size_eq_one_iff.mpr (UInt32.le_iff_toNat_le.mpr (by subst same; exact Nat.le_of_lt_succ ascii))
      rw [String.utf8EncodeChar_eq_singleton one, same, List.count_cons_self]
      have alone : [d.val.toUInt8].count d.toUInt8 = 1 := List.count_singleton_self
      omega
    · have absent : (String.utf8EncodeChar c).count d.toUInt8 = 0 :=
        List.count_eq_zero.mpr fun member => same (eq_of_mem_utf8EncodeChar ascii member)
      rw [absent, List.count_cons_of_ne same, Nat.zero_add]

theorem utf8_eq_nil {t : Text} : utf8 t = [] ↔ t = [] := by
  constructor
  · intro empty
    exact utf8_injective (empty.trans utf8_nil.symm)
  · intro empty
    rw [empty, utf8_nil]

end FileRemoval.Text
