/-! # Texts and byte strings

Paths and messages are texts: sequences of Unicode characters. Host names, program arguments and
output are byte strings, which need not be UTF-8. A text becomes bytes in UTF-8; back, either
strictly or with a mark in place of each malformed sequence. -/

namespace FileRemoval

abbrev Bytes := List UInt8

abbrev Text := List Char

namespace Text

/-! ### Encoding -/

def utf8 (t : Text) : Bytes :=
  t.flatMap String.utf8EncodeChar

def byteLength (t : Text) : Nat :=
  (utf8 t).length

def ofUtf8? (bytes : Bytes) : Option Text :=
  bytes.toByteArray.utf8Decode?.map Array.toList

@[simp] theorem utf8_nil : utf8 [] = [] := rfl

@[simp] theorem utf8_cons (c : Char) (t : Text) :
    utf8 (c :: t) = String.utf8EncodeChar c ++ utf8 t := rfl

@[simp] theorem utf8_append (s t : Text) : utf8 (s ++ t) = utf8 s ++ utf8 t := by
  simp only [utf8, List.flatMap_append]

theorem utf8_toByteArray (t : Text) : (utf8 t).toByteArray = List.utf8Encode t := rfl

@[simp] theorem ofUtf8?_utf8 (t : Text) : ofUtf8? (utf8 t) = some t := by
  simp only [ofUtf8?, utf8_toByteArray, List.utf8Decode?_utf8Encode, Option.map_some]

theorem utf8_injective {s t : Text} (h : utf8 s = utf8 t) : s = t := by
  have := congrArg ofUtf8? h
  simpa only [ofUtf8?_utf8, Option.some.injEq] using this

@[simp] theorem byteLength_nil : byteLength [] = 0 := rfl

@[simp] theorem byteLength_cons (c : Char) (t : Text) :
    byteLength (c :: t) = c.utf8Size + byteLength t := by
  simp only [byteLength, utf8_cons, List.length_append, String.length_utf8EncodeChar]

@[simp] theorem byteLength_append (s t : Text) :
    byteLength (s ++ t) = byteLength s + byteLength t := by
  simp only [byteLength, utf8_append, List.length_append]

theorem byteLength_pos {t : Text} (h : t ≠ []) : 0 < byteLength t := by
  obtain ⟨c, rest, rfl⟩ := List.exists_cons_of_ne_nil h
  have size := Char.utf8Size_pos c
  rw [byteLength_cons]
  omega

/-! ### Reading bytes that may be malformed -/

def replacement : Char := '\uFFFD'

/-- A multi-byte sequence of which a proper part was read: the bits so far, how many bytes are
still due, and the range that the next one has to lie in. -/
structure OpenSequence where
  bits : Nat
  due : Nat
  least : UInt8
  most : UInt8

inductive Lead where
  | single (c : Char)
  | opens (s : OpenSequence)
  | stray

/-- The ranges of the second byte keep out overlong forms, surrogates and values past U+10FFFF. -/
def Lead.ofByte (b : UInt8) : Lead :=
  if b < 0x80 then .single (Char.ofNat b.toNat)
  else if b < 0xC2 then .stray
  else if b < 0xE0 then .opens ⟨b.toNat - 0xC0, 1, 0x80, 0xBF⟩
  else if b = 0xE0 then .opens ⟨0, 2, 0xA0, 0xBF⟩
  else if b = 0xED then .opens ⟨0xD, 2, 0x80, 0x9F⟩
  else if b < 0xF0 then .opens ⟨b.toNat - 0xE0, 2, 0x80, 0xBF⟩
  else if b = 0xF0 then .opens ⟨0, 3, 0x90, 0xBF⟩
  else if b < 0xF4 then .opens ⟨b.toNat - 0xF0, 3, 0x80, 0xBF⟩
  else if b = 0xF4 then .opens ⟨4, 3, 0x80, 0x8F⟩
  else .stray

def startSequence (b : UInt8) : Text × Option OpenSequence :=
  match Lead.ofByte b with
  | .single c => ([c], none)
  | .opens s => ([], some s)
  | .stray => ([replacement], none)

/-- One byte further. A byte that cannot continue the open sequence ends it with one mark and is
then read as the start of the next. -/
def readByte (pending : Option OpenSequence) (b : UInt8) : Text × Option OpenSequence :=
  match pending with
  | none => startSequence b
  | some s =>
    if s.least ≤ b ∧ b ≤ s.most then
      let bits := s.bits * 64 + (b.toNat - 0x80)
      if s.due ≤ 1 then ([Char.ofNat bits], none)
      else ([], some ⟨bits, s.due - 1, 0x80, 0xBF⟩)
    else
      let (marks, opened) := startSequence b
      (replacement :: marks, opened)

def readOn : Option OpenSequence → Bytes → Text
  | none, [] => []
  | some _, [] => [replacement]
  | pending, b :: rest => (readByte pending b).1 ++ readOn (readByte pending b).2 rest

/-- The text of `bytes`, with one mark for each longest part that starts a sequence but does not
complete it, and for each byte that starts none. -/
def ofUtf8Marked (bytes : Bytes) : Text :=
  readOn none bytes

end Text

end FileRemoval
