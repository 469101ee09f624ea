import FileRemoval.Text
import FileRemoval.Text.Extenders
import FileRemoval.Text.Unassigned

/-! # Characters that cannot be shown as they are

A character is shown if a reader can see it by itself. That leaves out the hidden ones, those that
only extend another, and the code points that stand for no character. -/

namespace FileRemoval.Text

/-- Ranges of the controls, the format characters, the surrogates, the private use areas, the
separators other than the space, and the letters that are drawn as nothing (property
Default_Ignorable_Code_Point), in Unicode 17. -/
def hidden : List (Nat × Nat) :=
  [(0x0, 0x1F), (0x7F, 0xA0), (0xAD, 0xAD), (0x600, 0x605), (0x61C, 0x61C), (0x6DD, 0x6DD),
   (0x70F, 0x70F), (0x890, 0x891), (0x8E2, 0x8E2), (0x115F, 0x1160), (0x1680, 0x1680),
   (0x180E, 0x180E), (0x2000, 0x200F), (0x2028, 0x202F), (0x205F, 0x2064), (0x2066, 0x206F),
   (0x3000, 0x3000), (0x3164, 0x3164), (0xD800, 0xF8FF), (0xFEFF, 0xFEFF), (0xFFA0, 0xFFA0),
   (0xFFF9, 0xFFFB), (0x110BD, 0x110BD), (0x110CD, 0x110CD), (0x13430, 0x1343F), (0x1BCA0, 0x1BCA3),
   (0x1D173, 0x1D17A), (0xE0001, 0xE0001), (0xE0020, 0xE007F), (0xF0000, 0xFFFFD),
   (0x100000, 0x10FFFD)]

def inRanges (ranges : List (Nat × Nat)) (code : Nat) : Bool :=
  ranges.any fun r => r.1 ≤ code && code ≤ r.2

/-- A character that a log line must not hold as it is. Letters, digits and punctuation of ASCII
are settled without a look at the tables. -/
def isUnprintable (c : Char) : Bool :=
  if 0x20 ≤ c.toNat && c.toNat < 0x7F then false
  else inRanges hidden c.toNat || inRanges extenders c.toNat || inRanges unassigned c.toNat

end FileRemoval.Text
