/-
Module: ChipEight.Text.Quoted
Purpose: Texts in quotation marks, for messages. What could end the quotation or could not be seen
  is written as an escape: the common controls, the quotation mark and the backslash by a letter or
  by themselves after a backslash, and every other character that is unprintable, ignorable or drawn
  on its neighbour by its code point.
Main exports: Quoted.isIgnorable, Quoted.hides, Quoted.escape, quoted
-/
import ChipEight.Text.Combining
import ChipEight.Text.Numeral

namespace ChipEight

namespace Quoted

/-- The ranges of the property Default_Ignorable_Code_Point of Unicode 17.0. Most of its members are
    format characters or marks; the fillers of the Hangul script are letters. -/
def ignorableRanges : List (Nat × Nat) := [
  (0xAD, 0xAD), (0x34F, 0x34F), (0x61C, 0x61C), (0x115F, 0x1160), (0x17B4, 0x17B5),
  (0x180B, 0x180F), (0x200B, 0x200F), (0x202A, 0x202E), (0x2060, 0x206F), (0x3164, 0x3164),
  (0xFE00, 0xFE0F), (0xFEFF, 0xFEFF), (0xFFA0, 0xFFA0), (0xFFF0, 0xFFF8), (0x1BCA0, 0x1BCA3),
  (0x1D173, 0x1D17A), (0xE0000, 0xE0FFF)]

/-- The character is drawn as nothing at all. -/
def isIgnorable (c : Char) : Bool := CodePoints.contains ignorableRanges c

/-- The character cannot be read off a text by itself. -/
def hides (c : Char) : Bool :=
  Unprintable.isUnprintable c || isIgnorable c || Combining.attaches c

/-- How one character is written between quotation marks. -/
def escape (c : Char) : String :=
  if c = '\x00' then "\\0"
  else if c = '\t' then "\\t"
  else if c = '\r' then "\\r"
  else if c = '\n' then "\\n"
  else if c = '"' then "\\\""
  else if c = '\\' then "\\\\"
  else if hides c then
    "\\u\x7b" ++ Numeral.hex 1 c.toNat ++ "\x7d"
  else String.singleton c

end Quoted

/-- A text in quotation marks. -/
def quoted (text : String) : String :=
  "\"" ++ String.join (text.toList.map Quoted.escape) ++ "\""

end ChipEight
