/-
Module: ChipEight.Font
Purpose: Fonts of sixteen glyphs, one for each hexadecimal digit. A glyph is a sprite of five rows,
  so a font has eighty bytes, no more and no less.
Main exports: Font, Font.ofBytes?, Font.standard
-/

namespace ChipEight

/-- The glyphs of the digits 0 to F, one after the other. -/
abbrev Font := Vector UInt8 80

namespace Font

/-- How many bytes a font has. -/
def size : Nat := 80

/-- How many bytes a glyph has. -/
def glyphSize : Nat := 5

/-- The font that the bytes make up, if their number is right. -/
def ofBytes? (bytes : List UInt8) : Option Font :=
  if h : bytes.length = size then some ⟨bytes.toArray, by simpa [size] using h⟩ else none

/-- The font that a machine has unless it is given another. -/
def standard : Font := #v[
  0xF0, 0x90, 0x90, 0x90, 0xF0, -- 0
  0x20, 0x60, 0x20, 0x20, 0x70, -- 1
  0xF0, 0x10, 0xF0, 0x80, 0xF0, -- 2
  0xF0, 0x10, 0xF0, 0x10, 0xF0, -- 3
  0x90, 0x90, 0xF0, 0x10, 0x10, -- 4
  0xF0, 0x80, 0xF0, 0x10, 0xF0, -- 5
  0xF0, 0x80, 0xF0, 0x90, 0xF0, -- 6
  0xF0, 0x10, 0x20, 0x40, 0x40, -- 7
  0xF0, 0x90, 0xF0, 0x90, 0xF0, -- 8
  0xF0, 0x90, 0xF0, 0x10, 0xF0, -- 9
  0xF0, 0x90, 0xF0, 0x90, 0x90, -- A
  0xE0, 0x90, 0xE0, 0x90, 0xE0, -- B
  0xF0, 0x80, 0x80, 0x80, 0xF0, -- C
  0xE0, 0x90, 0x90, 0x90, 0xE0, -- D
  0xF0, 0x80, 0xF0, 0x80, 0xF0, -- E
  0xF0, 0x80, 0xF0, 0x80, 0x80  -- F
]

end Font

end ChipEight
