/-
Module: ChipEight.Color
Purpose: Colours of three channels, their hexadecimal text, and the palette that gives screen cells
  their colours. A colour is written as six hexadecimal digits, two for each channel, with or
  without one mark `0x` in front.
Main exports: Rgb, ColorError, Rgb.parse, Palette, Palette.color
-/
import ChipEight.Text.Quoted

namespace ChipEight

/-- A colour of 24 bits. -/
structure Rgb where
  r : UInt8
  g : UInt8
  b : UInt8
deriving DecidableEq, Repr, Inhabited

/-- A text that is no colour. -/
structure ColorError where
  text : String
deriving DecidableEq, Repr

/-- The wording of the error. -/
def ColorError.message (e : ColorError) : String :=
  "failed to parse hex color " ++ quoted e.text ++ ", expected 0xRRGGBB"

namespace Rgb

/-- The colour as its bytes, in the order of a picture file. -/
def bytes (c : Rgb) : List UInt8 := [c.r, c.g, c.b]

/-- The byte that two hexadecimal digits write. -/
def channel? (high low : Char) : Option UInt8 :=
  (Numeral.readHex? [high, low]).map UInt8.ofNat

/-- A text without the one mark `0x` that may lead it. -/
def dropMark : List Char → List Char
  | '0' :: 'x' :: rest => rest
  | text => text

/-- The colour that a text writes. -/
def ofText? (text : List Char) : Option Rgb :=
  match dropMark text with
  | [r₁, r₀, g₁, g₀, b₁, b₀] => do
    let r ← channel? r₁ r₀
    let g ← channel? g₁ g₀
    let b ← channel? b₁ b₀
    return ⟨r, g, b⟩
  | _ => none

/-- Reads a colour, or tells which text is none. -/
def parse (text : String) : Except ColorError Rgb :=
  match ofText? text.toList with
  | some c => .ok c
  | none => .error ⟨text⟩

end Rgb

/-- The two colours of a picture. -/
structure Palette where
  foreground : Rgb
  background : Rgb
deriving DecidableEq, Repr

namespace Palette

/-- White on black. -/
def standard : Palette := ⟨⟨255, 255, 255⟩, ⟨0, 0, 0⟩⟩

/-- The colour of a screen cell: every cell but a zero is lit. -/
def color (p : Palette) (cell : UInt8) : Rgb :=
  if cell = 0 then p.background else p.foreground

end Palette

end ChipEight
