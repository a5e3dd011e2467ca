/-
Module: ChipEight.Screen.Render
Purpose: The screen as a host shows it: as colours, as lines of text, and as a picture file. The
  picture is a binary pixmap: a text header with the sizes and the greatest channel value, then
  three bytes for each cell, row after row.
Main exports: Screen.colors, Screen.textLines, Screen.picture
-/
import ChipEight.Color
import ChipEight.Screen.Basic

namespace ChipEight.Screen

/-- The colours of all cells under a palette, row after row. -/
def colors (s : Screen) (p : Palette) : List Rgb :=
  s.cells.toList.map p.color

/-- How a cell looks in text. -/
def cellChar (lit : Bool) : Char := if lit then '█' else ' '

/-- A row as text, all 64 columns of it. -/
def fullRow (s : Screen) (y : Fin 32) : List Char :=
  (List.finRange 64).map fun x => cellChar (s.isLit ⟨x, y⟩)

/-- A text without the blanks at its end. -/
def trimBlanks (text : List Char) : List Char :=
  (text.reverse.dropWhile (· == ' ')).reverse

/-- The screen as 32 lines of text; blanks at the end of a line are left out. -/
def textLines (s : Screen) : List String :=
  (List.finRange 32).map fun y => String.ofList (trimBlanks (s.fullRow y))

/-- What stands in front of the colours in a picture file. -/
def pictureHeader : String := "P6\n64 32\n255\n"

/-- The screen as a picture file. -/
def picture (s : Screen) (p : Palette) : List UInt8 :=
  pictureHeader.toUTF8.toList ++ (s.colors p).flatMap Rgb.bytes

end ChipEight.Screen
