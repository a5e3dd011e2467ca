/-
Module: ChipEight.Dialect
Purpose: The points on which historical interpreters differ, as switches, and the settings of the
  interpreters that are known by name. With every switch off the plain instruction table holds:
  shifts work on VX in place, storing and loading registers leaves I alone, a jump with an offset
  adds V0, and sprites are cut off at the edges of the screen.
Main exports: Dialect, Platform, Platform.dialect
-/

namespace ChipEight

/-- A choice on every point where interpreters differ. -/
structure Dialect where
  /-- A shift takes VY as its source instead of VX. -/
  shiftReadsVY : Bool := false
  /-- Storing and loading registers leaves I behind the last one. -/
  transferMovesIndex : Bool := false
  /-- A jump with an offset adds the register that the top digit of its address names. -/
  jumpAddsVX : Bool := false
  /-- Sprites go on at the opposite edge of the screen. -/
  wrapsSprites : Bool := false
deriving DecidableEq, Repr, Inhabited

/-- The interpreters that are known by name. -/
inductive Platform where
  | cosmacVip
  | chip48
  | superChip
deriving DecidableEq, Repr, Inhabited

/-- The dialect of a platform. SUPER-CHIP keeps that of CHIP-48 on every point here. -/
def Platform.dialect : Platform → Dialect
  | .cosmacVip => { shiftReadsVY := true, transferMovesIndex := true }
  | .chip48 | .superChip => { jumpAddsVX := true }

end ChipEight
