/-
Module: ChipEight.Sprite
Purpose: Sprites: up to fifteen rows of eight pixels, each row a byte of memory, the leftmost pixel
  its highest bit. A sprite has an origin inside the screen; what lies beyond the right or the lower
  edge is either cut off or goes on at the opposite edge. The pixels that a sprite inverts are
  worked out first, in drawing order, and the screen then inverts them.
Main exports: Sprite.place?, Sprite.isSet, Sprite.pixels
-/
import ChipEight.Memory
import ChipEight.Screen.Basic

namespace ChipEight.Sprite

/-- The coordinate `step` places after `origin` on an edge of `size` places, if it is drawn: beyond
    the end nothing is drawn, unless drawing wraps. -/
def place? (size : Nat) (wraps : Bool) (origin step : Nat) : Option (Fin size) :=
  if h : origin + step < size then some ⟨origin + step, h⟩
  else if wraps then
    if h : (origin + step) % size < size then some ⟨(origin + step) % size, h⟩ else none
  else none

/-- A row of a sprite has its pixel in the column set. -/
def isSet (row : UInt8) (column : Fin 8) : Bool :=
  row.toNat.testBit (7 - column)

/-- The pixels that one row of a sprite inverts, from left to right. -/
def rowPixels (wraps : Bool) (left : Nat) (y : Fin 32) (row : UInt8) : List Pixel :=
  (List.finRange 8).filterMap fun column =>
    if isSet row column then (place? 64 wraps left column).map fun x => ⟨x, y⟩ else none

/-- The pixels that a sprite of `height` rows at `address` inverts when its corner is at the column
    `x` and the row `y`, from top to bottom. The corner counts modulo the size of the screen. -/
def pixels (m : Memory) (address : UInt16) (height : Nat) (wraps : Bool) (x y : UInt8) :
    List Pixel :=
  (List.range height).flatMap fun r =>
    match place? 32 wraps (y.toNat % 32) r with
    | some y => rowPixels wraps (x.toNat % 64) y (m.read (address + UInt16.ofNat r))
    | none => []

end ChipEight.Sprite
