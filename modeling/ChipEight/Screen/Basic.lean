/-
Module: ChipEight.Screen.Basic
Purpose: The screen: 64 by 32 cells, each a byte that is 1 where the screen is lit and 0 where it is
  dark, row after row, and a flag that tells a renderer that something was drawn. Drawing inverts
  cells one by one; a host may name any place, and one outside the screen is refused.
Main exports: Pixel, Pixel.ofCoordinates?, Screen, Screen.isLit, Screen.toggle, Screen.clear,
  Screen.takePending
-/

namespace ChipEight

/-- A place on the screen: the column from the left and the row from the top. -/
structure Pixel where
  x : Fin 64
  y : Fin 32
deriving DecidableEq, Repr

namespace Pixel

/-- Where the cell of a pixel stands among all cells. -/
def index (p : Pixel) : Fin 2048 := ⟨p.x + 64 * p.y, by omega⟩

/-- Different pixels have different cells. -/
theorem index_inj {p q : Pixel} : p.index = q.index ↔ p = q := by
  constructor
  · intro h
    have hv := congrArg Fin.val h
    simp only [index] at hv
    cases p
    cases q
    simp only [mk.injEq, Fin.ext_iff] at *
    omega
  · intro h
    rw [h]

/-- The pixel at a column and a row, if the screen has it. -/
def ofCoordinates? (x y : Nat) : Option Pixel :=
  if h : x < 64 ∧ y < 32 then some ⟨⟨x, h.1⟩, ⟨y, h.2⟩⟩ else none

end Pixel

/-- The cells of the screen and whether a renderer has yet to look at them. -/
structure Screen where
  cells : Vector UInt8 2048
  pending : Bool
deriving DecidableEq

namespace Screen

/-- How many columns there are. -/
def width : Nat := 64

/-- How many rows there are. -/
def height : Nat := 32

/-- A dark screen that no renderer has seen yet. -/
def dark : Screen := ⟨Vector.replicate 2048 0, true⟩

/-- The byte of a pixel. -/
def cell (s : Screen) (p : Pixel) : UInt8 := s.cells[p.index]

/-- The pixel is lit. -/
def isLit (s : Screen) (p : Pixel) : Bool := s.cell p != 0

/-- The screen with every cell dark. -/
def clear (_ : Screen) : Screen := dark

/-- Inverts a pixel, and tells whether it was lit before. -/
def toggle (s : Screen) (p : Pixel) : Bool × Screen :=
  (s.isLit p, ⟨s.cells.set p.index (s.cell p ^^^ 1), true⟩)

/-- Inverting a pixel changes the byte of that pixel alone. -/
theorem cell_toggle (s : Screen) (p q : Pixel) :
    (s.toggle p).2.cell q = if q = p then s.cell p ^^^ 1 else s.cell q := by
  simp only [cell, toggle, Fin.getElem_fin, Vector.getElem_set, Fin.val_inj, Pixel.index_inj,
    eq_comm]

/-- Inverts pixels one after the other, and tells whether any of them was lit when its turn came. -/
def toggleAll (s : Screen) : List Pixel → Bool × Screen
  | [] => (false, s)
  | p :: rest =>
    let (hit, s₁) := s.toggle p
    let (hits, s₂) := s₁.toggleAll rest
    (hit || hits, s₂)

/-- Says whether a frame was waiting, and takes it. -/
def takePending (s : Screen) : Bool × Screen :=
  (s.pending, { s with pending := false })

end Screen

end ChipEight
