/-
Module: ChipEight.Screen.Operation
Purpose: What a host can do with a screen, as data, and what it is told. A place that the screen
  does not have is refused, and the screen stays as it was.
Main exports: OffScreen, Screen.Operation, Screen.Answer, Screen.perform
-/
import ChipEight.Screen.Render

namespace ChipEight

/-- A place that the screen does not have. -/
structure OffScreen where
  x : Nat
  y : Nat
deriving DecidableEq, Repr

/-- The wording of the error. -/
def OffScreen.message (e : OffScreen) : String :=
  "pixel (" ++ Numeral.decimal e.x ++ ", " ++ Numeral.decimal e.y ++ ") off screen"

namespace Screen

/-- A host's dealing with a screen. -/
inductive Operation where
  /-- Invert a pixel and ask whether it was lit. -/
  | toggle (x y : Nat)
  /-- Ask whether a pixel is lit. -/
  | pixel (x y : Nat)
  | clear
  /-- Ask whether a frame is waiting. -/
  | isPending
  | setPending (pending : Bool)
  /-- Ask whether a frame is waiting, and take it. -/
  | takePending
  /-- Ask for the colours of all cells. -/
  | colors (palette : Palette)
deriving DecidableEq, Repr

/-- What a host is told. -/
inductive Answer where
  | done
  | flag (value : Bool)
  | colors (cells : List Rgb)
  | refused (place : OffScreen)
deriving DecidableEq, Repr

/-- Carries out an operation. -/
def perform (s : Screen) : Operation → Answer × Screen
  | .toggle x y =>
    match Pixel.ofCoordinates? x y with
    | some p => let (hit, s') := s.toggle p; (.flag hit, s')
    | none => (.refused ⟨x, y⟩, s)
  | .pixel x y =>
    match Pixel.ofCoordinates? x y with
    | some p => (.flag (s.isLit p), s)
    | none => (.refused ⟨x, y⟩, s)
  | .clear => (.done, s.clear)
  | .isPending => (.flag s.pending, s)
  | .setPending pending => (.done, { s with pending })
  | .takePending => let (waiting, s') := s.takePending; (.flag waiting, s')
  | .colors palette => (.colors (s.colors palette), s)

end Screen

end ChipEight
