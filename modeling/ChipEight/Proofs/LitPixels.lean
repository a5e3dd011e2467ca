/-
Module: ChipEight.Proofs.LitPixels
Purpose: The screen as a set of lit pixels. Whatever a host does with a dark screen, a pixel is lit
  if it was inverted an odd number of times since the screen was last cleared. Its byte is the
  parity of that number, no two pixels share a byte, and a place off the screen has none, so that
  nothing else comes into it. Inverting a pixel answers what asking for it would have answered, and
  the colours show the same pixels, row after row.
Main exports: Screen.after, Screen.togglesSinceClear, Screen.cell_after, Screen.getElem?_colors,
  Screen.lit_iff_toggled_oddly
-/
import ChipEight.Proofs.SpriteComposition
import ChipEight.Screen.Operation

namespace ChipEight

theorem Pixel.ofCoordinates?_eq_some {x y : Nat} {p : Pixel} :
    ofCoordinates? x y = some p ↔ x = p.x ∧ y = p.y := by
  rw [ofCoordinates?]
  constructor
  · intro named
    split at named
    · cases named
      exact ⟨rfl, rfl⟩
    · cases named
  · rintro ⟨rfl, rfl⟩
    exact dif_pos ⟨p.x.isLt, p.y.isLt⟩

theorem Pixel.ofCoordinates?_eq_none {x y : Nat} (outside : ¬(x < 64 ∧ y < 32)) :
    ofCoordinates? x y = none :=
  dif_neg outside

namespace Screen

variable {s : Screen} {history : List Operation} {p : Pixel}

/-! ### Histories of a screen -/

/-- The screen after some operations. -/
def after (s : Screen) (operations : List Operation) : Screen :=
  operations.foldl (fun s operation => (s.perform operation).2) s

theorem after_concat (s : Screen) (operations : List Operation) (operation : Operation) :
    s.after (operations ++ [operation]) = ((s.after operations).perform operation).2 := by
  simp [after]

/-- How often a place was inverted since the screen was last cleared. -/
def togglesSinceClear (history : List Operation) (x y : Nat) : Nat :=
  (history.rtakeWhile (· ≠ .clear)).count (.toggle x y)

@[simp] theorem togglesSinceClear_concat_clear (history : List Operation) (x y : Nat) :
    togglesSinceClear (history ++ [.clear]) x y = 0 := by
  simp [togglesSinceClear]

theorem togglesSinceClear_concat {operation : Operation} (uncleared : operation ≠ .clear)
    (history : List Operation) (x y : Nat) :
    togglesSinceClear (history ++ [operation]) x y =
      togglesSinceClear history x y + if operation = .toggle x y then 1 else 0 := by
  simp [togglesSinceClear, uncleared, List.count_singleton]

/-- An operation that does not clear the screen inverts the pixel that it names, if it is to invert
    one, and leaves the bytes of all others. -/
theorem cell_perform {operation : Operation} (uncleared : operation ≠ .clear) (s : Screen)
    (p : Pixel) :
    (s.perform operation).2.cell p =
      s.cell p ^^^ parity (if operation = .toggle p.x p.y then 1 else 0) := by
  cases operation with
  | toggle x y =>
      have names : (.toggle x y : Operation) = .toggle p.x p.y ↔
          Pixel.ofCoordinates? x y = some p := by
        simp [Pixel.ofCoordinates?_eq_some]
      rw [perform]
      simp only [names]
      cases Pixel.ofCoordinates? x y with
      | some q =>
          show (s.toggle q).2.cell p = _
          rw [cell_toggle]
          by_cases same : p = q
          · simp [same, parity]
          · simp [same, Ne.symm same, parity]
      | none => simp [parity]
  | pixel x y =>
      rw [perform]
      cases Pixel.ofCoordinates? x y <;> simp [parity]
  | clear => exact absurd rfl uncleared
  | isPending | setPending | takePending | colors => simp [perform, takePending, cell, parity]

/-- The byte of a pixel is the parity of the number of times that it was inverted. -/
theorem cell_after (history : List Operation) (p : Pixel) :
    (dark.after history).cell p = parity (togglesSinceClear history p.x p.y) := by
  induction history using List.reverseRecOn with
  | nil => simp [after, dark, cell, togglesSinceClear, parity]
  | append_singleton history operation inductionHypothesis =>
      rw [after_concat]
      by_cases cleared : operation = .clear
      · subst cleared
        simp [perform, clear, dark, cell, parity]
      · rw [cell_perform cleared, inductionHypothesis, togglesSinceClear_concat cleared, parity_add]

theorem isLit_after (history : List Operation) (p : Pixel) :
    (dark.after history).isLit p = decide (togglesSinceClear history p.x p.y % 2 = 1) := by
  rw [isLit, cell_after, parity]
  split
  case isTrue odd => simp [odd]
  case isFalse even => simp [even]

/-! ### What a host is told -/

/-- A place off the screen is refused, and nothing changes. -/
theorem perform_of_offScreen {operation : Operation} {place : OffScreen} (s : Screen)
    (outside : ¬(place.x < 64 ∧ place.y < 32))
    (names : operation = .toggle place.x place.y ∨ operation = .pixel place.x place.y) :
    s.perform operation = (.refused place, s) := by
  rcases names with rfl | rfl
  · rw [perform, Pixel.ofCoordinates?_eq_none outside]
  · rw [perform, Pixel.ofCoordinates?_eq_none outside]

/-- Inverting a place answers what asking for it would have answered. -/
theorem answer_toggle (s : Screen) (x y : Nat) :
    (s.perform (.toggle x y)).1 = (s.perform (.pixel x y)).1 := by
  rw [perform, perform]
  cases Pixel.ofCoordinates? x y with
  | some p => rfl
  | none => rfl

/-- Asking for a pixel tells whether it is lit, and changes nothing. -/
theorem perform_pixel (s : Screen) (p : Pixel) :
    s.perform (.pixel p.x p.y) = (.flag (s.isLit p), s) := by
  rw [perform, Pixel.ofCoordinates?_eq_some.mpr ⟨rfl, rfl⟩]

theorem length_colors (s : Screen) (palette : Palette) : (s.colors palette).length = 2048 := by
  simp [colors]

/-- The colours show the pixels row after row. -/
theorem getElem?_colors (s : Screen) (palette : Palette) (p : Pixel) :
    (s.colors palette)[p.x.val + 64 * p.y.val]? =
      some (if s.isLit p then palette.foreground else palette.background) := by
  have inside : p.x.val + 64 * p.y.val < 2048 := p.index.isLt
  have shown : (s.colors palette)[p.x.val + 64 * p.y.val]? = some (palette.color (s.cell p)) := by
    simp [colors, inside, cell, Pixel.index]
  rw [shown, Palette.color, isLit]
  by_cases unlit : s.cell p = 0
  · simp [unlit]
  · simp [unlit]

/-- A pixel is lit if it was inverted an odd number of times since the screen was last cleared.
    After every history of a screen that is dark at first, asking for a pixel tells just that;
    inverting a place answers what asking for it would have answered; a place off the screen is
    refused, and nothing changes; and there is a colour for each of the 2048 pixels, row after row,
    which is the foreground where the pixel is lit and the background where it is not. -/
theorem lit_iff_toggled_oddly (history : List Operation) :
    (∀ x y, x < 64 → y < 32 → (dark.after history).perform (.pixel x y) =
      (.flag (decide (togglesSinceClear history x y % 2 = 1)), dark.after history)) ∧
    (∀ x y, ((dark.after history).perform (.toggle x y)).1 =
      ((dark.after history).perform (.pixel x y)).1) ∧
    (∀ x y, ¬(x < 64 ∧ y < 32) →
      (dark.after history).perform (.toggle x y) = (.refused ⟨x, y⟩, dark.after history) ∧
      (dark.after history).perform (.pixel x y) = (.refused ⟨x, y⟩, dark.after history)) ∧
    ∀ palette, ∃ shown,
      (dark.after history).perform (.colors palette) = (.colors shown, dark.after history) ∧
      shown.length = 2048 ∧
      ∀ x y, x < 64 → y < 32 → shown[x + 64 * y]? =
        some (if ((dark.after history).perform (.pixel x y)).1 = .flag true then palette.foreground
          else palette.background) := by
  refine ⟨?_, answer_toggle _, ?_, ?_⟩
  · intro x y column row
    have asked := (dark.after history).perform_pixel ⟨⟨x, column⟩, ⟨y, row⟩⟩
    rw [isLit_after] at asked
    exact asked
  · intro x y outside
    exact ⟨perform_of_offScreen _ outside (.inl rfl), perform_of_offScreen _ outside (.inr rfl)⟩
  · intro palette
    refine ⟨(dark.after history).colors palette, rfl, length_colors _ _, ?_⟩
    intro x y column row
    have asked := (dark.after history).perform_pixel ⟨⟨x, column⟩, ⟨y, row⟩⟩
    have painted := (dark.after history).getElem?_colors palette ⟨⟨x, column⟩, ⟨y, row⟩⟩
    rw [asked, painted]
    simp

/-- A host inverts the corner before and behind a clearing, and twice behind it names a place off
    the screen that would share its cell. -/
def cornerHistory : List Operation :=
  [.toggle 0 1, .clear, .toggle 64 0, .toggle 0 1, .setPending false, .pixel 64 0, .toggle 0 2,
    .toggle 0 2]

/-- The corner is lit, for it was inverted once since the clearing, and shown in the foreground; the
    pixel below is dark again; and the place off the screen is refused. -/
theorem lit_iff_toggled_oddly_corner :
    ((dark.after cornerHistory).perform (.pixel 0 1)).1 = .flag true ∧
    ((dark.after cornerHistory).perform (.toggle 0 2)).1 = .flag false ∧
    ((dark.after cornerHistory).perform (.toggle 64 0)).1 = .refused ⟨64, 0⟩ ∧
    ∃ shown, ((dark.after cornerHistory).perform (.colors Palette.standard)).1 = .colors shown ∧
      shown[64]? = some Palette.standard.foreground := by
  obtain ⟨asked, inverted, refused, painted⟩ := lit_iff_toggled_oddly cornerHistory
  have odd : togglesSinceClear cornerHistory 0 1 = 1 := by decide
  have even : togglesSinceClear cornerHistory 0 2 = 2 := by decide
  have corner := asked 0 1 (by decide) (by decide)
  have below := asked 0 2 (by decide) (by decide)
  rw [odd] at corner
  rw [even] at below
  obtain ⟨shown, colored, -, placed⟩ := painted Palette.standard
  have first := placed 0 1 (by decide) (by decide)
  rw [corner] at first
  refine ⟨by rw [corner]; rfl, ?_, ?_, shown, by rw [colored], first⟩
  · rw [inverted, below]
    rfl
  · rw [(refused 64 0 (by decide)).1]

end Screen

end ChipEight
