/-
Module: ChipEight.Proofs.SpriteComposition
Purpose: Several sprites on one screen. Drawing inverts, so what a list of sprites makes of a cell is a
  matter of parity: it is inverted once for every bit that lands on it, which is once for every sprite
  that covers it, in whatever order they are drawn, and drawing them all a second time undoes the
  first. So a sprite that is drawn twice leaves the screen as it was; the second time the flag tells
  whether the first one lit a pixel.
Main exports: parity, Screen.cell_toggleAll, Sprite.Placement, Sprite.Placement.Covers,
  Sprite.Placement.bitsOn, Screen.drawSprites, Screen.cell_drawSprites,
  Screen.cell_drawSprites_of_perm, Screen.cell_drawSprites_twice, Screen.drawSprite_meets_again,
  Interpreter.drawing_is_parity
-/
import ChipEight.Proofs.SpriteDrawing
import Mathlib.Algebra.GroupWithZero.Nat

namespace ChipEight

open Interpreter (Operation)

/-! ### Parity -/

/-- One for an odd number, and zero for an even one. -/
def parity (n : Nat) : UInt8 := if n % 2 = 1 then 1 else 0

theorem parity_add (a b : Nat) : parity (a + b) = parity a ^^^ parity b := by
  rw [parity, Nat.add_mod, parity, parity]
  rcases Nat.mod_two_eq_zero_or_one a with even | odd <;>
    rcases Nat.mod_two_eq_zero_or_one b with even' | odd' <;>
      simp only [*] <;> decide

theorem parity_double (n : Nat) : parity (n + n) = 0 := by
  rw [parity_add, UInt8.xor_self]

/-- Inverting pixels inverts a cell as often as its pixel is among them. -/
theorem Screen.cell_toggleAll (s : Screen) (pixels : List Pixel) (q : Pixel) :
    (s.toggleAll pixels).2.cell q = s.cell q ^^^ parity (pixels.count q) := by
  induction pixels generalizing s with
  | nil => exact UInt8.xor_zero.symm
  | cons p rest inductionHypothesis =>
      show ((s.toggle p).2.toggleAll rest).2.cell q = _
      rw [inductionHypothesis, cell_toggle, List.count_cons]
      by_cases same : q = p
      · subst same
        rw [if_pos rfl, beq_self_eq_true, if_pos rfl, Nat.add_comm, parity_add, UInt8.xor_assoc]
        rfl
      · have other : (p == q) = false := beq_false_of_ne (Ne.symm same)
        rw [if_neg same, other]
        rfl

/-! ### Lists of sprites -/

namespace Sprite

variable {m : Memory} {address : UInt16} {height left top row column : Nat} {wraps : Bool}
  {p : Pixel}

instance : Decidable (Hits m address height wraps left top row column p) :=
  decidable_of_iff (row < height ∧ column < 8 ∧ bit m address row column = true ∧
      p.x.val = (if wraps then (left + column) % 64 else left + column) ∧
      p.y.val = if wraps then (top + row) % 32 else top + row)
    ⟨fun ⟨row_lt, column_lt, set, x, y⟩ => ⟨row_lt, column_lt, set, x, y⟩,
      fun ⟨row_lt, column_lt, set, x, y⟩ => ⟨row_lt, column_lt, set, x, y⟩⟩

theorem count_rowPixels (y : Fin 32) (byte : UInt8) (p : Pixel) :
    (rowPixels wraps left y byte).count p = (List.finRange 8).countP fun column =>
      isSet byte column = true ∧
        (p.x.val = if wraps then (left + column) % 64 else left + column) ∧ p.y = y := by
  rw [rowPixels, List.count_filterMap]
  refine List.countP_congr fun column _ => ?_
  simp only [beq_iff_eq, decide_eq_true_eq, Option.ite_none_right_eq_some, Option.map_eq_some_iff]
  refine and_congr_right fun _ => ?_
  constructor
  · rintro ⟨x, placed, rfl⟩
    exact ⟨place?_eq_some.mp placed, rfl⟩
  · rintro ⟨placed, rfl⟩
    exact ⟨p.x, place?_eq_some.mpr placed, rfl⟩

/-- A sprite that is to be drawn: where it stands in memory, how many rows it has, and the place of its
    corner. -/
structure Placement where
  index : UInt16
  rows : Nat
  x : UInt8
  y : UInt8
deriving DecidableEq, Repr

namespace Placement

/-- The pixels that the sprite inverts. -/
def pixels (m : Memory) (wraps : Bool) (d : Placement) : List Pixel :=
  Sprite.pixels m d.index d.rows wraps d.x d.y

/-- A set bit of the sprite lands on the pixel. -/
def Covers (m : Memory) (wraps : Bool) (d : Placement) (p : Pixel) : Prop :=
  ∃ row column, Hits m d.index d.rows wraps (d.x.toNat % 64) (d.y.toNat % 32) row column p

variable {d : Placement}

theorem mem_pixels : p ∈ d.pixels m wraps ↔ d.Covers m wraps p := Sprite.mem_pixels

instance (m : Memory) (wraps : Bool) (d : Placement) (p : Pixel) : Decidable (d.Covers m wraps p) :=
  decidable_of_iff _ mem_pixels

/-- The number of set bits that land on the pixel. -/
def bitsOn (m : Memory) (wraps : Bool) (d : Placement) (p : Pixel) : Nat :=
  ((List.range d.rows).map fun row => (List.finRange 8).countP fun column : Fin 8 =>
    Hits m d.index d.rows wraps (d.x.toNat % 64) (d.y.toNat % 32) row column p).sum

/-- A pixel is inverted once for every bit that lands on it. -/
theorem count_pixels (m : Memory) (wraps : Bool) (d : Placement) (p : Pixel) :
    (d.pixels m wraps).count p = d.bitsOn m wraps p := by
  rw [pixels, Sprite.pixels, List.count_flatMap, bitsOn]
  refine congrArg List.sum (List.map_congr_left fun r inside => ?_)
  rw [List.mem_range] at inside
  rw [Function.comp_apply]
  split
  case h_1 y placed =>
    have row := place?_eq_some.mp placed
    rw [count_rowPixels]
    refine List.countP_congr fun column _ => ?_
    rw [decide_eq_true_eq, decide_eq_true_eq, isSet_read]
    constructor
    · rintro ⟨set, x, rfl⟩
      exact ⟨inside, column.isLt, set, x, row⟩
    · rintro ⟨-, -, set, x, y'⟩
      exact ⟨set, x, Fin.ext (y'.trans row.symm)⟩
  case h_2 outside =>
    refine (List.countP_eq_zero.mpr fun column _ hits => ?_).symm
    rw [place?_eq_some.mpr (of_decide_eq_true hits).y] at outside
    cases outside

/-- A sprite that is not higher than the screen covers a pixel with one bit at most. -/
theorem bitsOn_of_short (short : d.rows ≤ 32) (p : Pixel) :
    d.bitsOn m wraps p = if d.Covers m wraps p then 1 else 0 := by
  have nodup : (d.pixels m wraps).Nodup := nodup_pixels short d.x d.y
  rw [← count_pixels, nodup.count]
  simp only [mem_pixels]

end Placement

end Sprite

namespace Screen

open Sprite (Placement)

/-- Draws a sprite, and tells whether it met a lit pixel. -/
def drawSprite (m : Memory) (wraps : Bool) (s : Screen) (d : Placement) : Bool × Screen :=
  let (hit, screen) := s.toggleAll (d.pixels m wraps)
  (hit, { screen with pending := true })

/-- Draws sprites one after the other. -/
def drawSprites (m : Memory) (wraps : Bool) (s : Screen) (draws : List Placement) : Screen :=
  draws.foldl (fun s d => (s.drawSprite m wraps d).2) s

variable {m : Memory} {wraps : Bool} {s : Screen} {draws draws' : List Placement}

theorem cell_drawSprite (m : Memory) (wraps : Bool) (s : Screen) (d : Placement) (p : Pixel) :
    (s.drawSprite m wraps d).2.cell p = s.cell p ^^^ parity (d.bitsOn m wraps p) := by
  rw [← d.count_pixels]
  exact s.cell_toggleAll (d.pixels m wraps) p

/-- A cell is inverted by every bit that lands on it, whichever sprite it belongs to. -/
theorem cell_drawSprites (m : Memory) (wraps : Bool) (s : Screen) (draws : List Placement)
    (p : Pixel) :
    (s.drawSprites m wraps draws).cell p =
      s.cell p ^^^ parity (draws.map fun d => d.bitsOn m wraps p).sum := by
  induction draws generalizing s with
  | nil => exact UInt8.xor_zero.symm
  | cons d rest inductionHypothesis =>
      show ((s.drawSprite m wraps d).2.drawSprites m wraps rest).cell p = _
      rw [inductionHypothesis, cell_drawSprite, List.map_cons, List.sum_cons, parity_add,
        UInt8.xor_assoc]

/-- Of sprites that are not higher than the screen, each one that covers a pixel counts once. -/
theorem sum_bitsOn (short : ∀ d ∈ draws, d.rows ≤ 32) (p : Pixel) :
    (draws.map fun d => d.bitsOn m wraps p).sum =
      draws.countP fun d => d.Covers m wraps p := by
  induction draws with
  | nil => rfl
  | cons d rest inductionHypothesis =>
      obtain ⟨first, others⟩ := List.forall_mem_cons.mp short
      rw [List.map_cons, List.sum_cons, List.countP_cons, Placement.bitsOn_of_short first,
        inductionHypothesis others, Nat.add_comm]
      simp only [decide_eq_true_eq]

/-- The order of drawing does not show. -/
theorem cell_drawSprites_of_perm (same : draws'.Perm draws) (p : Pixel) :
    (s.drawSprites m wraps draws').cell p = (s.drawSprites m wraps draws).cell p := by
  rw [cell_drawSprites, cell_drawSprites, (same.map _).sum_nat]

/-- Sprites that are all drawn twice leave every cell as it was. -/
theorem cell_drawSprites_twice (twice : draws'.Perm (draws ++ draws)) (p : Pixel) :
    (s.drawSprites m wraps draws').cell p = s.cell p := by
  rw [cell_drawSprites_of_perm twice, cell_drawSprites, List.map_append, List.sum_append,
    parity_double, UInt8.xor_zero]

end Screen

/-! ### The same instruction twice -/

namespace Machine

variable {m : Machine} {d : Dialect} {x y n : Nibble}

/-- The sprite of `n` rows at I, with its corner at the place (VX, VY). -/
def placement (m : Machine) (x y n : Nibble) : Sprite.Placement :=
  ⟨m.index, n, m.register x, m.register y⟩

theorem screen_draw (m : Machine) (d : Dialect) (x y n : Nibble) :
    (m.draw d x y n).screen =
      (m.screen.drawSprite m.memory d.wrapsSprites (m.placement x y n)).2 := rfl

theorem register_draw (m : Machine) (d : Dialect) (x y n r : Nibble) :
    (m.draw d x y n).register r =
      if r = 0xF then
        (if (m.screen.drawSprite m.memory d.wrapsSprites (m.placement x y n)).1 then 1 else 0)
      else m.register r :=
  register_setFlag _ _ r

/-- The sprite and its place are the same behind the instruction, unless VF names the place. -/
theorem placement_draw (notX : x ≠ 0xF) (notY : y ≠ 0xF) :
    (m.draw d x y n).placement x y n = m.placement x y n := by
  rw [placement, register_draw, if_neg notX, register_draw, if_neg notY]
  rfl

end Machine

namespace Screen

/-- A sprite that has been drawn meets a lit pixel exactly if it covers one whose cell was not one
    before. -/
theorem drawSprite_meets_again (m : Memory) (wraps : Bool) (s : Screen) {d : Sprite.Placement}
    (short : d.rows ≤ 32) :
    ((s.drawSprite m wraps d).2.drawSprite m wraps d).1 = true ↔
      ∃ p, d.Covers m wraps p ∧ s.cell p ≠ 1 := by
  have nodup : (d.pixels m wraps).Nodup := Sprite.nodup_pixels short d.x d.y
  show ((s.drawSprite m wraps d).2.toggleAll (d.pixels m wraps)).1 = true ↔ _
  rw [toggleAll_meets_iff nodup]
  refine exists_congr fun p => ?_
  rw [Sprite.Placement.mem_pixels]
  refine and_congr_right fun covered => ?_
  rw [isLit, cell_drawSprite, Sprite.Placement.bitsOn_of_short short, if_pos covered, bne_iff_ne]
  exact not_congr UInt8.xor_eq_zero_iff

end Screen

namespace Interpreter

variable {c e : Interpreter} {x y n : Nibble} {operation : Operation}

theorem carriesOut_draw (decoded : Instruction.decode c.machine.opcode = some (.draw x y n)) :
    c.CarriesOut (.draw x y n) (c.machine.draw c.dialect x y n) :=
  carriesOut_of_next decoded rfl

/-- A drawing tells in VF whether its sprite met a lit pixel. -/
theorem flag_of_draw (drawn : c.CarriesOut (.draw x y n) (c.machine.draw c.dialect x y n)) :
    c.execute.2.machine.register 0xF =
      if (c.machine.screen.drawSprite c.machine.memory c.dialect.wrapsSprites
        (c.machine.placement x y n)).1 then 1 else 0 := by
  rw [drawn.register, Machine.register_draw, if_pos rfl]

/-- Behind a drawing the same sprite is ready again, at the same place and on the screen that it was
    drawn to, unless VF names the place. -/
theorem ready_again_of_draw
    (drawn : c.CarriesOut (.draw x y n) (c.machine.draw c.dialect x y n))
    (notX : x ≠ 0xF) (notY : y ≠ 0xF) (primed : c.execute.2.primed? operation = some e) :
    e.dialect = c.dialect ∧ e.machine.memory = c.machine.memory ∧
      e.machine.placement x y n = c.machine.placement x y n ∧
      e.machine.screen = (c.machine.screen.drawSprite c.machine.memory c.dialect.wrapsSprites
        (c.machine.placement x y n)).2 := by
  obtain ⟨opcode, rfl⟩ := eq_of_primed primed
  refine ⟨drawn.dialect, drawn.memory, ?_, drawn.screen⟩
  have behind : c.execute.2.machine.placement x y n =
      (c.machine.draw c.dialect x y n).placement x y n := by
    rw [drawn.machine]
    rfl
  exact behind.trans (Machine.placement_draw notX notY)

/-- Drawing is parity. Whatever a screen shows and whether or not sprites wrap, a list of sprites
    inverts every cell as often as a set bit lands on it, which is as often as there are sprites that
    cover it, if none of them is higher than the screen. It makes the same of the screen in every
    order, and together with itself, in any order, it leaves every cell as it was. So the same `DXYN`
    twice in a row, with X and Y other than F, leaves every cell as it was. VF is then one exactly if
    the sprite covers a pixel whose cell was not one at first, which is to say, a pixel that was dark:
    if it covers lit pixels only, the first drawing puts them out, the second lights them again and
    meets none. -/
theorem drawing_is_parity :
    (∀ (s : Screen) (m : Memory) (wraps : Bool) (draws : List Sprite.Placement),
      (∀ p, (s.drawSprites m wraps draws).cell p =
        s.cell p ^^^ parity (draws.map fun d => d.bitsOn m wraps p).sum) ∧
      ((∀ d ∈ draws, d.rows ≤ 32) → ∀ p, (s.drawSprites m wraps draws).cell p =
        s.cell p ^^^ parity (draws.countP fun d => d.Covers m wraps p)) ∧
      (∀ draws', draws'.Perm draws → ∀ p,
        (s.drawSprites m wraps draws').cell p = (s.drawSprites m wraps draws).cell p) ∧
      ∀ draws', draws'.Perm (draws ++ draws) → ∀ p,
        (s.drawSprites m wraps draws').cell p = s.cell p) ∧
    ∀ (c e : Interpreter) (x y n : Nibble) (operation : Operation),
      Instruction.decode c.machine.opcode = some (.draw x y n) → x ≠ 0xF → y ≠ 0xF →
      c.execute.2.primed? operation = some e → e.machine.opcode = c.machine.opcode →
        c.execute.1 = .executed (.draw x y n) ∧ e.execute.1 = .executed (.draw x y n) ∧
        (∀ p, e.execute.2.machine.screen.cell p = c.machine.screen.cell p) ∧
        (e.execute.2.machine.register 0xF = 1 ↔
          ∃ p, c.machine.IsHit c.dialect x y n p ∧ c.machine.screen.cell p ≠ 1) ∧
        (e.execute.2.machine.register 0xF = 0 ↔
          ¬ ∃ p, c.machine.IsHit c.dialect x y n p ∧ c.machine.screen.cell p ≠ 1) := by
  constructor
  · intro s m wraps draws
    refine ⟨Screen.cell_drawSprites m wraps s draws, fun short p => ?_,
      fun draws' same p => Screen.cell_drawSprites_of_perm same p,
      fun draws' twice p => Screen.cell_drawSprites_twice twice p⟩
    rw [Screen.cell_drawSprites, Screen.sum_bitsOn short]
  · intro c e x y n operation decoded notX notY primed again
    have first := carriesOut_draw decoded
    have second : e.CarriesOut (.draw x y n) (e.machine.draw e.dialect x y n) :=
      carriesOut_draw (again ▸ decoded)
    obtain ⟨dialect, memory, placement, screen⟩ := ready_again_of_draw first notX notY primed
    have short : (c.machine.placement x y n).rows ≤ 32 := Nat.le_trans n.isLt.le (by decide)
    have meets := Screen.drawSprite_meets_again c.machine.memory c.dialect.wrapsSprites
      c.machine.screen short
    have flag := flag_of_draw second
    rw [dialect, memory, screen, placement] at flag
    refine ⟨first.outcome, second.outcome, fun p => ?_, ?_, ?_⟩
    · rw [second.screen, Machine.screen_draw, dialect, memory, screen, placement]
      exact Screen.cell_drawSprites_twice (List.Perm.refl ([_] ++ [_])) p
    · rw [flag]
      exact (Machine.told_eq_one _).trans meets
    · rw [flag]
      exact (Machine.told_eq_zero _).trans (not_congr meets)

/-- Two glyphs that overlap around the corner of the screen. -/
def overlapping : List Sprite.Placement := [⟨0, 5, 62, 30⟩, ⟨5, 5, 255, 0⟩]

/-- The same glyph has been drawn once, and its instruction has been fetched again. -/
def drawnOnce : Interpreter :=
  (ofProgram [0xD0, 0x05, 0xD0, 0x05, 0xD0, 0x05]).step.2.fetch

/-- A pixel that both glyphs cover stays dark. The glyph that was drawn once is put out and lit again,
    and the flag of the second drawing is zero. -/
theorem drawing_is_parity_overlapping :
    (∀ d ∈ overlapping, d.rows ≤ 32) ∧
      overlapping.countP (fun d => d.Covers Machine.initial.memory true ⟨1, 0⟩) = 2 ∧
      (Screen.dark.drawSprites Machine.initial.memory true overlapping).cell ⟨1, 0⟩ = 0 ∧
      drawnOnce.execute.2.fetch.execute.2.machine.screen.cell ⟨0, 0⟩ =
        drawnOnce.machine.screen.cell ⟨0, 0⟩ ∧
      ¬ ∃ p, drawnOnce.machine.IsHit drawnOnce.dialect 0 0 5 p ∧
        drawnOnce.machine.screen.cell p ≠ 1 := by
  obtain ⟨lists, twice⟩ := drawing_is_parity
  have short : ∀ d ∈ overlapping, d.rows ≤ 32 := by decide
  obtain ⟨covers, dark⟩ : overlapping.countP
        (fun d => d.Covers Machine.initial.memory true ⟨1, 0⟩) = 2 ∧
      Screen.dark.cell ⟨1, 0⟩ = 0 := by
    decide +kernel
  have cell := (lists Screen.dark Machine.initial.memory true overlapping).2.1 short ⟨1, 0⟩
  rw [covers, dark] at cell
  obtain ⟨decoded, again, flag⟩ :
      Instruction.decode drawnOnce.machine.opcode = some (.draw 0 0 5) ∧
      drawnOnce.execute.2.fetch.machine.opcode = drawnOnce.machine.opcode ∧
      drawnOnce.execute.2.fetch.execute.2.machine.register 0xF = 0 := by
    decide +kernel
  obtain ⟨-, -, cells, -, unmet⟩ := twice drawnOnce drawnOnce.execute.2.fetch 0 0 5 .step decoded
    (by decide) (by decide) rfl again
  exact ⟨short, covers, cell, cells _, unmet.mp flag⟩

/-- So a visible bit alone does not make the flag of the second drawing one. -/
theorem second_drawing_can_meet_nothing :
    Instruction.decode drawnOnce.machine.opcode = some (.draw 0 0 5) ∧
      drawnOnce.execute.2.fetch.machine.opcode = drawnOnce.machine.opcode ∧
      ¬ (drawnOnce.execute.2.fetch.execute.2.machine.register 0xF = 1 ↔
        ∃ p, drawnOnce.machine.IsHit drawnOnce.dialect 0 0 5 p) := by
  obtain ⟨decoded, again, flag, hit⟩ :
      Instruction.decode drawnOnce.machine.opcode = some (.draw 0 0 5) ∧
      drawnOnce.execute.2.fetch.machine.opcode = drawnOnce.machine.opcode ∧
      drawnOnce.execute.2.fetch.execute.2.machine.register 0xF = 0 ∧
      ⟨0, 0⟩ ∈ Sprite.pixels drawnOnce.machine.memory drawnOnce.machine.index (5 : Nibble)
        drawnOnce.dialect.wrapsSprites (drawnOnce.machine.register 0)
        (drawnOnce.machine.register 0) := by
    decide +kernel
  refine ⟨decoded, again, fun claimed => ?_⟩
  have one := claimed.mpr ⟨⟨0, 0⟩, Machine.mem_pixels_iff.mp hit⟩
  rw [flag] at one
  exact absurd one (by decide)

end Interpreter

end ChipEight
