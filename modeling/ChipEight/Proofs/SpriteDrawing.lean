/-
Module: ChipEight.Proofs.SpriteDrawing
Purpose: What drawing a sprite means, pixel by pixel. Every set bit of a sprite lands on one pixel at
  most, and no two of them on the same one, whether the sprite is cut off at the edges or wraps; so
  the order of drawing does not show: a pixel that is hit is inverted once, every other pixel is as
  before, and the flag tells whether a hit pixel was lit.
Main exports: Screen.cell_toggleAll_of_nodup, Screen.toggleAll_meets_iff, Sprite.place?_eq_some,
  Sprite.Hits, Sprite.mem_pixels, Sprite.Hits.unique, Sprite.nodup_pixels, Machine.Drawn,
  Machine.drawn_draw, Interpreter.draw_inverts_hit_pixels
-/
import ChipEight.Proofs.Invariant
import Mathlib.Data.List.Nodup

namespace ChipEight

open Interpreter (Operation)

/-! ### Inverting pixels -/

namespace Screen

variable {s : Screen} {pixels : List Pixel}

theorem isLit_toggle_of_ne (s : Screen) {p q : Pixel} (other : q ≠ p) :
    (s.toggle p).2.isLit q = s.isLit q := by
  rw [isLit, cell_toggle, if_neg other, isLit]

/-- A pixel that is not among the inverted ones keeps its byte. -/
theorem cell_toggleAll_of_notMem {q : Pixel} (missing : q ∉ pixels) :
    (s.toggleAll pixels).2.cell q = s.cell q := by
  induction pixels generalizing s with
  | nil => rfl
  | cons p rest inductionHypothesis =>
      rw [List.mem_cons, not_or] at missing
      obtain ⟨other, missing⟩ := missing
      show ((s.toggle p).2.toggleAll rest).2.cell q = s.cell q
      rw [inductionHypothesis missing, cell_toggle, if_neg other]

/-- Of pixels without repetition each is inverted once, and no other pixel is. -/
theorem cell_toggleAll_of_nodup (nodup : pixels.Nodup) (q : Pixel) :
    (s.toggleAll pixels).2.cell q = if q ∈ pixels then s.cell q ^^^ 1 else s.cell q := by
  induction pixels generalizing s with
  | nil => rfl
  | cons p rest inductionHypothesis =>
      obtain ⟨missing, nodup⟩ := List.nodup_cons.mp nodup
      show ((s.toggle p).2.toggleAll rest).2.cell q = _
      by_cases first : q = p
      · subst first
        rw [cell_toggleAll_of_notMem missing, cell_toggle, if_pos rfl, if_pos List.mem_cons_self]
      · rw [inductionHypothesis nodup, cell_toggle, if_neg first]
        simp only [List.mem_cons, first, false_or]

/-- Pixels without repetition meet a lit one exactly if one of them was lit at the start. -/
theorem toggleAll_meets_iff (nodup : pixels.Nodup) :
    (s.toggleAll pixels).1 = true ↔ ∃ p ∈ pixels, s.isLit p = true := by
  induction pixels generalizing s with
  | nil => simp [toggleAll]
  | cons p rest inductionHypothesis =>
      obtain ⟨missing, nodup⟩ := List.nodup_cons.mp nodup
      -- The pixels that are left are not `p`, so that inverting `p` has not changed them.
      have later : (∃ q ∈ rest, (s.toggle p).2.isLit q = true) ↔ ∃ q ∈ rest, s.isLit q = true := by
        refine exists_congr fun q => and_congr_right fun member => ?_
        rw [s.isLit_toggle_of_ne (ne_of_mem_of_not_mem member missing)]
      show (s.isLit p || ((s.toggle p).2.toggleAll rest).1) = true ↔ _
      rw [Bool.or_eq_true, inductionHypothesis nodup, later, List.exists_mem_cons_iff]

namespace Binary

theorem cell_eq (binary : s.Binary) (p : Pixel) : s.cell p = 0 ∨ s.cell p = 1 := binary p.index

theorem isLit_iff (binary : s.Binary) (p : Pixel) : s.isLit p = true ↔ s.cell p = 1 := by
  rw [isLit]
  rcases binary.cell_eq p with dark | lit
  · rw [dark]
    decide
  · rw [lit]
    decide

/-- An inverted cell has the other one of the two values. -/
theorem xor_one (binary : s.Binary) (p : Pixel) : s.cell p ^^^ 1 = 1 - s.cell p := by
  rcases binary.cell_eq p with dark | lit
  · rw [dark]
    rfl
  · rw [lit]
    rfl

end Binary

end Screen

/-! ### Where the bits of a sprite land -/

namespace Sprite

variable {m : Memory} {address : UInt16} {height : Nat} {wraps : Bool} {left top : Nat}

/-- A step along an edge ends at the sum, or at its remainder where drawing wraps. -/
theorem place?_eq_some {size origin step : Nat} {place : Fin size} :
    place? size wraps origin step = some place ↔
      place.val = if wraps then (origin + step) % size else origin + step := by
  rw [place?]
  split
  case isTrue inside =>
    rw [Nat.mod_eq_of_lt inside, ite_self, Option.some.injEq, Fin.ext_iff]
    exact eq_comm
  case isFalse outside =>
    cases wraps with
    | true =>
        have inside : (origin + step) % size < size := Nat.mod_lt _ place.pos
        rw [if_pos rfl, if_pos rfl, dif_pos inside, Option.some.injEq, Fin.ext_iff]
        exact eq_comm
    | false =>
        have elsewhere : place.val ≠ origin + step := fun same => outside (same ▸ place.isLt)
        simp [elsewhere]

/-- The bit of the sprite at `address` in a row and a column, which count from the top and from the
    left: of a row, the leftmost column is the highest bit. -/
def bit (m : Memory) (address : UInt16) (row column : Nat) : Bool :=
  (m.cells.get (lowAddress (address.toNat + row))).toNat.testBit (7 - column)

/-- The bit in a row and a column of a sprite of `height` rows is set and lands on the pixel, when the
    corner of the sprite is at the column `left` and the row `top` of the screen. -/
structure Hits (m : Memory) (address : UInt16) (height : Nat) (wraps : Bool) (left top : Nat)
    (row column : Nat) (p : Pixel) : Prop where
  row_lt : row < height
  column_lt : column < 8
  set : bit m address row column = true
  x : p.x.val = if wraps then (left + column) % 64 else left + column
  y : p.y.val = if wraps then (top + row) % 32 else top + row

/-- No pixel is hit by two bits: a sprite is neither as wide nor as high as the screen. -/
theorem Hits.unique {row column row' column' : Nat} {p : Pixel} (short : height ≤ 32)
    (hits : Hits m address height wraps left top row column p)
    (hits' : Hits m address height wraps left top row' column' p) :
    row = row' ∧ column = column' := by
  obtain ⟨row_lt, column_lt, -, x, y⟩ := hits
  obtain ⟨row_lt', column_lt', -, x', y'⟩ := hits'
  rw [x] at x'
  rw [y] at y'
  cases wraps with
  | true =>
      simp only [if_true] at x' y'
      omega
  | false =>
      simp only [Bool.false_eq_true, if_false] at x' y'
      omega

theorem isSet_read (r : Nat) (column : Fin 8) :
    isSet (m.read (address + UInt16.ofNat r)) column = bit m address r column := by
  rw [Memory.read_add]
  rfl

theorem mem_rowPixels {y : Fin 32} {row : UInt8} {p : Pixel} :
    p ∈ rowPixels wraps left y row ↔
      p.y = y ∧ ∃ column : Fin 8, isSet row column = true ∧
        p.x.val = if wraps then (left + column) % 64 else left + column := by
  simp only [rowPixels, List.mem_filterMap, List.mem_finRange, true_and,
    Option.ite_none_right_eq_some, Option.map_eq_some_iff, place?_eq_some]
  constructor
  · rintro ⟨column, set, x, placed, rfl⟩
    exact ⟨rfl, column, set, placed⟩
  · rintro ⟨rfl, column, set, placed⟩
    exact ⟨column, set, p.x, placed, rfl⟩

/-- The pixels of a sprite are those on which one of its bits lands. -/
theorem mem_pixels {x y : UInt8} {p : Pixel} :
    p ∈ pixels m address height wraps x y ↔
      ∃ row column, Hits m address height wraps (x.toNat % 64) (y.toNat % 32) row column p := by
  rw [pixels, List.mem_flatMap]
  refine exists_congr fun r => ?_
  rw [List.mem_range]
  constructor
  · rintro ⟨inside, member⟩
    split at member
    case h_1 y' placed =>
      obtain ⟨rfl, column, set, x'⟩ := mem_rowPixels.mp member
      rw [isSet_read] at set
      exact ⟨column, inside, column.isLt, set, x', place?_eq_some.mp placed⟩
    case h_2 => cases member
  · rintro ⟨column, inside, column_lt, set, x', y'⟩
    refine ⟨inside, ?_⟩
    rw [place?_eq_some.mpr y']
    refine mem_rowPixels.mpr ⟨rfl, ⟨column, column_lt⟩, ?_, x'⟩
    rw [isSet_read]
    exact set

theorem nodup_rowPixels (y : Fin 32) (row : UInt8) : (rowPixels wraps left y row).Nodup := by
  refine (List.nodup_finRange 8).filterMap fun column column' p found found' => ?_
  simp only [Option.mem_def, Option.ite_none_right_eq_some, Option.map_eq_some_iff,
    place?_eq_some] at found found'
  obtain ⟨-, x, placed, rfl⟩ := found
  obtain ⟨-, x', placed', same⟩ := found'
  obtain ⟨rfl, -⟩ := Pixel.mk.inj same
  rw [placed] at placed'
  apply Fin.ext
  split at placed' <;> omega

/-- A row of the sprite stands in one row of the screen. -/
theorem y_of_mem_row {r : Nat} {row : UInt8} {p : Pixel}
    (member : p ∈ match place? 32 wraps top r with
      | some y => rowPixels wraps left y row
      | none => []) : p.y.val = if wraps then (top + r) % 32 else top + r := by
  split at member
  case h_1 y placed =>
    obtain ⟨rfl, -⟩ := mem_rowPixels.mp member
    exact place?_eq_some.mp placed
  case h_2 => cases member

/-- The pixels of a sprite do not repeat. -/
theorem nodup_pixels (short : height ≤ 32) (x y : UInt8) :
    (pixels m address height wraps x y).Nodup := by
  rw [pixels, List.nodup_flatMap]
  constructor
  · intro r _
    split
    · exact nodup_rowPixels _ _
    · exact List.nodup_nil
  · refine List.nodup_range.pairwise_of_forall_ne fun r inside r' inside' different p drawn drawn' => ?_
    rw [List.mem_range] at inside inside'
    have same := (y_of_mem_row drawn).symm.trans (y_of_mem_row drawn')
    split at same <;> omega

end Sprite

/-! ### The instruction -/

namespace Machine

/-- The bit in a row and a column of the sprite of `n` rows at I hits the pixel, when the sprite is
    drawn to the place (VX, VY). -/
def Hits (m : Machine) (d : Dialect) (x y n : Nibble) : Nat → Nat → Pixel → Prop :=
  Sprite.Hits m.memory m.index n d.wrapsSprites ((m.register x).toNat % 64)
    ((m.register y).toNat % 32)

/-- Some bit of the sprite hits the pixel. -/
def IsHit (m : Machine) (d : Dialect) (x y n : Nibble) (p : Pixel) : Prop :=
  ∃ row column, m.Hits d x y n row column p

/-- What drawing the sprite of `n` rows at I to the place (VX, VY) makes of a machine: it inverts the
    pixels that are hit, each of them by one bit, tells in VF whether one of them was lit, and leaves
    a frame waiting. -/
structure Drawn (m : Machine) (d : Dialect) (x y n : Nibble) (m' : Machine) : Prop where
  inverted : ∀ p, m.IsHit d x y n p → m'.screen.cell p = 1 - m.screen.cell p
  kept : ∀ p, ¬ m.IsHit d x y n p → m'.screen.cell p = m.screen.cell p
  once : ∀ p row column row' column', m.Hits d x y n row column p →
    m.Hits d x y n row' column' p → row = row' ∧ column = column'
  flag_eq_one : m'.register 0xF = 1 ↔ ∃ p, m.IsHit d x y n p ∧ m.screen.cell p = 1
  flag_eq_zero : m'.register 0xF = 0 ↔ ¬ ∃ p, m.IsHit d x y n p ∧ m.screen.cell p = 1
  pending : m'.screen.pending = true

theorem mem_pixels_iff {m : Machine} {d : Dialect} {x y n : Nibble} {p : Pixel} :
    p ∈ Sprite.pixels m.memory m.index n d.wrapsSprites (m.register x) (m.register y) ↔
      m.IsHit d x y n p :=
  Sprite.mem_pixels

theorem told_eq_one (told : Bool) : (if told then 1 else 0 : UInt8) = 1 ↔ told = true := by
  cases told <;> decide

theorem told_eq_zero (told : Bool) : (if told then 1 else 0 : UInt8) = 0 ↔ ¬ told = true := by
  cases told <;> decide

/-- Drawing on a screen of zeros and ones. -/
theorem drawn_draw {m : Machine} (binary : m.screen.Binary) (d : Dialect) (x y n : Nibble) :
    m.Drawn d x y n (m.draw d x y n) := by
  have short : n.val ≤ 32 := Nat.le_trans n.isLt.le (by decide)
  have nodup : (Sprite.pixels m.memory m.index n d.wrapsSprites (m.register x)
      (m.register y)).Nodup := Sprite.nodup_pixels short _ _
  have cells (p : Pixel) := Screen.cell_toggleAll_of_nodup (s := m.screen) nodup p
  have meets := Screen.toggleAll_meets_iff (s := m.screen) nodup
  simp only [binary.xor_one] at cells
  simp only [mem_pixels_iff, binary.isLit_iff] at meets
  have flag : (m.draw d x y n).register 0xF =
      if (m.screen.toggleAll (Sprite.pixels m.memory m.index n d.wrapsSprites (m.register x)
        (m.register y))).1 then 1 else 0 :=
    (register_setFlag _ _ 0xF).trans (if_pos rfl)
  refine ⟨?_, ?_, fun p row column row' column' hits hits' => hits.unique short hits', ?_, ?_, rfl⟩
  · exact fun p hit => (cells p).trans (if_pos (mem_pixels_iff.mpr hit))
  · exact fun p missed => (cells p).trans (if_neg (mt mem_pixels_iff.mp missed))
  · rw [flag, ← meets]
    exact told_eq_one _
  · rw [flag, ← meets]
    exact told_eq_zero _

end Machine

namespace Interpreter

/-- What `DXYN` does, pixel by pixel. On a screen of zeros and ones, and every reachable screen is one,
    it inverts exactly the pixels on which a set bit of the sprite lands, each of them by one bit
    alone; VF tells whether one of them was lit, and a frame waits. The sprite and its place are those
    before the instruction, also where X or Y is F. -/
theorem draw_inverts_hit_pixels :
    (∀ c : Interpreter, c.Built → ∀ history : List Operation,
      (c.after history).machine.screen.Binary) ∧
    ∀ (c : Interpreter) (x y n : Nibble), c.machine.screen.Binary →
      Instruction.decode c.machine.opcode = some (.draw x y n) →
        c.execute.1 = .executed (.draw x y n) ∧
        c.machine.Drawn c.dialect x y n c.execute.2.machine := by
  refine ⟨fun c built history => (built.wellFormed_after history).binary, ?_⟩
  intro c x y n binary decoded
  obtain ⟨inverted, kept, once, one, zero, pending⟩ := Machine.drawn_draw binary c.dialect x y n
  have ran : c.execute = (.executed (.draw x y n), { c with
      machine := { c.machine.draw c.dialect x y n with pc := c.machine.pc + 2 } }) := by
    rw [execute, decoded]
    rfl
  rw [ran]
  exact ⟨rfl, inverted, kept, once, one, zero, pending⟩

/-- A sprite that wraps is about to be drawn from the lower right corner of the screen on, with the
    register of the flag for its place; one pixel of the last row is lit. -/
def cornerDrawing : Interpreter :=
  { ofProgram [] with
    dialect := { wrapsSprites := true }
    machine := { Machine.initial with
      opcode := 0xDFF5
      registers := #v[0, 0, 0, 0, 0, 0, 0, 0, 0, 0, 0, 0, 0, 0, 0, 63 + 128]
      screen := (Screen.dark.toggle ⟨0, 31⟩).2 } }

/-- The lit pixel goes out and is told of, and the second row of the sprite stands in the first row of
    the screen. -/
theorem draw_inverts_hit_pixels_cornerDrawing :
    ((ofProgram [0xD0, 0x05]).after [.step]).machine.screen.Binary ∧
      cornerDrawing.execute.1 = .executed (.draw 0xF 0xF 5) ∧
      cornerDrawing.execute.2.machine.screen.cell ⟨0, 31⟩ = 0 ∧
      cornerDrawing.execute.2.machine.screen.cell ⟨63, 0⟩ = 1 ∧
      cornerDrawing.execute.2.machine.register 0xF = 1 := by
  obtain ⟨reachable, draws⟩ := draw_inverts_hit_pixels
  obtain ⟨ran, drawn⟩ := draws cornerDrawing 0xF 0xF 5 (Screen.binary_dark.toggle _) (by decide)
  have lit : cornerDrawing.machine.IsHit cornerDrawing.dialect 0xF 0xF 5 ⟨0, 31⟩ ∧
      cornerDrawing.machine.screen.cell ⟨0, 31⟩ = 1 :=
    ⟨⟨0, 1, by decide, by decide, by decide +kernel, by decide, by decide⟩, by decide +kernel⟩
  have dark : cornerDrawing.machine.IsHit cornerDrawing.dialect 0xF 0xF 5 ⟨63, 0⟩ ∧
      cornerDrawing.machine.screen.cell ⟨63, 0⟩ = 0 :=
    ⟨⟨1, 0, by decide, by decide, by decide +kernel, by decide, by decide⟩, by decide +kernel⟩
  refine ⟨reachable _ (built_ofProgram (by decide)) [.step], ran, ?_, ?_, ?_⟩
  · rw [drawn.inverted _ lit.1, lit.2]
    rfl
  · rw [drawn.inverted _ dark.1, dark.2]
    rfl
  · exact drawn.flag_eq_one.mpr ⟨_, lit⟩

end Interpreter

end ChipEight
