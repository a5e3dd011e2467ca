/-
Module: ChipEight.Proofs.Dialects
Purpose: A dialect shows only where it is documented to. Of the four points on which interpreters
  differ each belongs to one or two instructions, and even these do the same in every dialect unless
  the registers that they look at differ or the sprite that they draw crosses an edge. So
  interpreters of two dialects keep in step until the first instruction that tells their dialects
  apart.
Main exports: Instruction.tellsApart, Sprite.pixels_of_fits, Machine.carryOut_of_alike,
  Interpreter.withDialect, Interpreter.tellsApart, Interpreter.dialects_show_only_where_documented
-/
import ChipEight.Proofs.Invariant
import ChipEight.Proofs.Lockstep

namespace ChipEight

open Interpreter (Operation)

/-- Whether an instruction can do different things in two dialects: the dialects differ on its
    point, and the machine is one on which that matters. A shift takes VX or VY, which differ; a
    transfer moves I or not; a jump adds one of two registers, which differ; and a sprite crosses
    the right or the lower edge of the screen. -/
def Instruction.tellsApart (d d' : Dialect) (m : Machine) : Instruction → Bool
  | .combine .shiftRight x y | .combine .shiftLeft x y =>
    d.shiftReadsVY != d'.shiftReadsVY && m.register x != m.register y
  | .storeRegisters _ | .loadRegisters _ => d.transferMovesIndex != d'.transferMovesIndex
  | .jumpOffset addr =>
    d.jumpAddsVX != d'.jumpAddsVX &&
      m.register (lowNibble 0) != m.register (lowNibble (addr / 0x100))
  | .draw x y n =>
    d.wrapsSprites != d'.wrapsSprites &&
      (64 < (m.register x).toNat % 64 + 8 || 32 < (m.register y).toNat % 32 + n)
  | _ => false

/-! ### Sprites inside the screen -/

namespace Sprite

/-- A place inside an edge is drawn, whether drawing wraps or not. -/
theorem place?_of_lt {size origin step : Nat} (inside : origin + step < size) (wraps : Bool) :
    place? size wraps origin step = some ⟨origin + step, inside⟩ := dif_pos inside

theorem rowPixels_of_fits {left : Nat} (fits : left + 8 ≤ 64) (wraps wraps' : Bool) (y : Fin 32)
    (row : UInt8) : rowPixels wraps left y row = rowPixels wraps' left y row := by
  have placed (column : Fin 8) : place? 64 wraps left column = place? 64 wraps' left column := by
    have inside : left + column < 64 := by omega
    rw [place?_of_lt inside, place?_of_lt inside]
  simp only [rowPixels, placed]

/-- A sprite that crosses no edge inverts the same pixels, whether drawing wraps or not. -/
theorem pixels_of_fits {height : Nat} {x y : UInt8} (fitsRight : x.toNat % 64 + 8 ≤ 64)
    (fitsBelow : y.toNat % 32 + height ≤ 32) (wraps wraps' : Bool) (m : Memory) (address : UInt16) :
    pixels m address height wraps x y = pixels m address height wraps' x y := by
  rw [pixels, pixels]
  apply List.flatMap_congr
  intro r member
  have inside : y.toNat % 32 + r < 32 := by
    have := List.mem_range.mp member
    omega
  rw [place?_of_lt inside, place?_of_lt inside]
  exact rowPixels_of_fits fitsRight wraps wraps' _ _

end Sprite

/-! ### Instructions in two dialects -/

/-- An operator gives the same in two dialects that take the same source for a shift, and on two
    registers of the same value. -/
theorem Operator.apply_of_alike {d d' : Dialect} {a b : UInt8}
    (alike : d.shiftReadsVY = d'.shiftReadsVY ∨ a = b) (op : Operator) :
    op.apply d' a b = op.apply d a b := by
  have source : d'.shiftSource a b = d.shiftSource a b := by
    rcases alike with same | rfl
    · rw [Dialect.shiftSource, Dialect.shiftSource, same]
    · rw [Dialect.shiftSource, Dialect.shiftSource, ite_self, ite_self]
  cases op with
  | shiftRight | shiftLeft => simp only [apply, source]
  | _ => rfl

namespace Machine

variable {m : Machine} {d d' : Dialect} {i : Instruction}

theorem combine_of_alike {op : Operator} {x y : Nibble}
    (alike : d.shiftReadsVY = d'.shiftReadsVY ∨ m.register x = m.register y) :
    m.combine d' op x y = m.combine d op x y := by
  rw [combine, combine, op.apply_of_alike alike]

theorem indexAfter_of_alike (alike : d.transferMovesIndex = d'.transferMovesIndex) (x : Nibble) :
    m.indexAfter d' x = m.indexAfter d x := by
  rw [indexAfter, indexAfter, alike]

theorem draw_of_alike {x y n : Nibble}
    (alike : d.wrapsSprites = d'.wrapsSprites ∨
      (m.register x).toNat % 64 + 8 ≤ 64 ∧ (m.register y).toNat % 32 + n ≤ 32) :
    m.draw d' x y n = m.draw d x y n := by
  have pixels : Sprite.pixels m.memory m.index n d'.wrapsSprites (m.register x) (m.register y) =
      Sprite.pixels m.memory m.index n d.wrapsSprites (m.register x) (m.register y) := by
    rcases alike with same | ⟨fitsRight, fitsBelow⟩
    · rw [same]
    · exact Sprite.pixels_of_fits fitsRight fitsBelow _ _ _ _
  rw [draw, draw, pixels]

theorem register_offset_of_alike {addr : Address}
    (alike : d.jumpAddsVX = d'.jumpAddsVX ∨
      m.register (lowNibble 0) = m.register (lowNibble (addr / 0x100))) :
    m.register (offsetRegister d' addr) = m.register (offsetRegister d addr) := by
  rcases alike with same | same
  · rw [offsetRegister, offsetRegister, same]
  · rw [offsetRegister, offsetRegister, apply_ite m.register, apply_ite m.register, same, ite_self,
      ite_self]

/-- An instruction that does not tell the dialects apart is carried out alike in both. -/
theorem carryOut_of_alike (alike : i.tellsApart d d' m = false) (noise : UInt8) :
    m.carryOut d' noise i = m.carryOut d noise i := by
  cases i with
  | combine op x y =>
      cases op with
      | shiftRight | shiftLeft =>
          rw [carryOut, carryOut, combine_of_alike]
          simpa [Instruction.tellsApart, or_iff_not_imp_left] using alike
      | _ => rfl
  | storeRegisters x | loadRegisters x =>
      have same : d.transferMovesIndex = d'.transferMovesIndex := by
        simpa [Instruction.tellsApart] using alike
      have index := indexAfter_of_alike (m := m) same x
      simp only [carryOut, storeRegisters, loadRegisters, index]
  | jumpOffset addr =>
      rw [carryOut, carryOut, register_offset_of_alike]
      simpa [Instruction.tellsApart, or_iff_not_imp_left] using alike
  | draw x y n =>
      rw [carryOut, carryOut, draw_of_alike]
      simpa [Instruction.tellsApart, or_iff_not_imp_left] using alike
  | _ => rfl

end Machine

namespace Interpreter

variable {c : Interpreter} {d : Dialect} {i : Instruction} {operation : Operation}

/-- The interpreter with another dialect. -/
def withDialect (c : Interpreter) (d : Dialect) : Interpreter := { c with dialect := d }

/-- The turn executes an instruction that tells the dialect of the interpreter and `d` apart. -/
def tellsApart (c : Interpreter) (d : Dialect) (operation : Operation) : Bool :=
  match (c.turn operation).outcome? with
  | some (.executed i) => i.tellsApart c.dialect d c.machine
  | _ => false

/-- An instruction that tells dialects apart neither fails nor waits. -/
theorem executed_of_tellsApart (tells : i.tellsApart c.dialect d c.machine = true) :
    (c.perform i).1 = .executed i := by
  cases i with
  | combine | storeRegisters | loadRegisters | jumpOffset | draw => rfl
  | _ => cases tells

/-- A word is dealt with alike in another dialect, unless it is an instruction that is executed and
    tells the dialects apart. -/
theorem execute_withDialect
    (alike : ∀ i, c.execute.1 = .executed i → i.tellsApart c.dialect d c.machine = false) :
    (c.withDialect d).execute = (c.execute.1, c.execute.2.withDialect d) := by
  cases decoded : Instruction.decode c.machine.opcode with
  | none =>
      rw [execute, withDialect, execute, decoded]
      rfl
  | some i =>
      have ran : c.execute = c.perform i := by rw [execute, decoded]
      have ranOther : (c.withDialect d).execute = (c.withDialect d).perform i := by
        rw [execute, withDialect, decoded]
      have untold : i.tellsApart c.dialect d c.machine = false := by
        rw [ran] at alike
        exact Bool.eq_false_iff.mpr fun tells =>
          Bool.eq_false_iff.mp (alike i (executed_of_tellsApart tells)) tells
      have same := Machine.carryOut_of_alike untold (c.generator.noiseFor i).1
      rw [ran, ranOther]
      simp only [perform, withDialect, same]
      cases c.machine.carryOut c.dialect (c.generator.noiseFor i).1 i <;> rfl

theorem reset_withDialect (c : Interpreter) (d : Dialect) :
    (c.withDialect d).respond .reset =
      ((c.respond .reset).1, (c.respond .reset).2.withDialect d) := by
  rw [respond, respond, reset, reset, withDialect]
  cases c.machine.restart.loadProgram c.program <;> rfl

/-- A turn that does not tell the dialects apart is the same in both. -/
theorem respond_withDialect (alike : c.tellsApart d operation = false) :
    (c.withDialect d).respond operation =
      ((c.respond operation).1, (c.respond operation).2.withDialect d) := by
  have untold : ∀ e, c.primed? operation = some e →
      ∀ i, e.execute.1 = .executed i → i.tellsApart e.dialect d e.machine = false := by
    intro e primed i executed
    rw [tellsApart, outcome?_of_primed primed, executed] at alike
    obtain ⟨opcode, rfl⟩ := eq_of_primed primed
    exact alike
  cases operation with
  | machine | fetch | tick => rfl
  | reset => exact reset_withDialect c d
  | execute =>
      have ran := execute_withDialect (untold _ rfl)
      rw [respond, ran]
      rfl
  | step =>
      have ran := execute_withDialect (untold _ rfl)
      have stepped : (c.withDialect d).respond .step =
          (.outcome (c.fetch.withDialect d).execute.1, (c.fetch.withDialect d).execute.2) := rfl
      rw [stepped, ran]
      rfl

/-- Each point of a dialect is visible only where it is documented. Two interpreters that agree in
    everything but their dialects take the same turns through every session and agree at every point
    of it, as long as no turn executes, on a point on which the dialects differ, an instruction of
    that point where it matters: a shift of unequal registers, a transfer of registers, a jump with
    an offset whose two registers are unequal, or a sprite that crosses an edge. So they are in step
    up to the first such turn, whatever else the session does. -/
theorem dialects_show_only_where_documented (c : Interpreter) (d : Dialect)
    (operations : List Operation)
    (alike : c.Throughout (fun c operation => c.tellsApart d operation = false) operations) :
    Lockstep (fun c c' => c' = c.withDialect d) c (c.withDialect d) operations := by
  refine alike.lockstep ?_ rfl
  rintro c _ operation rfl untold
  have same := respond_withDialect untold
  rw [turn, turn, same]
  exact ⟨rfl, rfl⟩

/-- A shift of equal registers, a sprite inside the screen, a jump with an offset whose two
    registers are equal, and then a transfer. -/
def untilTransfer : List UInt8 := [0x81, 0x26, 0xD1, 0x25, 0xB2, 0x06, 0xF1, 0x65]

/-- Two dialects that differ on every point show no difference, with a tick and a key between the
    steps, up to the transfer, which tells them apart. -/
theorem dialects_show_only_where_documented_untilTransfer :
    Lockstep (fun c c' => c' = c.withDialect ⟨true, true, true, true⟩) (ofProgram untilTransfer)
      ((ofProgram untilTransfer).withDialect ⟨true, true, true, true⟩)
      [.step, .tick, .machine (.setKey 5 true), .step, .step] ∧
    ((ofProgram untilTransfer).after
      [.step, .tick, .machine (.setKey 5 true), .step, .step]).tellsApart ⟨true, true, true, true⟩
        .step = true :=
  ⟨dialects_show_only_where_documented _ _ _ (by decide +kernel), by decide +kernel⟩

end Interpreter

end ChipEight
