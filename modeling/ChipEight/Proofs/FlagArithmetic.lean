/-
Module: ChipEight.Proofs.FlagArithmetic
Purpose: What the operators that set a flag compute, in exact integers. An operator reads both
  registers before it writes any; the result is the exact one modulo 256 and stands in VX even where
  VX is VF, and the flag, which stands in VF otherwise, is a comparison of exact values. Adding to I
  is exact modulo 65536, and its flag is the last to be written.
Main exports: Operator.exactResult?, Operator.apply_of_exact, Machine.register_combine,
  Machine.register_addToIndex, Interpreter.flags_follow_exact_arithmetic
-/
import ChipEight.Proofs.Invariant

namespace ChipEight

/-- The exact result of an operator that sets a flag, and its flag, on `a` for VX, `b` for VY and `s`
    for the source of a shift. -/
def Operator.exactResult? (a b s : Int) : Operator → Option (Int × Bool)
  | .add => some (a + b, 255 < a + b)
  | .sub => some (a - b, b ≤ a)
  | .subFrom => some (b - a, a ≤ b)
  | .shiftRight => some (s / 2, s % 2 = 1)
  | .shiftLeft => some (2 * s, 128 ≤ s)
  | .copy | .or | .and | .xor => none

namespace Operator

/-- A difference of bytes is the exact one modulo 256. -/
theorem toNat_sub_eq_emod (a b : UInt8) : ((a - b).toNat : Int) = (a.toNat - b.toNat : Int) % 256 := by
  have small := b.toNat_lt
  rw [UInt8.toNat_sub]
  omega

theorem toNat_shiftRight_one (s : UInt8) : (s >>> 1).toNat = s.toNat / 2 := by
  rw [UInt8.toNat_shiftRight, Nat.shiftRight_eq_div_pow]
  rfl

theorem toNat_shiftLeft_one (s : UInt8) : (s <<< 1).toNat = s.toNat * 2 % 256 := by
  rw [UInt8.toNat_shiftLeft, Nat.shiftLeft_eq]
  rfl

theorem le_iff_cast_le {a b : UInt8} : a ≤ b ↔ (a.toNat : Int) ≤ b.toNat := by
  rw [UInt8.le_iff_toNat_le, Int.ofNat_le]

/-- Flags that are told by equivalent comparisons are the same. -/
theorem flag_eq {p q : Prop} [Decidable p] [Decidable q] (same : p ↔ q) :
    some (decide p) = some (decide q) := congrArg some (decide_eq_decide.mpr same)

/-- The bytes of an operator are the exact values: the result modulo 256, and the flag as it is. -/
theorem apply_of_exact {d : Dialect} {a b : UInt8} {op : Operator} {value : Int} {flag : Bool}
    (exact : op.exactResult? a.toNat b.toNat (d.shiftSource a b).toNat = some (value, flag)) :
    ((op.apply d a b).1.toNat : Int) = value % 256 ∧ (op.apply d a b).2 = some flag := by
  have small := (d.shiftSource a b).toNat_lt
  cases op with
  | copy | or | and | xor => cases exact
  | add =>
      cases exact
      have sum : ((a + b).toNat : Int) = (a.toNat + b.toNat : Int) % 256 := by
        rw [UInt8.toNat_add]
        omega
      exact ⟨sum, flag_eq (by omega)⟩
  | sub =>
      cases exact
      exact ⟨toNat_sub_eq_emod a b, flag_eq le_iff_cast_le⟩
  | subFrom =>
      cases exact
      exact ⟨toNat_sub_eq_emod b a, flag_eq le_iff_cast_le⟩
  | shiftRight =>
      cases exact
      have half : ((d.shiftSource a b >>> 1).toNat : Int) = (d.shiftSource a b).toNat / 2 % 256 := by
        rw [toNat_shiftRight_one]
        omega
      exact ⟨half, flag_eq (by omega)⟩
  | shiftLeft =>
      cases exact
      have double : ((d.shiftSource a b <<< 1).toNat : Int) =
          2 * (d.shiftSource a b).toNat % 256 := by
        rw [toNat_shiftLeft_one]
        omega
      exact ⟨double, flag_eq le_iff_cast_le⟩

end Operator

namespace Machine

/-- VX has the result, whether it is VF or not; VF has the flag if it is another register. -/
theorem register_combine {m : Machine} {d : Dialect} {op : Operator} {x y : Nibble} {value : UInt8}
    {flag : Bool} (applied : op.apply d (m.register x) (m.register y) = (value, some flag))
    (r : Nibble) :
    (m.combine d op x y).register r =
      if r = x then value else if r = 0xF then (if flag then 1 else 0) else m.register r := by
  rw [combine, applied]
  show ((m.setFlag flag).setRegister x value).register r = _
  rw [register_setRegister, register_setFlag]

theorem index_addToIndex (m : Machine) (x : Nibble) :
    (m.addToIndex x).index.toNat = (m.index.toNat + (m.register x).toNat) % 65536 := by
  show (m.index + (m.register x).toUInt16).toNat = _
  rw [UInt16.toNat_add, UInt8.toNat_toUInt16]

/-- VF tells of the sum, also where it is a summand. -/
theorem register_addToIndex (m : Machine) (x r : Nibble) :
    (m.addToIndex x).register r =
      if r = 0xF then
        (if 0xFFF < (m.index.toNat + (m.register x).toNat) % 65536 then 1 else 0)
      else m.register r := by
  rw [← index_addToIndex, addToIndex, register_setFlag]
  simp only [decide_eq_true_eq, UInt16.lt_iff_toNat_lt]
  rfl

end Machine

namespace Interpreter

/-- The operators that set a flag follow exact arithmetic, whichever of VX, VY and VF are the same
    register. With the values before the instruction, VX becomes the exact result modulo 256, VF
    tells the exact comparison unless it is VX, and every other register is unchanged. Adding to I
    gives the exact sum modulo 65536, and VF tells whether that is more than twelve bits hold. -/
theorem flags_follow_exact_arithmetic :
    (∀ (c : Interpreter) (op : Operator) (x y : Nibble) (value : Int) (flag : Bool),
      let a := (c.machine.register x).toNat
      let b := (c.machine.register y).toNat
      Instruction.decode c.machine.opcode = some (.combine op x y) →
      op.exactResult? a b (if c.dialect.shiftReadsVY then b else a : Nat) = some (value, flag) →
        c.execute.1 = .executed (.combine op x y) ∧
        ((c.execute.2.machine.register x).toNat : Int) = value % 256 ∧
        (x ≠ 0xF → c.execute.2.machine.register 0xF = if flag then 1 else 0) ∧
        ∀ r, r ≠ x → r ≠ 0xF → c.execute.2.machine.register r = c.machine.register r) ∧
    ∀ (c : Interpreter) (x : Nibble),
      let sum := (c.machine.index.toNat + (c.machine.register x).toNat) % 65536
      Instruction.decode c.machine.opcode = some (.addIndex x) →
        c.execute.1 = .executed (.addIndex x) ∧
        c.execute.2.machine.index.toNat = sum ∧
        c.execute.2.machine.register 0xF = (if 0xFFF < sum then 1 else 0) ∧
        ∀ r, r ≠ 0xF → c.execute.2.machine.register r = c.machine.register r := by
  constructor
  · intro c op x y value flag a b decoded exact
    have source : (c.dialect.shiftSource (c.machine.register x) (c.machine.register y)).toNat =
        if c.dialect.shiftReadsVY then b else a := apply_ite UInt8.toNat _ _ _
    rw [← source] at exact
    obtain ⟨result, told⟩ := Operator.apply_of_exact exact
    have registers := Machine.register_combine (Prod.ext rfl told :
      op.apply c.dialect (c.machine.register x) (c.machine.register y) = (_, some flag))
    have ran : c.execute = (.executed (.combine op x y), { c with
        machine := { c.machine.combine c.dialect op x y with pc := c.machine.pc + 2 } }) := by
      rw [execute, decoded]
      rfl
    rw [ran]
    refine ⟨rfl, ?_, fun other => ?_, fun r notX notFlag => ?_⟩
    · exact (congrArg (fun byte : UInt8 => (byte.toNat : Int)) ((registers x).trans (if_pos rfl))).trans
        result
    · exact (registers 0xF).trans ((if_neg other.symm).trans (if_pos rfl))
    · exact (registers r).trans ((if_neg notX).trans (if_neg notFlag))
  · intro c x sum decoded
    have registers := c.machine.register_addToIndex x
    have ran : c.execute = (.executed (.addIndex x), { c with
        machine := { c.machine.addToIndex x with pc := c.machine.pc + 2 } }) := by
      rw [execute, decoded]
      rfl
    rw [ran]
    exact ⟨rfl, c.machine.index_addToIndex x, (registers 0xF).trans (if_pos rfl),
      fun r notFlag => (registers r).trans (if_neg notFlag)⟩

/-- A word has been fetched, with a value in VF, one in I and zeros in all other registers. -/
def flagHolding (opcode : UInt16) (flag : UInt8) (index : UInt16) : Interpreter :=
  { ofProgram [] with
    machine := { Machine.initial.setRegister (lowNibble 0xF) flag with opcode, index } }

/-- Doubling VF leaves the sum in it and not the carry; taking VF from a smaller register leaves the
    difference there and tells of the borrow; and VF moves I past the last word before it tells of
    that. -/
theorem flags_follow_exact_arithmetic_flagOperands :
    (flagHolding 0x8FF4 200 0).execute.2.machine.register 0xF = 144 ∧
      (flagHolding 0x80F5 200 0).execute.2.machine.register 0 = 56 ∧
      (flagHolding 0x80F5 200 0).execute.2.machine.register 0xF = 0 ∧
      (flagHolding 0xFF1E 32 0xFFF0).execute.2.machine.index = 0x0010 ∧
      (flagHolding 0xFF1E 32 0xFFF0).execute.2.machine.register 0xF = 0 := by
  obtain ⟨operators, sums⟩ := flags_follow_exact_arithmetic
  obtain ⟨-, doubled, -⟩ := operators (flagHolding 0x8FF4 200 0) .add 0xF 0xF 400 true
    (by decide) (by decide)
  obtain ⟨-, difference, borrow, -⟩ := operators (flagHolding 0x80F5 200 0) .sub 0 0xF (-200) false
    (by decide) (by decide)
  obtain ⟨-, moved, told, -⟩ := sums (flagHolding 0xFF1E 32 0xFFF0) 0xF (by decide)
  refine ⟨?_, ?_, borrow (by decide), UInt16.toNat_inj.mp moved, told⟩
  · exact UInt8.toNat_inj.mp (Int.ofNat_inj.mp doubled)
  · exact UInt8.toNat_inj.mp (Int.ofNat_inj.mp difference)

end Interpreter

end ChipEight
