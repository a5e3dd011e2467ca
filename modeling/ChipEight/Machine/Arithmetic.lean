/-
Module: ChipEight.Machine.Arithmetic
Purpose: The register-to-register operators. An operator gives VX a value and may give VF a flag;
  the flag is written first, so that VX keeps its value even when it is VF itself.
Main exports: Operator.apply, Machine.combine, Machine.addToIndex
-/
import ChipEight.Dialect
import ChipEight.Machine.Basic

namespace ChipEight

/-- The byte that a shift works on. -/
def Dialect.shiftSource (d : Dialect) (a b : UInt8) : UInt8 :=
  if d.shiftReadsVY then b else a

/-- The new VX and the new VF, if any, of an operator on the values `a` of VX and `b` of VY. -/
def Operator.apply (d : Dialect) (a b : UInt8) : Operator → UInt8 × Option Bool
  | .copy => (b, none)
  | .or => (a ||| b, none)
  | .and => (a &&& b, none)
  | .xor => (a ^^^ b, none)
  | .add => (a + b, some (255 < a.toNat + b.toNat))
  | .sub => (a - b, some (b ≤ a))
  | .shiftRight =>
    let source := d.shiftSource a b
    (source >>> 1, some (source.toNat % 2 = 1))
  | .subFrom => (b - a, some (a ≤ b))
  | .shiftLeft =>
    let source := d.shiftSource a b
    (source <<< 1, some (128 ≤ source))

namespace Machine

/-- VX becomes VX combined with VY. -/
def combine (m : Machine) (d : Dialect) (op : Operator) (x y : Nibble) : Machine :=
  let (value, flag?) := op.apply d (m.register x) (m.register y)
  match flag? with
  | some flag => (m.setFlag flag).setRegister x value
  | none => m.setRegister x value

/-- Adds VX to I, and tells in VF that I left the twelve bits of an address. -/
def addToIndex (m : Machine) (x : Nibble) : Machine :=
  let sum := m.index + (m.register x).toUInt16
  { m with index := sum }.setFlag (0xFFF < sum)

end Machine

end ChipEight
