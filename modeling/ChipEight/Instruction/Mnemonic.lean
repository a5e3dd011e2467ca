/-
Module: ChipEight.Instruction.Mnemonic
Purpose: Instructions as assembly text. Registers are `V` and an upper-case hexadecimal digit, bytes
  have two hexadecimal digits and addresses three, and a sprite height is decimal.
Main exports: Instruction.mnemonic
-/
import ChipEight.Instruction.Basic
import ChipEight.Text.Numeral

namespace ChipEight

/-- The name of a register. -/
def registerName (x : Nibble) : String :=
  String.ofList ['V', (Nat.digitChar x).toUpper]

/-- An immediate byte in assembly text. -/
def byteText (nn : UInt8) : String :=
  "0x" ++ Numeral.hex 2 nn.toNat

/-- An address in assembly text: three digits, more only for a number that needs them. -/
def addressText (n : Nat) : String :=
  "0x" ++ Numeral.hex 3 n

namespace Operator

/-- The mnemonic of an operator. -/
def mnemonic : Operator → String
  | .copy => "LD"
  | .or => "OR"
  | .and => "AND"
  | .xor => "XOR"
  | .add => "ADD"
  | .sub => "SUB"
  | .shiftRight => "SHR"
  | .subFrom => "SUBN"
  | .shiftLeft => "SHL"

end Operator

namespace Condition

/-- The assembly text of a skip instruction. -/
def mnemonic : Condition → String
  | .equalsByte x nn => "SE " ++ registerName x ++ ", " ++ byteText nn
  | .differsFromByte x nn => "SNE " ++ registerName x ++ ", " ++ byteText nn
  | .equals x y => "SE " ++ registerName x ++ ", " ++ registerName y
  | .differs x y => "SNE " ++ registerName x ++ ", " ++ registerName y
  | .keyDown x => "SKP " ++ registerName x
  | .keyUp x => "SKNP " ++ registerName x

end Condition

namespace Instruction

/-- The assembly text of an instruction. A jump with an offset names V0 whichever register a dialect
    adds. -/
def mnemonic : Instruction → String
  | .clearScreen => "CLS"
  | .ret => "RET"
  | .jump addr => "JP " ++ addressText addr
  | .call addr => "CALL " ++ addressText addr
  | .skipIf condition => condition.mnemonic
  | .loadByte x nn => "LD " ++ registerName x ++ ", " ++ byteText nn
  | .addByte x nn => "ADD " ++ registerName x ++ ", " ++ byteText nn
  | .combine op x y => op.mnemonic ++ " " ++ registerName x ++ ", " ++ registerName y
  | .loadIndex addr => "LD I, " ++ addressText addr
  | .jumpOffset addr => "JP V0, " ++ addressText addr
  | .random x nn => "RND " ++ registerName x ++ ", " ++ byteText nn
  | .draw x y n =>
    "DRW " ++ registerName x ++ ", " ++ registerName y ++ ", " ++ Numeral.decimal n
  | .loadDelay x => "LD " ++ registerName x ++ ", DT"
  | .awaitKey x => "LD " ++ registerName x ++ ", K"
  | .setDelay x => "LD DT, " ++ registerName x
  | .setSound x => "LD ST, " ++ registerName x
  | .addIndex x => "ADD I, " ++ registerName x
  | .loadGlyph x => "LD F, " ++ registerName x
  | .storeDecimal x => "LD B, " ++ registerName x
  | .storeRegisters x => "LD [I], " ++ registerName x
  | .loadRegisters x => "LD " ++ registerName x ++ ", [I]"

end Instruction

end ChipEight
