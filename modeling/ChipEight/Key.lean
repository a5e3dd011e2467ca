/-
Module: ChipEight.Key
Purpose: The sixteen keys of the hexadecimal keypad as text. A key may be written with marks `0x` in
  front of it, with a plus sign, and with leading zeros.
Main exports: KeyError, parseKey
-/
import ChipEight.Instruction.Basic
import ChipEight.Text.Quoted

namespace ChipEight

/-- A text that names no key. -/
structure KeyError where
  text : String
deriving DecidableEq, Repr

/-- The wording of the error. -/
def KeyError.message (e : KeyError) : String :=
  quoted e.text ++ " is not a hex key between 0 and F"

namespace Key

/-- A text without the marks `0x` that lead it, however many there are. -/
def dropMarks : List Char → List Char
  | '0' :: 'x' :: rest => dropMarks rest
  | text => text

/-- The key that a text names: marks, an optional plus sign, and a hexadecimal number below
    sixteen. -/
def ofText? (text : List Char) : Option Nibble :=
  match Numeral.readHex? (Numeral.dropPlus (dropMarks text)) with
  | some k => if h : k < 16 then some ⟨k, h⟩ else none
  | none => none

end Key

/-- Reads a key, or tells which text is none. -/
def parseKey (text : String) : Except KeyError Nibble :=
  match Key.ofText? text.toList with
  | some key => .ok key
  | none => .error ⟨text⟩

end ChipEight
