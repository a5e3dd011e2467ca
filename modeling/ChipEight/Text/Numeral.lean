/-
Module: ChipEight.Text.Numeral
Purpose: Numbers as digits. Writing is to a least width in hexadecimal, or in decimal without
  padding; reading takes a list of characters, most significant digit first, and refuses an empty
  list and any character that is no digit of the base.
Main exports: hexDigit?, decimalDigit?, readDigits?, readHex?, readDecimal?, Numeral.hex,
  Numeral.decimal
-/

namespace ChipEight.Numeral

/-- The value of a hexadecimal digit of either case. -/
def hexDigit? (c : Char) : Option Nat :=
  if '0' ≤ c ∧ c ≤ '9' then some (c.toNat - '0'.toNat)
  else if 'a' ≤ c ∧ c ≤ 'f' then some (c.toNat - 'a'.toNat + 10)
  else if 'A' ≤ c ∧ c ≤ 'F' then some (c.toNat - 'A'.toNat + 10)
  else none

/-- The value of a decimal digit. -/
def decimalDigit? (c : Char) : Option Nat :=
  if '0' ≤ c ∧ c ≤ '9' then some (c.toNat - '0'.toNat) else none

/-- The number that the digits write after a number `start` that is already read. -/
def readFrom? (base : Nat) (digit? : Char → Option Nat) (start : Nat) : List Char → Option Nat
  | [] => some start
  | c :: rest =>
    match digit? c with
    | some d => readFrom? base digit? (base * start + d) rest
    | none => none

/-- The number that a list of digits writes; at least one digit is needed. -/
def readDigits? (base : Nat) (digit? : Char → Option Nat) : List Char → Option Nat
  | [] => none
  | digits => readFrom? base digit? 0 digits

/-- The number that hexadecimal digits of either case write. -/
def readHex? (digits : List Char) : Option Nat :=
  readDigits? 16 hexDigit? digits

/-- The number that decimal digits write. -/
def readDecimal? (digits : List Char) : Option Nat :=
  readDigits? 10 decimalDigit? digits

/-- A text without the single plus sign that may lead it. -/
def dropPlus : List Char → List Char
  | '+' :: rest => rest
  | text => text

/-- Lower-case hexadecimal digits, filled up with zeros on the left to at least `width`. -/
def hex (width n : Nat) : String :=
  String.ofList ((Nat.toDigits 16 n).leftpad width '0')

/-- Decimal digits, as many as the number needs. -/
def decimal (n : Nat) : String :=
  String.ofList (Nat.toDigits 10 n)

end ChipEight.Numeral
