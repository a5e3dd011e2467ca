/-
Module: ChipEight.Proofs.Numerals
Purpose: Numerals are read back. A number is read from its decimal digits, and from its hexadecimal
  digits however far they are padded. A digit may be written in either case. Where decimal digits
  end is told by the first character that is none, so that a text which goes on behind them has only
  one number in front.
Main exports: Numeral.readDecimal?_toDigits, Numeral.toString_append_inj, Numeral.WritesDigit,
  Numeral.readHex?_pair, Numeral.readHex?_hex, Numeral.length_hex, Numeral.hex_inj
-/
import ChipEight.Instruction.Basic
import ChipEight.Text.Numeral
import Mathlib.Algebra.Group.Nat.Defs

namespace ChipEight.Numeral

variable {base start n : Nat} {digit? : Char → Option Nat} {digits : List Char}

/-! ### Decimal digits -/

theorem decimalDigit?_of_isDigit {c : Char} (digit : c.isDigit = true) :
    decimalDigit? c = some (c.toNat - '0'.toNat) := by
  have within : '0' ≤ c ∧ c ≤ '9' := by
    simpa [Char.isDigit, Char.le_def] using digit
  exact if_pos within

/-- Decimal digits write the number that they stand for. -/
theorem readFrom?_of_isDigit {digits : List Char} (decimal : ∀ c ∈ digits, c.isDigit = true)
    (start : Nat) :
    readFrom? 10 decimalDigit? start digits = some (Nat.ofDigitChars 10 digits start) := by
  induction digits generalizing start with
  | nil => rfl
  | cons c rest inductionHypothesis =>
      rw [readFrom?, decimalDigit?_of_isDigit (decimal c List.mem_cons_self),
        Nat.ofDigitChars_cons]
      exact inductionHypothesis (fun d member => decimal d (List.mem_cons_of_mem c member)) _

/-- The digits of a number begin with a digit. -/
theorem exists_toDigits_eq_cons (n : Nat) :
    ∃ c rest, Nat.toDigits 10 n = c :: rest ∧ c.isDigit = true := by
  obtain ⟨c, rest, digits⟩ := List.exists_cons_of_ne_nil (Nat.toDigits_ne_nil (n := n) (b := 10))
  have first : c ∈ Nat.toDigits 10 n := by
    rw [digits]
    exact List.mem_cons_self
  exact ⟨c, rest, digits, Nat.isDigit_of_mem_toDigits (by decide) (by decide) first⟩

/-- Every number is read back from its decimal digits. -/
theorem readDecimal?_toDigits (n : Nat) : readDecimal? (Nat.toDigits 10 n) = some n := by
  obtain ⟨c, rest, digits, -⟩ := exists_toDigits_eq_cons n
  have read : readFrom? 10 decimalDigit? 0 (Nat.toDigits 10 n) = some n := by
    rw [readFrom?_of_isDigit fun _ => Nat.isDigit_of_mem_toDigits (by decide) (by decide),
      Nat.ofDigitChars_ten_toDigits]
  rw [digits] at read ⊢
  exact read

/-- The digits that a text begins with end at the first character that is none. -/
theorem takeWhile_toDigits_append (n : Nat) {c : Char} (undigit : c.isDigit = false)
    (rest : List Char) :
    (Nat.toDigits 10 n ++ c :: rest).takeWhile Char.isDigit = Nat.toDigits 10 n := by
  rw [List.takeWhile_append_of_pos fun _ => Nat.isDigit_of_mem_toDigits (by decide) (by decide),
    List.takeWhile_cons_of_neg (by simp [undigit]), List.append_nil]

/-- A text has one number in front, and goes on in one way behind it. -/
theorem toDigits_append_inj {m n : Nat} {c d : Char} {rest rest' : List Char}
    (undigit : c.isDigit = false) (undigit' : d.isDigit = false)
    (same : Nat.toDigits 10 m ++ c :: rest = Nat.toDigits 10 n ++ d :: rest') :
    m = n ∧ c :: rest = d :: rest' := by
  have digits := congrArg (List.takeWhile Char.isDigit) same
  rw [takeWhile_toDigits_append m undigit, takeWhile_toDigits_append n undigit'] at digits
  have number := congrArg readDecimal? digits
  rw [readDecimal?_toDigits, readDecimal?_toDigits, Option.some.injEq] at number
  refine ⟨number, ?_⟩
  rw [digits] at same
  exact List.append_cancel_left same

/-- The number in front of a word ends where the word opens with what is no digit. -/
theorem toString_append_inj {m n : Nat} {word rest rest' : String}
    (opens : ∃ c tail, word.toList = c :: tail ∧ c.isDigit = false)
    (same : toString m ++ (word ++ rest) = toString n ++ (word ++ rest')) :
    m = n ∧ rest = rest' := by
  obtain ⟨c, tail, opens, undigit⟩ := opens
  have texts : Nat.toDigits 10 m ++ c :: (tail ++ rest.toList) =
      Nat.toDigits 10 n ++ c :: (tail ++ rest'.toList) := by
    have texts := congrArg String.toList same
    simpa [opens, Nat.toString_eq_repr] using texts
  obtain ⟨number, behind⟩ := toDigits_append_inj undigit undigit texts
  refine ⟨number, String.toList_inj.mp ?_⟩
  simpa using behind

/-! ### Hexadecimal digits -/

/-- The character writes the digit, in either case. -/
def WritesDigit (c : Char) (d : Nat) : Prop := c = Nat.digitChar d ∨ c = (Nat.digitChar d).toUpper

theorem hexDigit?_of_writes {c : Char} {d : Nat} (small : d < 16) (writes : WritesDigit c d) :
    hexDigit? c = some d := by
  have both : ∀ d : Nibble, hexDigit? (Nat.digitChar d) = some d.val ∧
      hexDigit? (Nat.digitChar d).toUpper = some d.val := by
    decide
  obtain ⟨lower, upper⟩ := both ⟨d, small⟩
  rcases writes with rfl | rfl
  · exact lower
  · exact upper

/-- What is no digit writes none. -/
theorem ne_of_writes {c other : Char} {d : Nat} (small : d < 16) (writes : WritesDigit c d)
    (undigit : hexDigit? other = none) : c ≠ other := by
  rintro rfl
  rw [hexDigit?_of_writes small writes] at undigit
  cases undigit

/-- Two hexadecimal digits write sixteen times the one and the other. -/
theorem readHex?_pair {high low : Char} {a b : Nat} (smallHigh : a < 16) (smallLow : b < 16)
    (writesHigh : WritesDigit high a) (writesLow : WritesDigit low b) :
    readHex? [high, low] = some (16 * a + b) := by
  simp [readHex?, readDigits?, readFrom?, hexDigit?_of_writes smallHigh writesHigh,
    hexDigit?_of_writes smallLow writesLow]

/-- The high digit of a byte is a digit. -/
theorem high_digit_lt (v : UInt8) : v.toNat / 16 < 16 := Nat.div_lt_of_lt_mul v.toNat_lt

/-! ### Hexadecimal numerals -/

theorem readFrom?_append (base : Nat) (digit? : Char → Option Nat) (start : Nat)
    (front back : List Char) :
    readFrom? base digit? start (front ++ back) =
      (readFrom? base digit? start front).bind fun n => readFrom? base digit? n back := by
  induction front generalizing start with
  | nil => rfl
  | cons c rest inductionHypothesis =>
      rw [List.cons_append, readFrom?, readFrom?]
      cases digit? c with
      | none => rfl
      | some d => exact inductionHypothesis _

/-- What can be read consists of digits. -/
theorem isSome_of_readFrom? (read : readFrom? base digit? start digits = some n) :
    ∀ c ∈ digits, (digit? c).isSome = true := by
  induction digits generalizing start with
  | nil => exact fun c member => absurd member List.not_mem_nil
  | cons c rest inductionHypothesis =>
      rw [readFrom?] at read
      split at read
      case h_1 d found =>
        refine List.forall_mem_cons.mpr ⟨?_, inductionHypothesis read⟩
        rw [found]
        rfl
      case h_2 => cases read

theorem readFrom?_zeros (k : Nat) :
    readFrom? 16 hexDigit? 0 (List.replicate k '0') = some 0 := by
  induction k with
  | zero => rfl
  | succ k inductionHypothesis => exact inductionHypothesis

theorem readFrom?_toDigits (n : Nat) :
    readFrom? 16 hexDigit? 0 (Nat.toDigits 16 n) = some n := by
  induction n using Nat.strongRecOn with
  | ind n inductionHypothesis =>
      have last (d start : Nat) (small : d < 16) :
          readFrom? 16 hexDigit? start [Nat.digitChar d] = some (16 * start + d) := by
        rw [readFrom?, hexDigit?_of_writes small (.inl rfl)]
        rfl
      rw [Nat.toDigits_eq_if (by decide)]
      split
      case isTrue small => exact (last n 0 small).trans (congrArg some (Nat.zero_add n))
      case isFalse large =>
        have smaller : n / 16 < n := by omega
        rw [readFrom?_append, inductionHypothesis _ smaller, Option.bind_some,
          last _ _ (Nat.mod_lt n (by decide)), Nat.div_add_mod]

/-- A padded numeral is read back. -/
theorem readFrom?_hex (width n : Nat) :
    readFrom? 16 hexDigit? 0 (hex width n).toList = some n := by
  rw [hex, String.toList_ofList, List.leftpad, readFrom?_append, readFrom?_zeros, Option.bind_some,
    readFrom?_toDigits]

theorem readHex?_hex (width n : Nat) : readHex? (hex width n).toList = some n := by
  have read := readFrom?_hex width n
  cases digits : (hex width n).toList with
  | nil =>
      rw [hex, String.toList_ofList, List.leftpad, List.append_eq_nil_iff] at digits
      exact absurd digits.2 Nat.toDigits_ne_nil
  | cons c rest =>
      rw [digits] at read
      exact read

/-- Numerals of one width tell numbers apart. -/
theorem hex_inj {width m n : Nat} (same : hex width m = hex width n) : m = n := by
  have read := congrArg (readHex? ∘ String.toList) same
  simpa [readHex?_hex] using read

/-- What is no digit is not among the digits of a numeral. -/
theorem ne_of_mem_hex {width n : Nat} {c other : Char} (undigit : hexDigit? other = none)
    (member : c ∈ (hex width n).toList) : c ≠ other := by
  rintro rfl
  have digit := isSome_of_readFrom? (readFrom?_hex width n) c member
  rw [undigit] at digit
  cases digit

/-- A number that fits has as many digits as it is padded to. -/
theorem length_hex {width n : Nat} (positive : 0 < width) (fits : n < 16 ^ width) :
    (hex width n).toList.length = width := by
  have short := (Nat.length_toDigits_le_iff (by decide) positive).mpr fits
  rw [hex, String.toList_ofList, List.length_leftpad]
  exact Nat.max_eq_left short

end ChipEight.Numeral
