/-
Module: ChipEight.Proofs.KeyText
Purpose: The texts that name a key. Such a text has any number of marks `0x`, then perhaps a plus
  sign, then any number of zeros, and then one hexadecimal digit of either case, which is the key.
  No other text names one. It makes no difference whether the number is read without bounds or in a
  byte in which no product and no sum may overflow, since a number that does not fit is no key
  either.
Main exports: Numeral.readHex?_eq_some_iff, Numeral.readByte?, Key.Spells, Key.ofText?_eq_some_iff,
  Key.Malformed, Key.ofByteText?, Key.spelling_decides
-/
import ChipEight.Proofs.AssemblyText

namespace ChipEight

namespace Numeral

variable {start n d key : Nat} {c : Char} {digits : List Char}

/-! ### Hexadecimal digits -/

theorem toNat_lt_of_hexDigit? (read : hexDigit? c = some d) : c.toNat < 128 := by
  rw [hexDigit?] at read
  split at read
  case isTrue decimal => exact Nat.lt_of_le_of_lt decimal.2 (by decide)
  case isFalse =>
    split at read
    case isTrue lower => exact Nat.lt_of_le_of_lt lower.2 (by decide)
    case isFalse =>
      split at read
      case isTrue upper => exact Nat.lt_of_le_of_lt upper.2 (by decide)
      case isFalse => cases read

/-- What is read as a digit writes it. -/
theorem writes_of_hexDigit? (read : hexDigit? c = some d) : d < 16 ∧ WritesDigit c d := by
  have table : ∀ n : Fin 128, ∀ d ∈ hexDigit? (Char.ofNat n), d < 16 ∧
      (Char.ofNat n = Nat.digitChar d ∨ Char.ofNat n = (Nat.digitChar d).toUpper) := by
    decide
  have found := table ⟨c.toNat, toNat_lt_of_hexDigit? read⟩ d
  rw [Char.ofNat_toNat] at found
  exact found read

theorem writesDigit_zero_iff : WritesDigit c 0 ↔ c = '0' := by
  have lower : Nat.digitChar 0 = '0' := rfl
  have upper : '0'.toUpper = '0' := by decide
  rw [WritesDigit, lower, upper, or_self]

/-! ### Numbers -/

/-- Every further digit makes a number at least as large as it was. -/
theorem le_of_readFrom? (read : readFrom? 16 hexDigit? start digits = some n) : start ≤ n := by
  induction digits generalizing start with
  | nil =>
      simp only [readFrom?, Option.some.injEq] at read
      exact Nat.le_of_eq read
  | cons c rest inductionHypothesis =>
      rw [readFrom?] at read
      cases digit : hexDigit? c with
      | none => simp [digit] at read
      | some d =>
          rw [digit] at read
          have grown := inductionHypothesis read
          omega

/-- A digit that is not the last one counts at least sixteen times. -/
theorem mul_le_of_readFrom? (read : readFrom? 16 hexDigit? start (c :: digits) = some n) :
    16 * start ≤ n := by
  rw [readFrom?] at read
  cases digit : hexDigit? c with
  | none => simp [digit] at read
  | some d =>
      rw [digit] at read
      exact Nat.le_trans (Nat.le_add_right _ d) (le_of_readFrom? read)

theorem readHex?_of_ne_nil (filled : digits ≠ []) :
    readHex? digits = readFrom? 16 hexDigit? 0 digits := by
  cases digits with
  | nil => exact absurd rfl filled
  | cons c rest => rfl

theorem exists_digit_of_readHex? (small : key < 16) (read : readHex? digits = some key) :
    ∃ zeros c, digits = List.replicate zeros '0' ++ [c] ∧ WritesDigit c key := by
  induction digits with
  | nil => cases read
  | cons c rest inductionHypothesis =>
      rw [readHex?_of_ne_nil (List.cons_ne_nil c rest), readFrom?] at read
      cases digit : hexDigit? c with
      | none => simp [digit] at read
      | some d =>
          have writes := (writes_of_hexDigit? digit).2
          simp only [digit, Nat.mul_zero, Nat.zero_add] at read
          cases rest with
          | nil =>
              simp only [readFrom?, Option.some.injEq] at read
              exact ⟨0, c, rfl, read ▸ writes⟩
          | cons e more =>
              have large := mul_le_of_readFrom? read
              obtain rfl : d = 0 := by omega
              obtain ⟨zeros, last, split, writesLast⟩ := inductionHypothesis read
              refine ⟨zeros + 1, last, ?_, writesLast⟩
              rw [writesDigit_zero_iff.mp writes, split, List.replicate_succ, List.cons_append]

/-- A number below sixteen is written by its digit, with any number of zeros in front. -/
theorem readHex?_eq_some_iff (small : key < 16) :
    readHex? digits = some key ↔
      ∃ zeros c, digits = List.replicate zeros '0' ++ [c] ∧ WritesDigit c key := by
  constructor
  · exact exists_digit_of_readHex? small
  · rintro ⟨zeros, c, rfl, writes⟩
    rw [readHex?_of_ne_nil (by simp), readFrom?_append, readFrom?_zeros]
    simp [readFrom?, hexDigit?_of_writes small writes]

/-! ### Numbers in a byte -/

/-- The byte that hexadecimal digits write after a byte that is already read, as long as every
    product and every sum on the way is a byte. -/
def readByteFrom? (start : UInt8) : List Char → Option UInt8
  | [] => some start
  | c :: rest =>
    match hexDigit? c with
    | some d =>
      if 16 * start.toNat + d < UInt8.size then readByteFrom? (16 * start + UInt8.ofNat d) rest
      else none
    | none => none

/-- The byte that hexadecimal digits write; at least one digit is needed. -/
def readByte? : List Char → Option UInt8
  | [] => none
  | digits => readByteFrom? 0 digits

/-- In a byte exactly the numbers are read that fit. -/
theorem readByteFrom?_eq (start : UInt8) (digits : List Char) :
    readByteFrom? start digits = (readFrom? 16 hexDigit? start.toNat digits).bind fun n =>
      if n < UInt8.size then some (UInt8.ofNat n) else none := by
  induction digits generalizing start with
  | nil =>
      have fits : start.toNat < UInt8.size := start.toNat_lt
      simp [readByteFrom?, readFrom?, fits]
  | cons c rest inductionHypothesis =>
      rw [readByteFrom?, readFrom?]
      cases hexDigit? c with
      | none => rfl
      | some d =>
          by_cases fits : 16 * start.toNat + d < UInt8.size
          · have sum : (16 * start + UInt8.ofNat d).toNat = 16 * start.toNat + d := by
              simp only [UInt8.size] at fits
              simp [UInt8.toNat_add, UInt8.toNat_mul]
              omega
            simp only [fits, if_true]
            rw [inductionHypothesis, sum]
          · simp only [fits, if_false]
            -- What has overflown only gets larger.
            cases read : readFrom? 16 hexDigit? (16 * start.toNat + d) rest with
            | none => rfl
            | some n =>
                have large : ¬n < UInt8.size := by
                  have grown := le_of_readFrom? read
                  omega
                simp [large]

theorem readByte?_eq (digits : List Char) :
    readByte? digits = (readHex? digits).bind fun n =>
      if n < UInt8.size then some (UInt8.ofNat n) else none := by
  cases digits with
  | nil => rfl
  | cons c rest => exact readByteFrom?_eq 0 (c :: rest)

end Numeral

open Numeral (WritesDigit)

namespace Key

variable {text : List Char} {key : Nibble}

/-! ### Spellings -/

/-- Marks `0x`, one behind the other. -/
def marks (n : Nat) : List Char := (List.replicate n ['0', 'x']).flatten

/-- A plus sign, or nothing. -/
def sign (plus : Bool) : List Char := if plus then ['+'] else []

/-- What stands in front of the digit of a key. -/
def lead (n : Nat) (plus : Bool) (zeros : Nat) : List Char :=
  marks n ++ (sign plus ++ List.replicate zeros '0')

/-- The text spells the key: marks, perhaps a plus sign, zeros, and the digit of the key. -/
def Spells (text : List Char) (key : Nibble) : Prop :=
  ∃ n plus zeros digit, text = lead n plus zeros ++ [digit] ∧ WritesDigit digit key

theorem marks_succ (n : Nat) : marks (n + 1) = '0' :: 'x' :: marks n := by
  simp [marks, List.replicate_succ]

theorem eq_of_mem_marks {n : Nat} {c : Char} (member : c ∈ marks n) : c = '0' ∨ c = 'x' := by
  induction n with
  | zero => simp [marks] at member
  | succ n inductionHypothesis =>
      rw [marks_succ] at member
      simp only [List.mem_cons] at member
      rcases member with rfl | rfl | later
      · exact .inl rfl
      · exact .inr rfl
      · exact inductionHypothesis later

theorem eq_of_mem_sign {plus : Bool} {c : Char} (member : c ∈ sign plus) : c = '+' := by
  cases plus <;> simp_all [sign]

theorem eq_of_mem_lead {n zeros : Nat} {plus : Bool} {c : Char} (member : c ∈ lead n plus zeros) :
    c = '0' ∨ c = 'x' ∨ c = '+' := by
  simp only [lead, List.mem_append] at member
  rcases member with marked | signed | zero
  · rcases eq_of_mem_marks marked with rfl | rfl <;> simp
  · exact .inr (.inr (eq_of_mem_sign signed))
  · exact .inl (List.eq_of_mem_replicate zero)

/-! ### Marks and signs in front -/

theorem dropMarks_marks_append (n : Nat) (text : List Char) :
    dropMarks (marks n ++ text) = dropMarks text := by
  induction n with
  | zero => rfl
  | succ n inductionHypothesis =>
      rw [marks_succ]
      exact inductionHypothesis

theorem dropMarks_of_notMem (unmarked : 'x' ∉ text) : dropMarks text = text := by
  rw [dropMarks]
  rintro rest rfl
  simp at unmarked

/-- All that is dropped are marks. -/
theorem exists_eq_marks_append (text : List Char) : ∃ n, text = marks n ++ dropMarks text := by
  fun_induction dropMarks text with
  | case1 rest inductionHypothesis =>
      obtain ⟨n, split⟩ := inductionHypothesis
      refine ⟨n + 1, ?_⟩
      rw [marks_succ, List.cons_append, List.cons_append, ← split]
  | case2 text _ => exact ⟨0, rfl⟩

theorem dropPlus_sign_append (plus : Bool) (unsigned : '+' ∉ text) :
    Numeral.dropPlus (sign plus ++ text) = text := by
  cases plus with
  | true => rfl
  | false =>
      rw [sign]
      simp only [Bool.false_eq_true, if_false, List.nil_append]
      rw [Numeral.dropPlus]
      rintro rest rfl
      simp at unsigned

/-- All that is dropped is a plus sign. -/
theorem exists_eq_sign_append (text : List Char) :
    ∃ plus, text = sign plus ++ Numeral.dropPlus text := by
  rw [Numeral.dropPlus.eq_def]
  split
  · exact ⟨true, rfl⟩
  · exact ⟨false, rfl⟩

/-! ### The key that a text names -/

theorem ofText?_eq_some_iff_readHex? : ofText? text = some key ↔
    Numeral.readHex? (Numeral.dropPlus (dropMarks text)) = some key.val := by
  rw [ofText?]
  cases Numeral.readHex? (Numeral.dropPlus (dropMarks text)) with
  | none => simp
  | some n =>
      by_cases small : n < 16
      · simp [small, Fin.ext_iff]
      · simp only [small, dif_neg, not_false_iff, Option.some.injEq]
        constructor
        · nofun
        · rintro rfl
          exact absurd key.isLt small

/-- A digit is neither a mark nor a sign. -/
theorem notMem_digits (zeros : Nat) {digit other : Char} (writes : WritesDigit digit key)
    (undigit : Numeral.hexDigit? other = none) : other ∉ List.replicate zeros '0' ++ [digit] := by
  intro member
  rcases List.mem_append.mp member with zero | last
  · rw [List.eq_of_mem_replicate zero] at undigit
    cases undigit
  · rw [List.mem_singleton] at last
    exact Numeral.ne_of_writes key.isLt writes undigit last.symm

theorem notMem_sign_digits (plus : Bool) (zeros : Nat) {digit : Char}
    (writes : WritesDigit digit key) :
    'x' ∉ sign plus ++ (List.replicate zeros '0' ++ [digit]) := by
  intro member
  rcases List.mem_append.mp member with signed | digits
  · cases eq_of_mem_sign signed
  · exact notMem_digits zeros writes rfl digits

/-- A text names the key that it spells, and no other. -/
theorem ofText?_eq_some_iff : ofText? text = some key ↔ Spells text key := by
  rw [ofText?_eq_some_iff_readHex?, Numeral.readHex?_eq_some_iff key.isLt]
  constructor
  · rintro ⟨zeros, digit, digits, writes⟩
    obtain ⟨n, marked⟩ := exists_eq_marks_append text
    obtain ⟨plus, signed⟩ := exists_eq_sign_append (dropMarks text)
    refine ⟨n, plus, zeros, digit, ?_, writes⟩
    calc text = marks n ++ (sign plus ++ Numeral.dropPlus (dropMarks text)) := by
          rw [← signed, ← marked]
      _ = lead n plus zeros ++ [digit] := by
          rw [digits, lead]
          simp
  · rintro ⟨n, plus, zeros, digit, rfl, writes⟩
    have unsigned : '+' ∉ List.replicate zeros '0' ++ [digit] := notMem_digits zeros writes rfl
    have unmarked := notMem_sign_digits plus zeros writes
    refine ⟨zeros, digit, ?_, writes⟩
    rw [lead, List.append_assoc, List.append_assoc, dropMarks_marks_append,
      dropMarks_of_notMem unmarked, dropPlus_sign_append plus unsigned]

/-- The key that a text names, with its number read in a byte. -/
def ofByteText? (text : List Char) : Option Nibble :=
  match Numeral.readByte? (Numeral.dropPlus (dropMarks text)) with
  | some k => if h : k.toNat < 16 then some ⟨k.toNat, h⟩ else none
  | none => none

/-- What does not fit in a byte is no key. -/
theorem ofByteText?_eq (text : List Char) : ofByteText? text = ofText? text := by
  rw [ofByteText?, ofText?, Numeral.readByte?_eq]
  cases Numeral.readHex? (Numeral.dropPlus (dropMarks text)) with
  | none => rfl
  | some n =>
      by_cases fits : n < UInt8.size
      · have value : (UInt8.ofNat n).toNat = n := UInt8.toNat_ofNat_of_lt' fits
        simp only [Option.bind_some, fits, if_true, value]
      · have large : ¬n < 16 := by
          simp only [UInt8.size] at fits
          omega
        simp [fits, large]

/-! ### Texts that name none -/

/-- Some ways of not spelling a key. -/
inductive Malformed : List Char → Prop where
  /-- Nothing stands behind the marks and the sign; the text may be empty. -/
  | undigited (n : Nat) (plus : Bool) : Malformed (marks n ++ sign plus)
  | markBehindPlus (front middle back : List Char) :
    Malformed (front ++ '+' :: middle ++ '0' :: 'x' :: back)
  | minus {text : List Char} (negative : '-' ∈ text) : Malformed text
  /-- A digit other than zero is not the last character. -/
  | followed {digit next : Char} {d : Nat} (front back : List Char) (writes : WritesDigit digit d)
    (significant : 0 < d) (small : d < 16) : Malformed (front ++ digit :: next :: back)
  | foreign {text : List Char} {c : Char} (member : c ∈ text) (large : 128 ≤ c.toNat) :
    Malformed text

/-- A character of a spelling stands in front of the digit or is the digit. -/
theorem Spells.eq_of_mem {c : Char} (spells : Spells text key) (member : c ∈ text) :
    c = '0' ∨ c = 'x' ∨ c = '+' ∨ WritesDigit c key := by
  obtain ⟨n, plus, zeros, digit, rfl, writes⟩ := spells
  rcases List.mem_append.mp member with leading | last
  · rcases eq_of_mem_lead leading with rfl | rfl | rfl <;> simp
  · rw [List.mem_singleton] at last
    subst last
    simp [writes]

/-- In a spelling a mark stands in front of the sign. -/
theorem Spells.not_markBehindPlus {front middle back : List Char} :
    ¬Spells (front ++ '+' :: middle ++ '0' :: 'x' :: back) key := by
  rintro ⟨n, plus, zeros, digit, split, writes⟩
  have parts : (front ++ '+' :: middle ++ ['0']) ++ 'x' :: back =
      marks n ++ (sign plus ++ (List.replicate zeros '0' ++ [digit])) := by
    simpa [lead] using split
  rcases List.append_eq_append_iff.mp parts with ⟨between, marked, -⟩ | ⟨between, -, unmarked⟩
  · have member : '+' ∈ marks n := by simp [marked]
    rcases eq_of_mem_marks member with same | same <;> cases same
  · have member : 'x' ∈ sign plus ++ (List.replicate zeros '0' ++ [digit]) := by simp [unmarked]
    exact notMem_sign_digits plus zeros writes member

/-- In a spelling nothing follows a digit other than zero. -/
theorem Spells.not_followed {digit next : Char} {d : Nat} {front back : List Char}
    (writes : WritesDigit digit d) (significant : 0 < d) (small : d < 16) :
    ¬Spells (front ++ digit :: next :: back) key := by
  rintro ⟨n, plus, zeros, last, split, -⟩
  have leading : digit ∈ lead n plus zeros := by
    have shorter := congrArg List.dropLast split
    rw [List.dropLast_concat, List.dropLast_append_of_ne_nil (by simp)] at shorter
    rw [← shorter]
    simp
  have read := Numeral.hexDigit?_of_writes small writes
  rcases eq_of_mem_lead leading with rfl | rfl | rfl
  · cases read
    exact absurd significant (Nat.lt_irrefl 0)
  · cases read
  · cases read

theorem Malformed.not_spells (malformed : Malformed text) (key : Nibble) : ¬Spells text key := by
  intro spells
  cases malformed with
  | undigited n plus =>
      have unread : ofText? (marks n ++ sign plus) = none := by
        rw [ofText?, dropMarks_marks_append]
        cases plus <;> rfl
      rw [← ofText?_eq_some_iff, unread] at spells
      cases spells
  | markBehindPlus front middle back => exact Spells.not_markBehindPlus spells
  | minus negative =>
      rcases spells.eq_of_mem negative with same | same | same | writes
      · cases same
      · cases same
      · cases same
      · exact Numeral.ne_of_writes key.isLt writes rfl rfl
  | followed front back writes significant small =>
      exact Spells.not_followed writes significant small spells
  | foreign member large =>
      rcases spells.eq_of_mem member with rfl | rfl | rfl | writes
      · exact absurd large (by decide)
      · exact absurd large (by decide)
      · exact absurd large (by decide)
      · have ascii := Numeral.toNat_lt_of_hexDigit? (Numeral.hexDigit?_of_writes key.isLt writes)
        omega

theorem parseKey_eq_ok_iff {text : String} {key : Nibble} :
    parseKey text = .ok key ↔ Spells text.toList key := by
  rw [← ofText?_eq_some_iff, parseKey]
  cases ofText? text.toList with
  | none => simp
  | some k => simp

theorem parseKey_eq_error_iff {text : String} :
    parseKey text = .error ⟨text⟩ ↔ ∀ key, ¬Spells text.toList key := by
  simp only [← ofText?_eq_some_iff]
  rw [parseKey]
  cases ofText? text.toList with
  | none => simp
  | some k => simp

/-- The spelling decides. A text is read as a key exactly if it spells that key: any number of marks
    `0x`, then perhaps one plus sign, then any number of zeros, and then the digit of the key, in
    either case. Every other text is refused, with itself in the error: among them the empty one,
    one that ends behind the marks or the plus sign, and one with a plus sign before a mark, a minus
    sign, a digit other than zero with something behind it, or a character that is not ASCII. And it
    makes no difference that the number is read in a byte, where it may overflow. -/
theorem spelling_decides (text : String) :
    (∀ key, parseKey text = .ok key ↔ Spells text.toList key) ∧
    (parseKey text = .error ⟨text⟩ ↔ ∀ key, ¬Spells text.toList key) ∧
    (Malformed text.toList → parseKey text = .error ⟨text⟩) ∧
    ofByteText? text.toList = ofText? text.toList := by
  refine ⟨fun _ => parseKey_eq_ok_iff, parseKey_eq_error_iff, ?_, ofByteText?_eq _⟩
  intro malformed
  exact parseKey_eq_error_iff.mpr malformed.not_spells

/-- Two marks, a sign and three zeros leave `B`; behind the sign a mark is none; and a long number
    is refused, also when it is read in a byte. -/
theorem spelling_decides_marked :
    parseKey "0x0x+000B" = .ok 11 ∧
    (Malformed "+0xB".toList ∧ parseKey "+0xB" = .error ⟨"+0xB"⟩) ∧
    ofByteText? "100000000B".toList = ofText? "100000000B".toList := by
  obtain ⟨spelled, -, -, -⟩ := spelling_decides "0x0x+000B"
  obtain ⟨-, -, refused, -⟩ := spelling_decides "+0xB"
  obtain ⟨-, -, -, inByte⟩ := spelling_decides "100000000B"
  have malformed : Malformed "+0xB".toList := .markBehindPlus [] [] ['B']
  refine ⟨(spelled 11).mpr ?_, ⟨malformed, refused malformed⟩, inByte⟩
  exact ⟨2, true, 3, 'B', rfl, .inr (by decide)⟩

end Key

end ChipEight
