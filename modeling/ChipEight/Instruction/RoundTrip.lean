/-
Module: ChipEight.Instruction.RoundTrip
Purpose: Words and instructions are two forms of one thing: every instruction is read back from its
  word, and every word that is read as an instruction is that instruction's word.
Main exports: decode_encode, encode_of_decode, decode_eq_some_iff
-/
import ChipEight.Instruction.Encoding

namespace ChipEight

namespace Operator

/-- An operator's code is a nibble. -/
theorem code_lt (op : Operator) : op.code < 0x10 := by cases op <;> decide

/-- An operator is read back from its code. -/
@[simp] theorem ofCode?_code (op : Operator) : ofCode? op.code = some op := by cases op <;> rfl

/-- Only its own code names an operator. -/
theorem code_of_ofCode? {n : Nat} {op : Operator} (h : ofCode? n = some op) : op.code = n := by
  unfold ofCode? at h
  split at h <;> cases h <;> rfl

end Operator

namespace Instruction

/-!
### Fields of a word

An operand is read from the twelve low bits by a division and a remainder. Each lemma here says that
one field comes back from the sum that the word was put together as, whatever the other fields are.
-/

/-- A word as a number: nothing is lost when family and operands fit. -/
theorem toNat_word {f k : Nat} (hf : f < 0x10) (hk : k < 0x1000) :
    (word f k).toNat = f * 0x1000 + k := by
  simp only [word, UInt16.toNat_ofNat']
  omega

/-- A word is read by its family and its operands. -/
theorem decode_word {f k : Nat} (hf : f < 0x10) (hk : k < 0x1000) :
    decode (word f k) = member? f k := by
  rw [decode, toNat_word hf hk]
  congr 1 <;> omega

/-- The high nibble of the operands. -/
theorem lowNibble_high (x : Nibble) {r : Nat} (h : r < 0x100) :
    lowNibble ((x * 0x100 + r) / 0x100) = x := by
  apply Fin.ext
  simp only [lowNibble]
  omega

/-- The middle nibble of the operands. -/
theorem lowNibble_middle (x y : Nibble) {r : Nat} (h : r < 0x10) :
    lowNibble ((x * 0x100 + y * 0x10 + r) / 0x10) = y := by
  apply Fin.ext
  simp only [lowNibble]
  omega

/-- The low nibble of the operands. -/
theorem lowNibble_low (x y n : Nibble) :
    lowNibble (x * 0x100 + y * 0x10 + n) = n := by
  apply Fin.ext
  simp only [lowNibble]
  omega

/-- The low byte of the operands, as a byte. -/
theorem ofNat_byte (x : Nibble) (nn : UInt8) :
    UInt8.ofNat (x * 0x100 + nn.toNat) = nn := by
  have := nn.toNat_lt
  apply UInt8.toNat_inj.1
  simp only [UInt8.toNat_ofNat']
  omega

/-- The low byte of the operands, as a number. -/
theorem mod_byte (x : Nibble) {r : Nat} (h : r < 0x100) : (x * 0x100 + r) % 0x100 = r := by
  omega

/-- All twelve bits of the operands. -/
theorem lowAddress_self (a : Address) : lowAddress a = a := by
  apply Fin.ext
  simp only [lowAddress]
  omega

/-!
### From an instruction to its word and back

The skip instructions, the operators and the sprites have several nibbles each and are taken by
themselves; the other instructions follow from the fields one by one.
-/

/-- A skip instruction is read back. -/
theorem decode_encode_skipIf (c : Condition) : decode (encode (.skipIf c)) = some (.skipIf c) := by
  cases c with
  | equalsByte x nn | differsFromByte x nn =>
    have := nn.toNat_lt
    simp only [encode]
    rw [decode_word (by omega) (by omega)]
    simp only [member?, lowNibble_high x this, ofNat_byte]
  | equals x y | differs x y =>
    simp only [encode]
    rw [decode_word (by omega) (by omega)]
    have hx := lowNibble_high x (r := y * 0x10) (by omega)
    have hy := lowNibble_middle x y (r := 0) (by omega)
    have hl : ((x : Nat) * 0x100 + y * 0x10) % 0x10 = 0 := by omega
    simp only [Nat.add_zero] at hy
    simp only [member?, hl, hx, hy, if_true]
  | keyDown x | keyUp x =>
    simp only [encode]
    rw [decode_word (by omega) (by omega)]
    simp (disch := decide) only [member?, lowNibble_high, mod_byte, keyMember?]

/-- A register-to-register instruction is read back. -/
theorem decode_encode_combine (op : Operator) (x y : Nibble) :
    decode (encode (.combine op x y)) = some (.combine op x y) := by
  have hop := op.code_lt
  simp only [encode]
  rw [decode_word (by omega) (by omega)]
  have hx := lowNibble_high x (r := y * 0x10 + op.code) (by omega)
  have hl : (x * 0x100 + y * 0x10 + op.code) % 0x10 = op.code := by omega
  rw [← Nat.add_assoc] at hx
  simp only [member?, hl, hx, lowNibble_middle x y hop, Operator.ofCode?_code, Option.map_some]

/-- A sprite instruction is read back. -/
theorem decode_encode_draw (x y n : Nibble) :
    decode (encode (.draw x y n)) = some (.draw x y n) := by
  simp only [encode]
  rw [decode_word (by omega) (by omega)]
  have hx := lowNibble_high x (r := y * 0x10 + n) (by omega)
  rw [← Nat.add_assoc] at hx
  simp only [member?, hx, lowNibble_middle x y n.isLt, lowNibble_low]

/-- Every instruction is read back from its word. -/
theorem decode_encode (i : Instruction) : decode (encode i) = some i := by
  cases i with
  | clearScreen | ret => rfl
  | jump addr | call addr | loadIndex addr | jumpOffset addr =>
    simp only [encode]
    rw [decode_word (by omega) (by omega)]
    simp only [member?, lowAddress_self]
  | skipIf c => exact decode_encode_skipIf c
  | loadByte x nn | addByte x nn | random x nn =>
    have := nn.toNat_lt
    simp only [encode]
    rw [decode_word (by omega) (by omega)]
    simp only [member?, lowNibble_high x this, ofNat_byte]
  | combine op x y => exact decode_encode_combine op x y
  | draw x y n => exact decode_encode_draw x y n
  | _ x =>
    simp only [encode]
    rw [decode_word (by omega) (by omega)]
    simp (disch := decide) only [member?, lowNibble_high, mod_byte, deviceMember?]

/-!
### From a word to an instruction and back

The families whose members are told apart by fixed bits name those bits again when they are written;
in every other family the operands add up to the twelve bits they were taken from.
-/

/-- A member of the family `0___` is written as its twelve bits. -/
theorem encode_of_systemMember {k : Nat} {i : Instruction} (h : systemMember? k = some i) :
    encode i = word 0x0 k := by
  unfold systemMember? at h
  split at h <;> cases h <;> rfl

/-- A member of the family `EX__` is written as its register and its low byte. -/
theorem encode_of_keyMember {x : Nibble} {b : Nat} {i : Instruction}
    (h : keyMember? x b = some i) : encode i = word 0xE (x * 0x100 + b) := by
  unfold keyMember? at h
  split at h <;> cases h <;> rfl

/-- A member of the family `FX__` is written as its register and its low byte. -/
theorem encode_of_deviceMember {x : Nibble} {b : Nat} {i : Instruction}
    (h : deviceMember? x b = some i) : encode i = word 0xF (x * 0x100 + b) := by
  unfold deviceMember? at h
  split at h <;> cases h <;> rfl

/-- Three nibbles joined again. -/
theorem join_nibbles {k n : Nat} (h : k % 0x10 = n) :
    k / 0x100 * 0x100 + k / 0x10 % 0x10 * 0x10 + n = k := by omega

/-- A member of a family is written as the operands that it was read from. -/
theorem encode_of_member {f k : Nat} {i : Instruction} (hk : k < 0x1000)
    (h : member? f k = some i) : encode i = word f k := by
  have hx : (lowNibble (k / 0x100)).val = k / 0x100 := by simp only [lowNibble]; omega
  have hy : (lowNibble (k / 0x10)).val = k / 0x10 % 0x10 := rfl
  have hn : (lowNibble k).val = k % 0x10 := rfl
  have ha : (lowAddress k).val = k := by simp only [lowAddress]; omega
  have hb : (UInt8.ofNat k).toNat = k % 0x100 := by simp
  have hk' := Nat.div_add_mod' k 0x100
  unfold member? at h
  split at h
  case h_1 => exact encode_of_systemMember h
  case h_6 | h_10 =>
    split at h <;> cases h
    next h0 =>
      have hk := join_nibbles h0
      rw [Nat.add_zero] at hk
      simp only [encode, hx, hy, hk]
  case h_9 =>
    obtain ⟨op, hop, rfl⟩ := Option.map_eq_some_iff.1 h
    simp only [encode, hx, hy, join_nibbles (Operator.code_of_ofCode? hop).symm]
  case h_14 => cases h; simp only [encode, hx, hy, hn, join_nibbles rfl]
  case h_15 => rw [encode_of_keyMember h, hx, hk']
  case h_16 => rw [encode_of_deviceMember h, hx, hk']
  case h_17 => cases h
  all_goals cases h; simp only [encode, hx, hb, ha, hk']

/-- Every word that is read as an instruction is that instruction's word. -/
theorem encode_of_decode {w : UInt16} {i : Instruction} (h : decode w = some i) : encode i = w := by
  have hw := w.toNat_lt
  rw [encode_of_member (by omega) h]
  apply UInt16.toNat_inj.1
  rw [toNat_word (by omega) (by omega)]
  omega

/-- Reading accepts exactly the words that writing produces. -/
theorem decode_eq_some_iff {w : UInt16} {i : Instruction} : decode w = some i ↔ w = encode i :=
  ⟨fun h => (encode_of_decode h).symm, fun h => h ▸ decode_encode i⟩

end Instruction

end ChipEight
