/-
Module: ChipEight.Proofs.ColorText
Purpose: The texts that write a colour. Such a text is six hexadecimal digits of either case, two for
  each channel, with at most one mark `0x` in front of them; every other text is refused, with itself
  in the error. The digits may also be cut out at bytes, where a cut inside a character is a trap. No
  cut is one, because the characters are looked at first, and a digit is a single byte.
Main exports: Numeral.IsHexDigit, Rgb.Spells, Rgb.ofText?_eq_some_iff, Rgb.WellSpelled, Rgb.hexText,
  Rgb.Torn, Rgb.cut, Rgb.parseCutting, Rgb.parseCutting_eq, Rgb.color_spelling_decides
-/
import ChipEight.Proofs.KeyText
import ChipEight.Proofs.WrittenValues
import Mathlib.Data.String.Basic

namespace ChipEight

namespace Numeral

variable {c : Char}

/-- A hexadecimal digit of either case. -/
def IsHexDigit (c : Char) : Prop :=
  ('0' ≤ c ∧ c ≤ '9') ∨ ('a' ≤ c ∧ c ≤ 'f') ∨ ('A' ≤ c ∧ c ≤ 'F')

instance (c : Char) : Decidable (IsHexDigit c) := inferInstanceAs (Decidable (_ ∨ _ ∨ _))

/-- The digits are the characters that have a value. -/
theorem isHexDigit_iff_isSome : IsHexDigit c ↔ (hexDigit? c).isSome = true := by
  rw [hexDigit?, IsHexDigit]
  split
  case isTrue decimal => simp [decimal]
  case isFalse notDecimal =>
    split
    case isTrue lower => simp [lower]
    case isFalse notLower =>
      split
      case isTrue upper => simp [upper]
      case isFalse notUpper => simp [notDecimal, notLower, notUpper]

/-- The digits are the characters that write a number below sixteen. -/
theorem isHexDigit_iff_writes : IsHexDigit c ↔ ∃ d < 16, WritesDigit c d := by
  rw [isHexDigit_iff_isSome, Option.isSome_iff_exists]
  constructor
  · rintro ⟨d, read⟩
    exact ⟨d, writes_of_hexDigit? read⟩
  · rintro ⟨d, small, writes⟩
    exact ⟨d, hexDigit?_of_writes small writes⟩

/-- A digit is a single byte. -/
theorem IsHexDigit.utf8Size_eq_one (digit : IsHexDigit c) : c.utf8Size = 1 := by
  obtain ⟨d, read⟩ := Option.isSome_iff_exists.mp (isHexDigit_iff_isSome.mp digit)
  have ascii : c.val.toNat < 128 := toNat_lt_of_hexDigit? read
  rw [Char.utf8Size_eq_one_iff, UInt32.le_iff_toNat_le]
  exact Nat.le_of_lt_succ ascii

/-- A byte in hexadecimal has two digits. -/
theorem toList_hex_two (v : UInt8) :
    (hex 2 v.toNat).toList = [Nat.digitChar (v.toNat / 16), Nat.digitChar (v.toNat % 16)] := by
  rw [hex, String.toList_ofList, Nat.toDigits_eq_if (by decide)]
  split
  case isTrue small =>
    rw [Nat.div_eq_of_lt small, Nat.mod_eq_of_lt small]
    rfl
  case isFalse large =>
    rw [Nat.toDigits_eq_if (by decide), if_pos (high_digit_lt v)]
    rfl

end Numeral

open Numeral (WritesDigit IsHexDigit)

namespace Rgb

variable {text digits : List Char} {c : Rgb}

/-! ### Spellings -/

/-- A mark `0x`, or nothing. -/
def mark (marked : Bool) : List Char := if marked then ['0', 'x'] else []

/-- The text spells the colour: perhaps a mark, and then the two digits of each channel. -/
def Spells (text : List Char) (c : Rgb) : Prop :=
  ∃ marked r₁ r₀ g₁ g₀ b₁ b₀, text = mark marked ++ [r₁, r₀, g₁, g₀, b₁, b₀] ∧
    WritesChannel r₁ r₀ c.r ∧ WritesChannel g₁ g₀ c.g ∧ WritesChannel b₁ b₀ c.b

/-- The text is perhaps a mark, and then six hexadecimal digits. -/
def WellSpelled (text : List Char) : Prop :=
  ∃ marked digits, text = mark marked ++ digits ∧ digits.length = 6 ∧ ∀ d ∈ digits, IsHexDigit d

/-- All that is dropped is a mark. -/
theorem exists_eq_mark_append (text : List Char) : ∃ marked, text = mark marked ++ dropMark text := by
  rw [dropMark.eq_def]
  split
  · exact ⟨true, rfl⟩
  · exact ⟨false, rfl⟩

/-- Digits have no mark among them. -/
theorem dropMark_mark_append (marked : Bool) (hexadecimal : ∀ d ∈ digits, IsHexDigit d) :
    dropMark (mark marked ++ digits) = digits := by
  cases marked with
  | true => rfl
  | false =>
      rw [mark]
      simp only [Bool.false_eq_true, if_false, List.nil_append]
      rw [dropMark]
      rintro rest rfl
      have digit : IsHexDigit 'x' := hexadecimal 'x' (by simp)
      exact absurd digit (by decide)

/-! ### Channels -/

theorem WritesChannel.isHexDigit {high low : Char} {v : UInt8} (writes : WritesChannel high low v) :
    IsHexDigit high ∧ IsHexDigit low := by
  have remainder : v.toNat % 16 < 16 := Nat.mod_lt _ (by decide)
  exact ⟨Numeral.isHexDigit_iff_writes.mpr ⟨_, Numeral.high_digit_lt v, writes.1⟩,
    Numeral.isHexDigit_iff_writes.mpr ⟨_, remainder, writes.2⟩⟩

/-- Any two digits write a channel. -/
theorem exists_writesChannel {high low : Char} (digitHigh : IsHexDigit high)
    (digitLow : IsHexDigit low) : ∃ v, WritesChannel high low v := by
  obtain ⟨a, smallHigh, writesHigh⟩ := Numeral.isHexDigit_iff_writes.mp digitHigh
  obtain ⟨b, smallLow, writesLow⟩ := Numeral.isHexDigit_iff_writes.mp digitLow
  have fits : 16 * a + b < UInt8.size := by
    simp only [UInt8.size]
    omega
  have quotient : (16 * a + b) / 16 = a := by omega
  have remainder : (16 * a + b) % 16 = b := by omega
  refine ⟨UInt8.ofNat (16 * a + b), ?_, ?_⟩
  · rw [UInt8.toNat_ofNat_of_lt' fits, quotient]
    exact writesHigh
  · rw [UInt8.toNat_ofNat_of_lt' fits, remainder]
    exact writesLow

theorem isHexDigit_of_channel? {high low : Char} {v : UInt8} (read : channel? high low = some v) :
    IsHexDigit high ∧ IsHexDigit low := by
  rw [channel?, Option.map_eq_some_iff] at read
  obtain ⟨n, read, -⟩ := read
  have digits : ∀ d ∈ [high, low], (Numeral.hexDigit? d).isSome = true :=
    Numeral.isSome_of_readFrom? read
  exact ⟨Numeral.isHexDigit_iff_isSome.mpr (digits high (by simp)),
    Numeral.isHexDigit_iff_isSome.mpr (digits low (by simp))⟩

/-- Two characters are read as the channel that they write, and as no other. -/
theorem channel?_eq_some_iff {high low : Char} {v : UInt8} :
    channel? high low = some v ↔ WritesChannel high low v := by
  constructor
  · intro read
    obtain ⟨digitHigh, digitLow⟩ := isHexDigit_of_channel? read
    obtain ⟨w, writes⟩ := exists_writesChannel digitHigh digitLow
    rw [channel?_of_writes writes, Option.some.injEq] at read
    exact read ▸ writes
  · exact channel?_of_writes

/-! ### The colour that a text writes -/

theorem Spells.wellSpelled (spells : Spells text c) : WellSpelled text := by
  obtain ⟨marked, r₁, r₀, g₁, g₀, b₁, b₀, rfl, red, green, blue⟩ := spells
  refine ⟨marked, _, rfl, rfl, ?_⟩
  simp [red.isHexDigit, green.isHexDigit, blue.isHexDigit]

/-- The colour of six digits behind a dropped mark. -/
theorem ofText?_eq_some_iff_dropMark : ofText? text = some c ↔
    ∃ r₁ r₀ g₁ g₀ b₁ b₀, dropMark text = [r₁, r₀, g₁, g₀, b₁, b₀] ∧
      WritesChannel r₁ r₀ c.r ∧ WritesChannel g₁ g₀ c.g ∧ WritesChannel b₁ b₀ c.b := by
  rw [ofText?]
  constructor
  · intro read
    split at read
    case h_1 r₁ r₀ g₁ g₀ b₁ b₀ six =>
      simp only [Option.bind_eq_bind, Option.bind_eq_some_iff, Option.pure_def,
        Option.some.injEq] at read
      obtain ⟨r, red, g, green, b, blue, rfl⟩ := read
      exact ⟨r₁, r₀, g₁, g₀, b₁, b₀, six, channel?_eq_some_iff.mp red,
        channel?_eq_some_iff.mp green, channel?_eq_some_iff.mp blue⟩
    case h_2 => cases read
  · rintro ⟨r₁, r₀, g₁, g₀, b₁, b₀, six, red, green, blue⟩
    simp [six, channel?_of_writes red, channel?_of_writes green, channel?_of_writes blue]

/-- A text writes the colour that it spells, and no other. -/
theorem ofText?_eq_some_iff : ofText? text = some c ↔ Spells text c := by
  rw [ofText?_eq_some_iff_dropMark]
  constructor
  · rintro ⟨r₁, r₀, g₁, g₀, b₁, b₀, six, channels⟩
    obtain ⟨marked, split⟩ := exists_eq_mark_append text
    refine ⟨marked, r₁, r₀, g₁, g₀, b₁, b₀, ?_, channels⟩
    rw [← six]
    exact split
  · rintro ⟨marked, r₁, r₀, g₁, g₀, b₁, b₀, rfl, red, green, blue⟩
    refine ⟨r₁, r₀, g₁, g₀, b₁, b₀, dropMark_mark_append marked ?_, red, green, blue⟩
    simp [red.isHexDigit, green.isHexDigit, blue.isHexDigit]

/-- A list of six is its members. -/
theorem eq_of_length_six (six : digits.length = 6) :
    ∃ r₁ r₀ g₁ g₀ b₁ b₀, digits = [r₁, r₀, g₁, g₀, b₁, b₀] := by
  match digits, six with
  | [r₁, r₀, g₁, g₀, b₁, b₀], _ => exact ⟨r₁, r₀, g₁, g₀, b₁, b₀, rfl⟩

/-- Six digits spell a colour, whichever they are. -/
theorem exists_spells_iff : (∃ c, Spells text c) ↔ WellSpelled text := by
  constructor
  · rintro ⟨c, spells⟩
    exact spells.wellSpelled
  · rintro ⟨marked, digits, rfl, six, hexadecimal⟩
    obtain ⟨r₁, r₀, g₁, g₀, b₁, b₀, rfl⟩ := eq_of_length_six six
    simp only [List.forall_mem_cons] at hexadecimal
    obtain ⟨digitR₁, digitR₀, digitG₁, digitG₀, digitB₁, digitB₀, -⟩ := hexadecimal
    obtain ⟨r, red⟩ := exists_writesChannel digitR₁ digitR₀
    obtain ⟨g, green⟩ := exists_writesChannel digitG₁ digitG₀
    obtain ⟨b, blue⟩ := exists_writesChannel digitB₁ digitB₀
    exact ⟨⟨r, g, b⟩, marked, r₁, r₀, g₁, g₀, b₁, b₀, rfl, red, green, blue⟩

theorem parse_eq_ok_iff {text : String} : parse text = .ok c ↔ Spells text.toList c := by
  rw [← ofText?_eq_some_iff, parse]
  cases ofText? text.toList with
  | none => simp
  | some d => simp

theorem parse_eq_error_iff {text : String} :
    parse text = .error ⟨text⟩ ↔ ¬WellSpelled text.toList := by
  simp only [← exists_spells_iff, ← ofText?_eq_some_iff]
  rw [parse]
  cases ofText? text.toList with
  | none => simp
  | some d => simp

/-! ### The text of a colour -/

/-- A colour in hexadecimal, two digits for each channel, with or without a mark, and with its letters
    upper-case or lower-case. -/
def hexText (c : Rgb) (marked upper : Bool) : String :=
  let digits := Numeral.hex 2 c.r.toNat ++ Numeral.hex 2 c.g.toNat ++ Numeral.hex 2 c.b.toNat
  (if marked then "0x" else "") ++ (if upper then digits.toUpper else digits)

/-- The upper-case digits write a channel as well. -/
theorem writesChannel_toUpper (v : UInt8) :
    WritesChannel (Nat.digitChar (v.toNat / 16)).toUpper (Nat.digitChar (v.toNat % 16)).toUpper v :=
  ⟨.inr rfl, .inr rfl⟩

theorem spells_hexText (c : Rgb) (marked upper : Bool) :
    Spells (c.hexText marked upper).toList c := by
  have red := writesChannel_digitChar c.r
  have green := writesChannel_digitChar c.g
  have blue := writesChannel_digitChar c.b
  have redUpper := writesChannel_toUpper c.r
  have greenUpper := writesChannel_toUpper c.g
  have blueUpper := writesChannel_toUpper c.b
  have marks : (if marked then "0x" else "").toList = mark marked := by cases marked <;> rfl
  rw [hexText, String.toList_append, marks]
  cases upper with
  | false =>
      refine ⟨marked, _, _, _, _, _, _, ?_, red, green, blue⟩
      simp [Numeral.toList_hex_two]
  | true =>
      refine ⟨marked, _, _, _, _, _, _, ?_, redUpper, greenUpper, blueUpper⟩
      simp [Numeral.toList_hex_two, String.toUpper]

/-! ### Cutting at bytes -/

/-- A text that cannot be cut: one of the two bytes lies inside a character or behind the end, or they
    are in the wrong order. -/
structure Torn where
  start : Nat
  stop : Nat
deriving DecidableEq, Repr

/-- The piece of a text between two bytes, both of which have to stand between characters. -/
def cut (text : String) (start stop : Nat) : Except Torn String :=
  if start ≤ stop ∧ String.Pos.Raw.IsValid text ⟨start⟩ ∧ String.Pos.Raw.IsValid text ⟨stop⟩ then
    .ok (String.Pos.Raw.extract text ⟨start⟩ ⟨stop⟩)
  else .error ⟨start, stop⟩

/-- The channel that two bytes of the digits write, read as a number in a byte. -/
def channelAt (text digits : String) (start : Nat) : ExceptT ColorError (Except Torn) UInt8 := do
  let pair ← cut digits start (start + 2)
  match Numeral.readByte? (Numeral.dropPlus pair.toList) with
  | some v => return v
  | none => throw ⟨text⟩

/-- Reads a colour by counting and cutting bytes. -/
def parseCutting (text : String) : ExceptT ColorError (Except Torn) Rgb :=
  let digits := String.ofList (dropMark text.toList)
  if digits.utf8ByteSize = 6 ∧ digits.toList.all (IsHexDigit ·) then do
    let r ← channelAt text digits 0
    let g ← channelAt text digits 2
    let b ← channelAt text digits 4
    return ⟨r, g, b⟩
  else throw ⟨text⟩

/-- A text is cut behind any of its characters. -/
theorem isValid_utf8Len (front back : List Char) :
    String.Pos.Raw.IsValid (String.ofList (front ++ back)) ⟨String.utf8Len front⟩ := by
  rw [String.Pos.Raw.isValid_ofList]
  refine ⟨front.length, ?_⟩
  rw [List.take_left, String.utf8ByteSize_ofList]

/-- A piece that is made of whole characters is cut out. -/
theorem cut_append (front middle back : List Char) :
    cut (String.ofList (front ++ middle ++ back)) (String.utf8Len front)
      (String.utf8Len front + String.utf8Len middle) = .ok (String.ofList middle) := by
  have start := isValid_utf8Len front (middle ++ back)
  have stop := isValid_utf8Len (front ++ middle) back
  rw [← List.append_assoc] at start
  rw [String.utf8Len_append] at stop
  rw [cut, if_pos ⟨Nat.le_add_right _ _, start, stop⟩, String.extract_of_valid]

-- Six bytes, though only four characters: the second character has two.
example : cut "0éé0" 0 3 = .ok "0é" ∧ cut "0éé0" 0 2 = .error ⟨0, 2⟩ := by decide

/-- Digits are as many bytes as characters. -/
theorem utf8Len_of_isHexDigit (hexadecimal : ∀ d ∈ digits, IsHexDigit d) :
    String.utf8Len digits = digits.length := by
  induction digits with
  | nil => rfl
  | cons d rest inductionHypothesis =>
      obtain ⟨first, others⟩ := List.forall_mem_cons.mp hexadecimal
      rw [String.utf8Len_cons, inductionHypothesis others, first.utf8Size_eq_one, List.length_cons]

/-- Two digits have no sign in front, and their number is a byte. -/
theorem readByte?_pair {high low : Char} {v : UInt8} (writes : WritesChannel high low v) :
    Numeral.readByte? (Numeral.dropPlus [high, low]) = some v := by
  have unsigned : high ≠ '+' := by
    rintro rfl
    exact absurd writes.isHexDigit.1 (by decide)
  have dropped : Numeral.dropPlus [high, low] = [high, low] := by
    rw [Numeral.dropPlus]
    rintro rest same
    exact unsigned (List.cons_eq_cons.mp same).1
  have fits : v.toNat < UInt8.size := v.toNat_lt
  rw [dropped, Numeral.readByte?_eq,
    Numeral.readHex?_pair (Numeral.high_digit_lt v) (Nat.mod_lt _ (by decide)) writes.1 writes.2,
    Nat.div_add_mod,
    Option.bind_some, if_pos fits, UInt8.ofNat_toNat]

/-- A channel is read from its two digits, wherever they stand among digits. -/
theorem channelAt_append (text : String) (front back : List Char) {high low : Char} {v : UInt8}
    (leading : ∀ d ∈ front, IsHexDigit d) (writes : WritesChannel high low v) :
    channelAt text (String.ofList (front ++ [high, low] ++ back)) front.length =
      (pure v : ExceptT ColorError (Except Torn) UInt8) := by
  have pair : ∀ d ∈ [high, low], IsHexDigit d := by simp [writes.isHexDigit]
  have piece := cut_append front [high, low] back
  rw [utf8Len_of_isHexDigit leading, utf8Len_of_isHexDigit pair] at piece
  change cut _ front.length (front.length + 2) = _ at piece
  rw [channelAt, piece]
  change (match Numeral.readByte? (Numeral.dropPlus (String.ofList [high, low]).toList) with
    | some v => pure v
    | none => throw ⟨text⟩ : ExceptT ColorError (Except Torn) UInt8) = _
  rw [String.toList_ofList, readByte?_pair writes]

/-- The digits behind a mark pass the two checks exactly if the text spells a colour. -/
theorem checks_iff_wellSpelled : WellSpelled text ↔
    (String.ofList (dropMark text)).utf8ByteSize = 6 ∧
      (String.ofList (dropMark text)).toList.all (IsHexDigit ·) := by
  simp only [String.toList_ofList, String.utf8ByteSize_ofList, List.all_eq_true, decide_eq_true_eq]
  constructor
  · rintro ⟨marked, digits, rfl, six, hexadecimal⟩
    rw [dropMark_mark_append marked hexadecimal, utf8Len_of_isHexDigit hexadecimal]
    exact ⟨six, hexadecimal⟩
  · rintro ⟨six, hexadecimal⟩
    obtain ⟨marked, split⟩ := exists_eq_mark_append text
    rw [utf8Len_of_isHexDigit hexadecimal] at six
    exact ⟨marked, _, split, six, hexadecimal⟩

/-- The cutting reader never tears a text, and reads it as the colour that it spells. -/
theorem parseCutting_eq (text : String) : (parseCutting text).run = .ok (parse text) := by
  by_cases wellSpelled : WellSpelled text.toList
  · obtain ⟨c, spells⟩ := exists_spells_iff.mpr wellSpelled
    rw [parse_eq_ok_iff.mpr spells, parseCutting, if_pos (checks_iff_wellSpelled.mp wellSpelled)]
    obtain ⟨r₁, r₀, g₁, g₀, b₁, b₀, six, red, green, blue⟩ :=
      ofText?_eq_some_iff_dropMark.mp (ofText?_eq_some_iff.mpr spells)
    have atRed := channelAt_append text [] [g₁, g₀, b₁, b₀] (by simp) red
    have atGreen := channelAt_append text [r₁, r₀] [b₁, b₀] (by simp [red.isHexDigit]) green
    have atBlue := channelAt_append text [r₁, r₀, g₁, g₀] []
      (by simp [red.isHexDigit, green.isHexDigit]) blue
    simp only [List.nil_append, List.cons_append, List.append_nil, List.length_nil, List.length_cons,
      Nat.zero_add, Nat.reduceAdd] at atRed atGreen atBlue
    simp only [six, atRed, atGreen, atBlue]
    rfl
  · rw [parse_eq_error_iff.mpr wellSpelled, parseCutting,
      if_neg (wellSpelled ∘ checks_iff_wellSpelled.mpr)]
    rfl

/-- The spelling of a colour decides. Whatever the text, cutting it at bytes never tears it and reads
    what the characters say. It is read as a colour exactly if it is perhaps one mark `0x` and then
    six hexadecimal digits of either case, and the channels are then the values of the three pairs
    of digits; every other text is refused, with itself in the error. And every colour is read back
    from its own text, marked or not, in upper case or lower case. -/
theorem color_spelling_decides :
    (∀ text : String,
      (parseCutting text).run = .ok (parse text) ∧
      (∀ c, parse text = .ok c ↔ Spells text.toList c) ∧
      ((∃ c, parse text = .ok c) ↔ WellSpelled text.toList) ∧
      (parse text = .error ⟨text⟩ ↔ ¬WellSpelled text.toList)) ∧
    ∀ (c : Rgb) (marked upper : Bool), parse (c.hexText marked upper) = .ok c := by
  refine ⟨fun text => ⟨parseCutting_eq text, fun _ => parse_eq_ok_iff, ?_, parse_eq_error_iff⟩, ?_⟩
  · simp only [parse_eq_ok_iff]
    exact exists_spells_iff
  · intro c marked upper
    exact parse_eq_ok_iff.mpr (spells_hexText c marked upper)

end Rgb

end ChipEight
