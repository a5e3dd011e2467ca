/-
Module: ChipEight.Proofs.AssemblyText
Purpose: Assembly text is unambiguous. A line of it is a statement: a keyword and its operands, with a
  blank behind the keyword and commas between the operands. Every statement is read back from its
  text, and every instruction from its statement, so that a listing can be assembled again from its
  last column alone.
Main exports: Operand, Operand.ofText?, Keyword, Statement, Statement.ofText?,
  Statement.ofText?_text, Statement.word?, Instruction.statement, Instruction.mnemonic_eq_text,
  Listing.column, Listing.assembleText?, Listing.listing_text_determines_image
-/
import ChipEight.CommandLine.Program
import ChipEight.Proofs.Assembly
import ChipEight.Proofs.Numerals

namespace ChipEight

/-! ### Operands -/

/-- An operand in assembly text. -/
inductive Operand where
  | register (x : Nibble)
  | byte (nn : UInt8)
  | address (addr : Address)
  | word (w : UInt16)
  /-- The height of a sprite. -/
  | height (n : Nibble)
  /-- The register I. -/
  | index
  /-- The cells from I on. -/
  | cells
  | delay
  | sound
  | key
  | glyph
  /-- The three decimal digits of a byte. -/
  | decimal
deriving DecidableEq, Repr

/-- The text is in one piece. -/
def Solid (text : List Char) : Prop := ∀ c ∈ text, c ≠ ' ' ∧ c ≠ ','

-- Named, because the search may find the instance that tries every character there is.
instance (text : List Char) : Decidable (Solid text) :=
  List.decidableBAll (fun c => c ≠ ' ' ∧ c ≠ ',') text

namespace Operand

def text : Operand → String
  | register x => registerName x
  | byte nn => byteText nn
  | address addr => addressText addr
  | word w => "0x" ++ Numeral.hex 4 w.toNat
  | height n => Numeral.decimal n
  | index => "I"
  | cells => "[I]"
  | delay => "DT"
  | sound => "ST"
  | key => "K"
  | glyph => "F"
  | decimal => "B"

/-- What a number stands for is told by the count of its hexadecimal digits. -/
def ofNumber? (n : Nat) : Nat → Option Operand
  | 2 => some (byte (UInt8.ofNat n))
  | 3 => some (address (lowAddress n))
  | 4 => some (word (UInt16.ofNat n))
  | _ => none

/-- The operand that hexadecimal digits write. -/
def ofDigits? (digits : List Char) : Option Operand :=
  (Numeral.readHex? digits).bind fun n => ofNumber? n digits.length

theorem ofDigits?_hex {width n : Nat} (positive : 0 < width) (fits : n < 16 ^ width) :
    ofDigits? (Numeral.hex width n).toList = ofNumber? n width := by
  rw [ofDigits?, Numeral.readHex?_hex, Option.bind_some, Numeral.length_hex positive fits]

/-- The operand that a text stands for. -/
def ofText? : List Char → Option Operand
  | ['V', digit] => (Numeral.hexDigit? digit).map fun x => register (lowNibble x)
  | '0' :: 'x' :: digits => ofDigits? digits
  | ['I'] => some index
  | ['[', 'I', ']'] => some cells
  | ['D', 'T'] => some delay
  | ['S', 'T'] => some sound
  | ['K'] => some key
  | ['F'] => some glyph
  | ['B'] => some decimal
  | numeral => (Numeral.readDecimal? numeral).map fun n => height (lowNibble n)

theorem ofText?_marked (digits : List Char) :
    ofText? ("0x".toList ++ digits) = ofDigits? digits := rfl

/-- Every operand is read back from its text. -/
theorem ofText?_text (o : Operand) : ofText? o.text.toList = some o := by
  cases o with
  | register x =>
      revert x
      decide
  | height n =>
      revert n
      decide
  | byte nn =>
      rw [text, byteText, String.toList_append, ofText?_marked,
        ofDigits?_hex (by decide) nn.toNat_lt, ofNumber?, UInt8.ofNat_toNat]
  | address addr =>
      rw [text, addressText, String.toList_append, ofText?_marked,
        ofDigits?_hex (by decide) addr.isLt, ofNumber?, Instruction.lowAddress_self]
  | word w =>
      rw [text, String.toList_append, ofText?_marked, ofDigits?_hex (by decide) w.toNat_lt,
        ofNumber?, UInt16.ofNat_toNat]
  | _ => rfl

theorem solid_marked (width n : Nat) : Solid ("0x" ++ Numeral.hex width n).toList := by
  intro c member
  rw [String.toList_append, List.mem_append] at member
  have mark : Solid "0x".toList := by decide
  rcases member with inMark | inDigits
  · exact mark c inMark
  · exact ⟨Numeral.ne_of_mem_hex rfl inDigits, Numeral.ne_of_mem_hex rfl inDigits⟩

theorem solid_text (o : Operand) : Solid o.text.toList := by
  cases o with
  | register x =>
      revert x
      decide
  | height n =>
      revert n
      decide
  | byte nn => exact solid_marked 2 nn.toNat
  | address addr => exact solid_marked 3 addr.val
  | word w => exact solid_marked 4 w.toNat
  | _ => decide

end Operand

/-! ### Keywords -/

/-- What a statement begins with. -/
inductive Keyword where
  | cls
  | ret
  | jp
  | call
  | se
  | sne
  | skp
  | sknp
  | ld
  | add
  | or
  | and
  | xor
  | sub
  | shr
  | subn
  | shl
  | rnd
  | drw
  /-- The word itself, as data. -/
  | dw
deriving DecidableEq, Repr

namespace Keyword

def text : Keyword → String
  | cls => "CLS"
  | ret => "RET"
  | jp => "JP"
  | call => "CALL"
  | se => "SE"
  | sne => "SNE"
  | skp => "SKP"
  | sknp => "SKNP"
  | ld => "LD"
  | add => "ADD"
  | or => "OR"
  | and => "AND"
  | xor => "XOR"
  | sub => "SUB"
  | shr => "SHR"
  | subn => "SUBN"
  | shl => "SHL"
  | rnd => "RND"
  | drw => "DRW"
  | dw => "DW"

def all : List Keyword :=
  [cls, ret, jp, call, se, sne, skp, sknp, ld, add, or, and, xor, sub, shr, subn, shl, rnd, drw, dw]

/-- The keyword with a text. -/
def ofText? (text : List Char) : Option Keyword := all.find? fun k => k.text.toList = text

theorem ofText?_text (k : Keyword) : ofText? k.text.toList = some k := by
  cases k <;> decide

theorem solid_text (k : Keyword) : Solid k.text.toList := by
  cases k <;> decide

end Keyword

/-! ### Statements -/

/-- A line of assembly text. -/
structure Statement where
  keyword : Keyword
  operands : List Operand
deriving DecidableEq, Repr

/-- The words of a line; commas do not count. -/
def lineWords (line : List Char) : List (List Char) := (line.filter (· ≠ ',')).splitOn ' '

namespace Statement

/-- A statement as a line: a blank behind the keyword and a comma between any two operands. -/
def text : Statement → String
  | ⟨k, []⟩ => k.text
  | ⟨k, first :: rest⟩ =>
      rest.foldl (fun line o => line ++ ", " ++ o.text) (k.text ++ " " ++ first.text)

theorem text_pair (k : Keyword) (first last : Operand) :
    text ⟨k, [first, last]⟩ = k.text ++ " " ++ first.text ++ (", " ++ last.text) :=
  String.append_assoc

/-- The statement that a line stands for. -/
def ofText? (line : List Char) : Option Statement :=
  match lineWords line with
  | [] => none
  | k :: operands => do
      let keyword ← Keyword.ofText? k
      let operands ← operands.mapM Operand.ofText?
      return ⟨keyword, operands⟩

/-- The words of a statement's text. -/
def parts (s : Statement) : List (List Char) :=
  s.keyword.text.toList :: s.operands.map fun o => o.text.toList

theorem solid_parts (s : Statement) : ∀ part ∈ s.parts, Solid part := by
  refine List.forall_mem_cons.mpr ⟨s.keyword.solid_text, ?_⟩
  rintro part member
  obtain ⟨o, -, rfl⟩ := List.mem_map.mp member
  exact o.solid_text

theorem filter_comma_of_solid {text : List Char} (solid : Solid text) :
    text.filter (· ≠ ',') = text := by
  refine List.filter_eq_self.mpr fun c member => ?_
  exact decide_eq_true (solid c member).2

/-- Every operand after the first comes with a comma and a blank, of which the blank stays. -/
theorem filter_comma_foldl (line : String) (rest : List Operand) :
    (rest.foldl (fun line o => line ++ ", " ++ o.text) line).toList.filter (· ≠ ',') =
      line.toList.filter (· ≠ ',') ++ rest.flatMap fun o => ' ' :: o.text.toList := by
  induction rest generalizing line with
  | nil => exact (List.append_nil _).symm
  | cons o rest inductionHypothesis =>
      rw [List.foldl_cons, inductionHypothesis, String.toList_append, String.toList_append,
        List.filter_append, List.filter_append, filter_comma_of_solid o.solid_text,
        List.flatMap_cons, List.append_assoc, List.append_assoc]
      rfl

theorem intercalate_blank (part : List Char) (rest : List (List Char)) :
    [' '].intercalate (part :: rest) = part ++ rest.flatMap fun r => ' ' :: r := by
  induction rest generalizing part with
  | nil => simp
  | cons next rest inductionHypothesis =>
      rw [List.intercalate_cons_cons, inductionHypothesis, List.flatMap_cons, List.append_assoc]
      rfl

theorem filter_comma_text (s : Statement) :
    s.text.toList.filter (· ≠ ',') = [' '].intercalate s.parts := by
  obtain ⟨k, operands⟩ := s
  rw [parts, intercalate_blank]
  cases operands with
  | nil => exact (filter_comma_of_solid k.solid_text).trans (List.append_nil _).symm
  | cons first rest =>
      rw [text, filter_comma_foldl, String.toList_append, String.toList_append, List.filter_append,
        List.filter_append, filter_comma_of_solid k.solid_text,
        filter_comma_of_solid first.solid_text, List.map_cons, List.flatMap_cons,
        List.flatMap_map, List.append_assoc, List.append_assoc]
      rfl

theorem lineWords_text (s : Statement) : lineWords s.text.toList = s.parts := by
  rw [lineWords, filter_comma_text]
  refine List.splitOn_intercalate ' ' (fun part member blank => ?_) (List.cons_ne_nil _ _)
  exact (s.solid_parts part member ' ' blank).1 rfl

theorem mapM_ofText?_text (operands : List Operand) :
    (operands.map fun o => o.text.toList).mapM Operand.ofText? = some operands := by
  induction operands with
  | nil => rfl
  | cons o rest inductionHypothesis =>
      rw [List.map_cons, List.mapM_cons, o.ofText?_text, inductionHypothesis]
      rfl

/-- Every statement is read back from its text. -/
theorem ofText?_text (s : Statement) : ofText? s.text.toList = some s := by
  rw [ofText?, lineWords_text, parts]
  simp only [Keyword.ofText?_text, mapM_ofText?_text]
  rfl

end Statement

/-! ### Instructions as statements -/

namespace Operator

/-- The keyword of an operator. -/
def keyword : Operator → Keyword
  | .copy => .ld
  | .or => .or
  | .and => .and
  | .xor => .xor
  | .add => .add
  | .sub => .sub
  | .shiftRight => .shr
  | .subFrom => .subn
  | .shiftLeft => .shl

/-- The operator that a keyword names between two registers. -/
def ofKeyword? : Keyword → Option Operator
  | .ld => some .copy
  | .or => some .or
  | .and => some .and
  | .xor => some .xor
  | .add => some .add
  | .sub => some .sub
  | .shr => some .shiftRight
  | .subn => some .subFrom
  | .shl => some .shiftLeft
  | _ => none

theorem mnemonic_eq_keyword_text (op : Operator) : op.mnemonic = op.keyword.text := by
  cases op <;> rfl

end Operator

namespace Condition

def statement : Condition → Statement
  | .equalsByte x nn => ⟨.se, [.register x, .byte nn]⟩
  | .differsFromByte x nn => ⟨.sne, [.register x, .byte nn]⟩
  | .equals x y => ⟨.se, [.register x, .register y]⟩
  | .differs x y => ⟨.sne, [.register x, .register y]⟩
  | .keyDown x => ⟨.skp, [.register x]⟩
  | .keyUp x => ⟨.sknp, [.register x]⟩

end Condition

namespace Instruction

/-- An instruction as a statement. -/
def statement : Instruction → Statement
  | .clearScreen => ⟨.cls, []⟩
  | .ret => ⟨.ret, []⟩
  | .jump addr => ⟨.jp, [.address addr]⟩
  | .call addr => ⟨.call, [.address addr]⟩
  | .skipIf condition => condition.statement
  | .loadByte x nn => ⟨.ld, [.register x, .byte nn]⟩
  | .addByte x nn => ⟨.add, [.register x, .byte nn]⟩
  | .combine op x y => ⟨op.keyword, [.register x, .register y]⟩
  | .loadIndex addr => ⟨.ld, [.index, .address addr]⟩
  | .jumpOffset addr => ⟨.jp, [.register (lowNibble 0), .address addr]⟩
  | .random x nn => ⟨.rnd, [.register x, .byte nn]⟩
  | .draw x y n => ⟨.drw, [.register x, .register y, .height n]⟩
  | .loadDelay x => ⟨.ld, [.register x, .delay]⟩
  | .awaitKey x => ⟨.ld, [.register x, .key]⟩
  | .setDelay x => ⟨.ld, [.delay, .register x]⟩
  | .setSound x => ⟨.ld, [.sound, .register x]⟩
  | .addIndex x => ⟨.add, [.index, .register x]⟩
  | .loadGlyph x => ⟨.ld, [.glyph, .register x]⟩
  | .storeDecimal x => ⟨.ld, [.decimal, .register x]⟩
  | .storeRegisters x => ⟨.ld, [.cells, .register x]⟩
  | .loadRegisters x => ⟨.ld, [.register x, .cells]⟩

/-- The assembly text of an instruction is that of its statement. -/
theorem mnemonic_eq_text (i : Instruction) : i.mnemonic = i.statement.text := by
  cases i with
  | skipIf condition =>
      cases condition with
      | _ => rfl
  | combine op x y =>
      rw [mnemonic, Operator.mnemonic_eq_keyword_text]
      rfl
  -- In these three the comma and the last operand are in one piece.
  | loadDelay x => exact (Statement.text_pair .ld (.register x) .delay).symm
  | awaitKey x => exact (Statement.text_pair .ld (.register x) .key).symm
  | loadRegisters x => exact (Statement.text_pair .ld (.register x) .cells).symm
  | _ => rfl

end Instruction

namespace Statement

/-- The instruction that a statement stands for. The operands tell the instructions of one keyword
    apart. -/
def instruction? : Statement → Option Instruction
  | ⟨.cls, []⟩ => some .clearScreen
  | ⟨.ret, []⟩ => some .ret
  | ⟨.jp, [.address addr]⟩ => some (.jump addr)
  | ⟨.jp, [.register x, .address addr]⟩ =>
    if x = lowNibble 0 then some (.jumpOffset addr) else none
  | ⟨.call, [.address addr]⟩ => some (.call addr)
  | ⟨.se, [.register x, .byte nn]⟩ => some (.skipIf (.equalsByte x nn))
  | ⟨.se, [.register x, .register y]⟩ => some (.skipIf (.equals x y))
  | ⟨.sne, [.register x, .byte nn]⟩ => some (.skipIf (.differsFromByte x nn))
  | ⟨.sne, [.register x, .register y]⟩ => some (.skipIf (.differs x y))
  | ⟨.skp, [.register x]⟩ => some (.skipIf (.keyDown x))
  | ⟨.sknp, [.register x]⟩ => some (.skipIf (.keyUp x))
  | ⟨.ld, [.register x, .byte nn]⟩ => some (.loadByte x nn)
  | ⟨.ld, [.register x, .delay]⟩ => some (.loadDelay x)
  | ⟨.ld, [.register x, .key]⟩ => some (.awaitKey x)
  | ⟨.ld, [.register x, .cells]⟩ => some (.loadRegisters x)
  | ⟨.ld, [.index, .address addr]⟩ => some (.loadIndex addr)
  | ⟨.ld, [.delay, .register x]⟩ => some (.setDelay x)
  | ⟨.ld, [.sound, .register x]⟩ => some (.setSound x)
  | ⟨.ld, [.glyph, .register x]⟩ => some (.loadGlyph x)
  | ⟨.ld, [.decimal, .register x]⟩ => some (.storeDecimal x)
  | ⟨.ld, [.cells, .register x]⟩ => some (.storeRegisters x)
  | ⟨.add, [.register x, .byte nn]⟩ => some (.addByte x nn)
  | ⟨.add, [.index, .register x]⟩ => some (.addIndex x)
  | ⟨.rnd, [.register x, .byte nn]⟩ => some (.random x nn)
  | ⟨.drw, [.register x, .register y, .height n]⟩ => some (.draw x y n)
  | ⟨k, [.register x, .register y]⟩ => (Operator.ofKeyword? k).map (.combine · x y)
  | _ => none

/-- Every instruction is read back from its statement. -/
theorem instruction?_statement (i : Instruction) : i.statement.instruction? = some i := by
  cases i with
  | skipIf condition =>
      cases condition with
      | _ => rfl
  | combine op x y =>
      cases op with
      | _ => rfl
  | _ => rfl

/-- The word that a statement stands for: that of its instruction, or the one that it gives. -/
def word? : Statement → Option UInt16
  | ⟨.dw, [.word w]⟩ => some w
  | s => s.instruction?.map Instruction.encode

theorem word?_of_instruction? {s : Statement} {i : Instruction} (read : s.instruction? = some i) :
    s.word? = some i.encode := by
  unfold word?
  split
  case h_1 => cases read
  case h_2 => rw [read, Option.map_some]

end Statement

/-! ### Assembling a column -/

namespace Listing

/-- What a row says of its word, as a statement. -/
def Row.statement (row : Row) : Statement :=
  match row.instruction? with
  | some i => i.statement
  | none => ⟨.dw, [.word row.word]⟩

theorem Row.text_eq_statement_text (row : Row) : row.text = row.statement.text := by
  unfold text statement
  cases row.instruction? with
  | some i => exact i.mnemonic_eq_text
  | none => exact @String.append_assoc ("DW" ++ " ") "0x" (Numeral.hex 4 row.word.toNat)

/-- The statement of a listed row stands for the word of the row. -/
theorem word?_statement_of_mem {image : List UInt8} {base : UInt16} {row : Row}
    (listed : row ∈ disassemble image base) : row.statement.word? = some row.word := by
  have shown := instruction?_of_mem listed
  unfold Row.statement
  split
  case h_1 i found =>
      rw [Statement.word?_of_instruction? (Statement.instruction?_statement i)]
      rw [found] at shown
      exact congrArg some (Instruction.encode_of_decode shown.symm)
  case h_2 => rfl

/-- The word that a line of assembly text stands for. -/
def wordOfText? (text : String) : Option UInt16 :=
  (Statement.ofText? text.toList).bind Statement.word?

theorem wordOfText?_of_mem {image : List UInt8} {base : UInt16} {row : Row}
    (listed : row ∈ disassemble image base) : wordOfText? row.text = some row.word := by
  rw [wordOfText?, row.text_eq_statement_text, Statement.ofText?_text, Option.bind_some,
    word?_statement_of_mem listed]

/-- The image that a column of assembly text stands for, the high byte of every word first. -/
def assembleText? (column : List String) : Option (List UInt8) :=
  (column.mapM wordOfText?).map fun ws => ws.flatMap wordBytes

/-- The words of a listing are read back from its texts. -/
theorem mapM_wordOfText? {listed : List Row}
    (read : ∀ row ∈ listed, wordOfText? row.text = some row.word) :
    (listed.map Row.text).mapM wordOfText? = some (listed.map Row.word) := by
  induction listed with
  | nil => rfl
  | cons row rest inductionHypothesis =>
      obtain ⟨first, others⟩ := List.forall_mem_cons.mp read
      rw [List.map_cons, List.mapM_cons, first, inductionHypothesis others]
      rfl

theorem assembleText?_disassemble (image : List UInt8) (base : UInt16) :
    assembleText? ((disassemble image base).map Row.text) =
      some (image.take (2 * (image.length / 2))) := by
  rw [assembleText?, mapM_wordOfText? fun row listed => wordOfText?_of_mem listed,
    map_word_disassemble, Option.map_some, flatMap_words]

/-- The last column of a printed line: what comes after the address with its colon and the word,
    each with its blanks. -/
def column (line : String) : String :=
  String.ofList ((line.toList.dropWhile (· ≠ ':')).drop 8)

/-- The last column of a row's line is what the row says of its word. -/
theorem column_line (row : Row) : column row.line = row.text := by
  let address := (Numeral.hex 3 row.address.toNat).toList
  let word := (Numeral.hex 4 row.word.toNat).toList
  have unmarked : ∀ c ∈ address, decide (c ≠ ':') = true := fun c member =>
    decide_eq_true (Numeral.ne_of_mem_hex rfl member)
  have width : (": ".toList ++ word ++ "  ".toList).length = 8 := by
    rw [List.length_append, List.length_append,
      Numeral.length_hex (by decide) row.word.toNat_lt]
    rfl
  have line : row.line.toList =
      address ++ (": ".toList ++ word ++ "  ".toList ++ row.text.toList) := by
    simp only [Row.line, String.toList_append, List.append_assoc, address, word]
  have fromColon : row.line.toList.dropWhile (· ≠ ':') =
      ": ".toList ++ word ++ "  ".toList ++ row.text.toList := by
    rw [line, List.dropWhile_append_of_pos unmarked]
    rfl
  rw [column, fromColon, List.drop_left' width, String.ofList_toList]

theorem map_column_listingLines (image : List UInt8) :
    (CommandLine.listingLines image).map column = (disassemble image 0x200).map Row.text := by
  rw [CommandLine.listingLines, List.map_map]
  exact List.map_congr_left fun row _ => column_line row

theorem assembleText?_listingLines (image : List UInt8) :
    assembleText? ((CommandLine.listingLines image).map column) =
      some (image.take (2 * (image.length / 2))) := by
  rw [map_column_listingLines, assembleText?_disassemble]

/-- The text of a listing is unambiguous. The last column of a printed listing has for every word the
    text of its instruction, or `DW` and the word. From this column alone the image is assembled
    again, without its last odd byte; so two images whose listings have the same last column, line
    by line, are the same up to an odd byte at the end. -/
theorem listing_text_determines_image :
    (∀ image : List UInt8,
      (CommandLine.listingLines image).map column = (disassemble image 0x200).map Row.text ∧
      assembleText? ((CommandLine.listingLines image).map column) =
        some (image.take (2 * (image.length / 2)))) ∧
    ∀ image image' : List UInt8,
      (CommandLine.listingLines image).map column = (CommandLine.listingLines image').map column →
        image.take (2 * (image.length / 2)) = image'.take (2 * (image'.length / 2)) := by
  constructor
  · intro image
    exact ⟨map_column_listingLines image, assembleText?_listingLines image⟩
  · intro image image' same
    apply Option.some.inj
    calc some (image.take (2 * (image.length / 2)))
        = assembleText? ((CommandLine.listingLines image).map column) :=
          (assembleText?_listingLines image).symm
      _ = assembleText? ((CommandLine.listingLines image').map column) := by rw [same]
      _ = some (image'.take (2 * (image'.length / 2))) := assembleText?_listingLines image'

/-- The odd byte of an image is not in its listing: without it the last column is the same. -/
theorem listing_text_determines_image_oddImage :
    (CommandLine.listingLines oddImage).map column = ["LD V0, 0x05", "DW 0x0123"] ∧
    (CommandLine.listingLines [0x60, 0x05, 0x01, 0x23]).map column =
      (CommandLine.listingLines oddImage).map column ∧
    [0x60, 0x05, 0x01, 0x23] = oddImage.take 4 := by
  have same : (CommandLine.listingLines [0x60, 0x05, 0x01, 0x23]).map column =
      (CommandLine.listingLines oddImage).map column := by decide
  exact ⟨by decide, same, listing_text_determines_image.2 _ _ same⟩

end Listing

end ChipEight
