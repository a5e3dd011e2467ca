/-
Module: ChipEight.Proofs.Assembly
Purpose: Assembling and listing are inverse. A program is assembled by writing the words of its
  instructions one after the other, the high byte first, and its listing shows the same instructions
  in their places. The other way round a listing loses a last odd byte and nothing else: its words
  are the image again, and it shows an instruction wherever a word is that of an instruction.
Main exports: wordBytes, Listing.words_flatMap, Listing.flatMap_words, Listing.rows_eq_mapIdx,
  Listing.assemble, Listing.listing_inverts_assembly
-/
import ChipEight.Proofs.ListedProgram

namespace ChipEight

/-! ### Words and their bytes -/

/-- The two bytes of a word, the high byte first. -/
def wordBytes (w : UInt16) : List UInt8 := [UInt8.ofNat (w.toNat / 0x100), UInt8.ofNat w.toNat]

theorem toNat_bigEndian (high low : UInt8) :
    (bigEndian high low).toNat = high.toNat * 0x100 + low.toNat := by
  have boundHigh := high.toNat_lt
  have boundLow := low.toNat_lt
  rw [bigEndian, UInt16.toNat_ofNat']
  omega

theorem wordBytes_bigEndian (high low : UInt8) : wordBytes (bigEndian high low) = [high, low] := by
  have bound := low.toNat_lt
  have first : (high.toNat * 0x100 + low.toNat) / 0x100 = high.toNat := by omega
  have second : UInt8.ofNat (high.toNat * 0x100 + low.toNat) = low := by
    apply UInt8.toNat_inj.mp
    rw [UInt8.toNat_ofNat']
    omega
  rw [wordBytes, toNat_bigEndian, first, second, UInt8.ofNat_toNat]

/-- Every word is the word of its bytes. -/
theorem bigEndian_wordBytes (w : UInt16) :
    bigEndian (UInt8.ofNat (w.toNat / 0x100)) (UInt8.ofNat w.toNat) = w := by
  have bound := w.toNat_lt
  apply UInt16.toNat_inj.mp
  rw [toNat_bigEndian, UInt8.toNat_ofNat', UInt8.toNat_ofNat']
  omega

namespace Listing

/-- The words of an image that was written word by word. -/
theorem words_flatMap (ws : List UInt16) : words (ws.flatMap wordBytes) = ws := by
  induction ws with
  | nil => rfl
  | cons w rest inductionHypothesis =>
      rw [List.flatMap_cons, wordBytes, List.cons_append, List.cons_append, List.nil_append, words,
        bigEndian_wordBytes, inductionHypothesis]

/-- Without two bytes at its head an image is empty or has one byte. -/
theorem eq_nil_or_singleton {image : List UInt8}
    (short : ∀ high low rest, image = high :: low :: rest → False) :
    image = [] ∨ ∃ last, image = [last] := by
  match image, short with
  | [], _ => exact .inl rfl
  | [last], _ => exact .inr ⟨last, rfl⟩
  | high :: low :: rest, short => exact absurd rfl (short high low rest)

theorem length_words (image : List UInt8) : (words image).length = image.length / 2 := by
  induction image using words.induct with
  | case1 high low rest inductionHypothesis =>
      simp only [words, List.length_cons, inductionHypothesis]
      omega
  | case2 image short =>
      rcases eq_nil_or_singleton short with rfl | ⟨last, rfl⟩
      · rfl
      · simp [words]

/-- The words of an image are the image again, up to a last odd byte. -/
theorem flatMap_words (image : List UInt8) :
    (words image).flatMap wordBytes = image.take (2 * (image.length / 2)) := by
  induction image using words.induct with
  | case1 high low rest inductionHypothesis =>
      have pairs : 2 * ((high :: low :: rest).length / 2) = 2 * (rest.length / 2) + 1 + 1 := by
        simp only [List.length_cons]
        omega
      rw [words, List.flatMap_cons, wordBytes_bigEndian, inductionHypothesis, pairs,
        List.take_succ_cons, List.take_succ_cons]
      rfl
  | case2 image short =>
      rcases eq_nil_or_singleton short with rfl | ⟨last, rfl⟩
      · rfl
      · simp [words]

/-- The rows of words, each with its place and with what it decodes to. -/
theorem rows_eq_mapIdx (base : UInt16) (ws : List UInt16) :
    rows base ws =
      ws.mapIdx fun i w => ⟨base + UInt16.ofNat (2 * i), w, Instruction.decode w⟩ := by
  apply List.ext_getElem?
  intro i
  rw [getElem?_rows, List.getElem?_mapIdx, UInt16.ofNat_mul]
  rfl

theorem map_word_disassemble (image : List UInt8) (base : UInt16) :
    (disassemble image base).map Row.word = words image := by
  apply List.ext_getElem?
  intro i
  rw [disassemble, List.getElem?_map, getElem?_rows, Option.map_map]
  exact Option.map_id'

/-- A row shows what its word decodes to. -/
theorem instruction?_of_mem {image : List UInt8} {base : UInt16} {row : Row}
    (listed : row ∈ disassemble image base) : row.instruction? = Instruction.decode row.word := by
  obtain ⟨i, found⟩ := List.mem_iff_getElem?.mp listed
  obtain ⟨high, low, -, -, rfl⟩ := getElem?_disassemble.mp found
  rfl

/-! ### Assembling -/

/-- The image of a program: the words of its instructions, the high byte first. -/
def assemble (program : List Instruction) : List UInt8 :=
  program.flatMap fun i => wordBytes i.encode

theorem words_assemble (program : List Instruction) :
    words (assemble program) = program.map Instruction.encode := by
  rw [assemble, ← List.flatMap_map, words_flatMap]

/-- Assembling and listing are inverse. The listing of an assembled program shows the program: every
    instruction with its word, at an address two further on than the one before it, modulo 2^16. And
    whatever the image, its listing has one row for every two bytes; the words of the rows, the high
    byte first, are the image without its last odd byte; a row that shows an instruction has the
    word of that instruction, and a row shows none exactly if its word is that of no instruction. -/
theorem listing_inverts_assembly :
    (∀ (program : List Instruction) (base : UInt16),
      disassemble (assemble program) base =
        program.mapIdx fun k i => ⟨base + UInt16.ofNat (2 * k), i.encode, some i⟩) ∧
    ∀ (image : List UInt8) (base : UInt16),
      (disassemble image base).length = image.length / 2 ∧
      ((disassemble image base).flatMap fun row => wordBytes row.word) =
        image.take (2 * (image.length / 2)) ∧
      ∀ row ∈ disassemble image base,
        (∀ i, row.instruction? = some i → i.encode = row.word) ∧
        (row.instruction? = none ↔ ∀ i : Instruction, i.encode ≠ row.word) := by
  constructor
  · intro program base
    rw [disassemble, words_assemble, rows_eq_mapIdx]
    apply List.ext_getElem?
    intro k
    simp only [List.getElem?_mapIdx, List.getElem?_map, Option.map_map, Function.comp_def,
      Instruction.decode_encode]
  · intro image base
    have shown := map_word_disassemble image base
    refine ⟨?_, ?_, ?_⟩
    · rw [← List.length_map (f := Row.word), shown, length_words]
    · rw [← List.flatMap_map, shown, flatMap_words]
    · intro row listed
      rw [instruction?_of_mem listed]
      refine ⟨fun i decoded => Instruction.encode_of_decode decoded, ?_⟩
      rw [Option.eq_none_iff_forall_ne_some]
      refine forall_congr' fun i => not_congr ?_
      rw [Instruction.decode_eq_some_iff, eq_comm]

/-- An image with a word that is no instruction, and with a byte to spare. -/
def oddImage : List UInt8 := [0x60, 0x05, 0x01, 0x23, 0x10]

/-- At the end of the address space the rows of the image go on with address zero; the first one
    shows an instruction, and the word of the other one is that of no instruction. -/
theorem listing_inverts_assembly_oddImage :
    Row.mk 0xFFFE 0x6005 (some (.loadByte 0 0x05)) ∈ disassemble oddImage 0xFFFE ∧
    Instruction.encode (.loadByte 0 0x05) = 0x6005 ∧
    Row.mk 0x0000 0x0123 none ∈ disassemble oddImage 0xFFFE ∧
    ∀ i : Instruction, i.encode ≠ 0x0123 := by
  obtain ⟨-, -, rows⟩ := listing_inverts_assembly.2 oddImage 0xFFFE
  have first : Row.mk 0xFFFE 0x6005 (some (.loadByte 0 0x05)) ∈ disassemble oddImage 0xFFFE := by
    decide
  have second : Row.mk 0x0000 0x0123 none ∈ disassemble oddImage 0xFFFE := by decide
  exact ⟨first, (rows _ first).1 _ rfl, second, (rows _ second).2.mp rfl⟩

end Listing

end ChipEight
