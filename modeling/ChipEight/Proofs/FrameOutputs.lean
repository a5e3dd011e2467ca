/-
Module: ChipEight.Proofs.FrameOutputs
Purpose: What is shown of a frame can be read back. In lines of text the blanks at the end of a row
  are left out, and filling a line up with blanks gives the row again. In a picture every pixel has
  three bytes behind the header, row after row, and they tell lit from dark as long as the two
  colours differ. So both outputs carry the whole frame, and it is the same one.
Main exports: Screen.rightpad_trimBlanks, Screen.ShowsRow, Screen.showsRow_textLines,
  Screen.litInText, Rgb.take_drop_flatMap_bytes, Screen.litInPicture, Screen.outputs_carry_frame
-/
import ChipEight.Proofs.LitPixels
import Mathlib.Data.List.DropRight

namespace ChipEight

namespace Screen

variable {s : Screen} {palette : Palette}

/-! ### Lines of text -/

/-- What is left out at the end of a text are blanks. -/
theorem exists_eq_trimBlanks_append (text : List Char) :
    ∃ n, text = trimBlanks text ++ List.replicate n ' ' := by
  have split : trimBlanks text ++ text.rtakeWhile (· == ' ') = text :=
    List.rdropWhile_append_rtakeWhile
  have blank : ∀ c ∈ text.rtakeWhile (· == ' '), c = ' ' := by
    intro c member
    simpa using List.mem_rtakeWhile_imp member
  refine ⟨(text.rtakeWhile (· == ' ')).length, ?_⟩
  rw [← List.eq_replicate_of_mem blank, split]

/-- A text is filled up again with blanks. -/
theorem rightpad_trimBlanks (text : List Char) :
    (trimBlanks text).rightpad text.length ' ' = text := by
  obtain ⟨n, filled⟩ := exists_eq_trimBlanks_append text
  have size : text.length = (trimBlanks text).length + n := by
    simpa using congrArg List.length filled
  rw [List.rightpad, size, Nat.add_sub_cancel_left]
  exact filled.symm

theorem getLast?_trimBlanks (text : List Char) : (trimBlanks text).getLast? ≠ some ' ' := by
  intro blank
  have filled : trimBlanks text ≠ [] := by
    intro empty
    simp [empty] at blank
  rw [List.getLast?_eq_some_getLast filled, Option.some.injEq] at blank
  apply List.rdropWhile_last_not (· == ' ') text filled
  exact beq_iff_eq.mpr blank

/-- A line of text shows a row: it has at most a character for each of the 64 columns, all of them
    are lit or blank cells, no blank ends it, and filled up with blanks it has every pixel in its
    column. -/
structure ShowsRow (s : Screen) (y : Fin 32) (line : String) : Prop where
  short : line.length ≤ 64
  cells : ∀ c ∈ line.toList, c = '█' ∨ c = ' '
  trimmed : line.toList.getLast? ≠ some ' '
  padded : ∀ x : Fin 64,
    (line.toList.rightpad 64 ' ')[x.val]? = some (if s.isLit ⟨x, y⟩ then '█' else ' ')

theorem length_fullRow (s : Screen) (y : Fin 32) : (s.fullRow y).length = 64 := by
  simp [fullRow]

theorem showsRow_trimBlanks (s : Screen) (y : Fin 32) :
    s.ShowsRow y (String.ofList (trimBlanks (s.fullRow y))) := by
  have begins : trimBlanks (s.fullRow y) <+: s.fullRow y := List.rdropWhile_prefix _ _
  have whole := rightpad_trimBlanks (s.fullRow y)
  rw [length_fullRow] at whole
  constructor
  case short =>
    have le := begins.length_le
    rw [length_fullRow] at le
    simpa using le
  case cells =>
    intro c member
    rw [String.toList_ofList] at member
    obtain ⟨x, -, rfl⟩ := List.mem_map.mp (begins.subset member)
    cases s.isLit ⟨x, y⟩ <;> simp [cellChar]
  case trimmed =>
    rw [String.toList_ofList]
    exact getLast?_trimBlanks _
  case padded =>
    intro x
    rw [String.toList_ofList, whole]
    simp [fullRow, cellChar]

/-- The lines show the rows, one after the other. -/
theorem showsRow_textLines (s : Screen) (y : Fin 32) :
    ∃ line, s.textLines[y.val]? = some line ∧ s.ShowsRow y line := by
  refine ⟨_, ?_, s.showsRow_trimBlanks y⟩
  simp [textLines]

/-- Lines of text have a lit cell at the place of a pixel. -/
def litInText (lines : List String) (p : Pixel) : Bool :=
  (lines[p.y.val]?.bind fun line => line.toList[p.x.val]?) == some '█'

/-- Where a line ends before a column, the pixel there is dark. -/
theorem ShowsRow.getElem?_eq_lit_iff {y : Fin 32} {line : String} (shows : s.ShowsRow y line)
    (x : Fin 64) : line.toList[x.val]? = some '█' ↔ s.isLit ⟨x, y⟩ = true := by
  have padded := shows.padded x
  rw [List.rightpad] at padded
  by_cases inside : x.val < line.toList.length
  · rw [List.getElem?_append_left inside] at padded
    rw [padded]
    cases s.isLit ⟨x, y⟩ <;> simp
  · have behind := Nat.le_of_not_lt inside
    rw [List.getElem?_append_right behind] at padded
    have blank : (if s.isLit ⟨x, y⟩ then '█' else ' ') = ' ' :=
      List.eq_of_mem_replicate (List.mem_of_getElem? padded)
    rw [List.getElem?_eq_none behind]
    cases lit : s.isLit ⟨x, y⟩ with
    | false => simp
    | true => simp [lit] at blank

theorem litInText_textLines (s : Screen) (p : Pixel) : litInText s.textLines p = s.isLit p := by
  obtain ⟨line, listed, shows⟩ := s.showsRow_textLines p.y
  rw [litInText, listed, Option.bind_some, Bool.eq_iff_iff, beq_iff_eq]
  exact shows.getElem?_eq_lit_iff p.x

end Screen

/-! ### Pictures -/

namespace Rgb

theorem length_flatMap_bytes (colors : List Rgb) :
    (colors.flatMap bytes).length = 3 * colors.length := by
  induction colors with
  | nil => rfl
  | cons c rest inductionHypothesis =>
      simp [bytes, inductionHypothesis]
      omega

/-- Among the bytes of some colours, those of each stand together, in their order. -/
theorem take_drop_flatMap_bytes {colors : List Rgb} {i : Nat} {c : Rgb}
    (listed : colors[i]? = some c) : ((colors.flatMap bytes).drop (3 * i)).take 3 = c.bytes := by
  induction colors generalizing i with
  | nil => simp at listed
  | cons first rest inductionHypothesis =>
      cases i with
      | zero =>
          simp only [List.getElem?_cons_zero, Option.some.injEq] at listed
          simp [listed, bytes]
      | succ i =>
          rw [List.getElem?_cons_succ] at listed
          have skipped : ((first :: rest).flatMap bytes).drop (3 * (i + 1)) =
              (rest.flatMap bytes).drop (3 * i) := by
            simp [bytes, Nat.mul_add]
          rw [skipped]
          exact inductionHypothesis listed

theorem bytes_inj {c d : Rgb} : c.bytes = d.bytes ↔ c = d := by
  cases c
  cases d
  simp [bytes]

end Rgb

namespace Screen

variable {s : Screen} {palette : Palette}

/-- What stands behind the header of a picture. -/
theorem take_drop_colors (s : Screen) (palette : Palette) (p : Pixel) :
    (((s.colors palette).flatMap Rgb.bytes).drop (3 * (p.x.val + 64 * p.y.val))).take 3 =
      (if s.isLit p then palette.foreground else palette.background).bytes :=
  Rgb.take_drop_flatMap_bytes (s.getElem?_colors palette p)

/-- A picture file has the colour of a lit pixel at the place of a pixel. -/
def litInPicture (file : List UInt8) (foreground : Rgb) (p : Pixel) : Bool :=
  ((file.drop pictureHeader.toUTF8.toList.length).drop (3 * (p.x.val + 64 * p.y.val))).take 3 ==
    foreground.bytes

theorem litInPicture_picture (distinct : palette.foreground ≠ palette.background) (s : Screen)
    (p : Pixel) : litInPicture (s.picture palette) palette.foreground p = s.isLit p := by
  rw [litInPicture, picture, List.drop_left, take_drop_colors, Bool.eq_iff_iff, beq_iff_eq,
    Rgb.bytes_inj]
  cases s.isLit p with
  | true => simp
  | false => simpa using distinct.symm

/-- Both outputs carry the frame. Whatever its cells are, a screen is printed in 32 lines that show
    its rows; and its picture, under every palette, is the header for 64 by 32 and a greatest value
    of 255, and then 6144 bytes, of which those from `3 * (x + 64 * y)` on are the channels of the
    foreground if the pixel is lit, and of the background if it is not. So the frame is read back
    from the lines, and from the picture if the two colours differ, and it is the same frame. -/
theorem outputs_carry_frame (s : Screen) :
    s.textLines.length = 32 ∧
    (∀ y : Fin 32, ∃ line, s.textLines[y.val]? = some line ∧ s.ShowsRow y line) ∧
    (∀ p, litInText s.textLines p = s.isLit p) ∧
    ∀ palette, ∃ channels,
      s.picture palette = "P6\n64 32\n255\n".toUTF8.toList ++ channels ∧
      channels.length = 6144 ∧
      (∀ p : Pixel, (channels.drop (3 * (p.x.val + 64 * p.y.val))).take 3 =
        if s.isLit p then [palette.foreground.r, palette.foreground.g, palette.foreground.b]
        else [palette.background.r, palette.background.g, palette.background.b]) ∧
      (palette.foreground ≠ palette.background → ∀ p,
        litInPicture (s.picture palette) palette.foreground p = s.isLit p ∧
        litInPicture (s.picture palette) palette.foreground p = litInText s.textLines p) := by
  refine ⟨?_, s.showsRow_textLines, s.litInText_textLines, fun palette => ?_⟩
  · simp [textLines]
  refine ⟨(s.colors palette).flatMap Rgb.bytes, rfl, ?_, ?_, ?_⟩
  · rw [Rgb.length_flatMap_bytes, length_colors]
  · intro p
    rw [take_drop_colors]
    cases s.isLit p with
    | true => rfl
    | false => rfl
  · intro distinct p
    have lit := litInPicture_picture distinct s p
    exact ⟨lit, lit.trans (s.litInText_textLines p).symm⟩

/-- A screen with three lit pixels: two in the first row, with a dark one between them, and the last
    one of the last row. -/
def fewLit : Screen := dark.after [.toggle 0 0, .toggle 2 0, .toggle 63 31]

/-- The lines have the last pixel lit, and the one between the first two dark, and so has the
    picture, white on black. -/
theorem outputs_carry_frame_fewLit :
    (∃ line, fewLit.textLines[0]? = some line ∧ fewLit.ShowsRow 0 line) ∧
    litInText fewLit.textLines ⟨63, 31⟩ = true ∧ litInText fewLit.textLines ⟨1, 0⟩ = false ∧
    Palette.standard.foreground ≠ Palette.standard.background ∧
    litInPicture (fewLit.picture Palette.standard) Palette.standard.foreground ⟨63, 31⟩ = true ∧
    litInPicture (fewLit.picture Palette.standard) Palette.standard.foreground ⟨1, 0⟩ = false := by
  obtain ⟨-, shows, fromText, painted⟩ := outputs_carry_frame fewLit
  have last : fewLit.isLit ⟨63, 31⟩ = true := by
    rw [fewLit, isLit_after]
    decide
  have between : fewLit.isLit ⟨1, 0⟩ = false := by
    rw [fewLit, isLit_after]
    decide
  have distinct : Palette.standard.foreground ≠ Palette.standard.background := by decide
  obtain ⟨_, _, _, _, fromPicture⟩ := painted Palette.standard
  refine ⟨shows 0, (fromText _).trans last, (fromText _).trans between, distinct, ?_, ?_⟩
  · exact (fromPicture distinct _).1.trans last
  · exact (fromPicture distinct _).1.trans between

end Screen

end ChipEight
