/-
Module: ChipEight.Proofs.Loading
Purpose: What a history of loads and restarts leaves in a machine. The font is the one that was taken
  last, before or after any restart; the programs since the last restart lie one over the other, and
  of each cell only the latest program that reaches it counts. Everything else is as it was at first.
  A load of a wrong size is refused and changes nothing.
Main exports: Machine.after, Machine.Operation.isLoading, Machine.lastFont, Machine.recentPrograms,
  Machine.layout, Machine.LaidOut, Machine.laidOut_after
-/
import ChipEight.Proofs.FreshMachine

namespace ChipEight.Machine

variable {m : Machine} {font : List UInt8} {programs : List (List UInt8)}

/-- The machine after some operations. -/
def after (m : Machine) (operations : List Operation) : Machine :=
  operations.foldl (fun m operation => (m.perform operation).2) m

theorem after_concat (m : Machine) (operations : List Operation) (operation : Operation) :
    m.after (operations ++ [operation]) = ((m.after operations).perform operation).2 := by
  simp [after]

/-! ### Histories of loads -/

namespace Operation

/-- The operation restarts the machine, or copies a program or a font into it. -/
def isLoading : Operation → Bool
  | .restart | .loadProgram _ | .loadFont _ => true
  | _ => false

/-- The bytes of a font that the operation brings, if they are as many as a font has. -/
def fontBytes? : Operation → Option (List UInt8)
  | .loadFont bytes => if bytes.length = 80 then some bytes else none
  | _ => none

/-- The program that the operation brings, if there is room for it. -/
def program? : Operation → Option (List UInt8)
  | .loadProgram image => if image.length ≤ 3584 then some image else none
  | _ => none

end Operation

/-- The bytes of the font that was taken last, or of the standard font if none was. -/
def lastFont (history : List Operation) : List UInt8 :=
  (history.filterMap Operation.fontBytes?).getLast?.getD Font.standard.toList

/-- The programs that were taken since the last restart, the latest first. -/
def recentPrograms (history : List Operation) : List (List UInt8) :=
  ((history.rtakeWhile (· ≠ .restart)).filterMap Operation.program?).reverse

theorem lastFont_concat (history : List Operation) (operation : Operation) :
    lastFont (history ++ [operation]) = operation.fontBytes?.getD (lastFont history) := by
  rw [lastFont, List.filterMap_append]
  cases taken : operation.fontBytes? <;> simp [lastFont, taken]

theorem recentPrograms_concat (history : List Operation) (operation : Operation) :
    recentPrograms (history ++ [operation]) =
      if operation = .restart then [] else operation.program?.toList ++ recentPrograms history := by
  rw [recentPrograms, List.rtakeWhile_concat]
  by_cases restarts : operation = .restart
  · simp [restarts]
  · cases taken : operation.program? <;> simp [recentPrograms, restarts, taken]

/-! ### Memory -/

/-- The byte of a cell when a font and some programs, the latest first, have been put into an empty
    memory: a byte of the font, a zero between the font and the programs, and behind that a byte of
    the first program in the list that is long enough, or a zero if none is. -/
def layout (font : List UInt8) (programs : List (List UInt8)) (i : Nat) : UInt8 :=
  if i < 80 then font.getD i 0
  else if i < 0x200 then 0
  else (programs.findSome? fun image => image[i - 0x200]?).getD 0

/-- A machine into which nothing has been put but a font and some programs, the latest first. -/
structure LaidOut (m : Machine) (font : List UInt8) (programs : List (List UInt8)) : Prop where
  initial : m = { Machine.initial with memory := m.memory, font := m.font }
  fontBytes : m.font.toList = font
  cells : ∀ (i : Nat) (inside : i < 4096), m.memory.cells[i] = layout font programs i

/-- A program that is put into memory covers the cells that it reaches. -/
theorem layout_cons (font image : List UInt8) (programs : List (List UInt8)) (i : Nat) :
    layout font (image :: programs) i =
      if 0x200 ≤ i then image[i - 0x200]?.getD (layout font programs i)
      else layout font programs i := by
  by_cases behind : 0x200 ≤ i
  · have uncovered : ¬ i < 80 := by omega
    have unreserved : ¬ i < 0x200 := by omega
    cases reached : image[i - 0x200]? <;> simp [layout, behind, uncovered, unreserved, reached]
  · have reserved : i < 0x200 := by omega
    simp [layout, behind, reserved]

/-- A machine that has just been restarted holds its font and no program. -/
theorem laidOut_withFont (font : Font) : (withFont font).LaidOut font.toList [] where
  initial := rfl
  fontBytes := rfl
  cells := by
    intro i inside
    have cell := getElem_fresh font [] inside
    rw [fresh_nil] at cell
    rw [cell]
    by_cases covered : i < 80
    · have before : ¬ programStart ≤ i := by
        rw [programStart]
        omega
      simp [layout, covered, before]
    · simp [layout, covered]

/-- A restart keeps the font and nothing else. -/
theorem LaidOut.restart (laidOut : m.LaidOut font programs) : m.restart.LaidOut font [] := by
  rw [← laidOut.fontBytes]
  exact laidOut_withFont m.font

/-- Another font takes the place of the one before, in memory as well. -/
theorem LaidOut.refont (laidOut : m.LaidOut font programs) (other : Font) :
    (m.refont other).LaidOut other.toList programs where
  initial := by
    rw [Machine.refont, laidOut.initial]
  fontBytes := rfl
  cells := by
    intro i inside
    rw [getElem_refont m other inside, laidOut.cells i inside]
    by_cases covered : i < 80 <;> simp [layout, covered]

/-- Another program lies over those before it. -/
theorem LaidOut.store (laidOut : m.LaidOut font programs) (image : List UInt8) :
    { m with memory := m.memory.store programStart image }.LaidOut font (image :: programs) where
  initial := by
    rw [laidOut.initial]
  fontBytes := laidOut.fontBytes
  cells := by
    intro i inside
    rw [Memory.getElem_store, laidOut.cells i inside, layout_cons]
    rfl

/-! ### Loads that succeed and loads that fail -/

theorem perform_loadProgram (m : Machine) (image : List UInt8) :
    m.perform (.loadProgram image) =
      if image.length ≤ 3584 then
        (.loaded, { m with memory := m.memory.store programStart image })
      else (.rejected (.programTooLarge image.length), m) := by
  split
  case isTrue fits => rw [perform, m.loadProgram_of_fits fits, settle]
  case isFalse large => rw [perform, m.loadProgram_of_large (Nat.lt_of_not_le large), settle]

theorem perform_loadFont (m : Machine) (bytes : List UInt8) :
    (bytes.length = 80 ∧ ∃ font : Font, font.toList = bytes ∧
        m.perform (.loadFont bytes) = (.loaded, m.refont font)) ∨
      bytes.length ≠ 80 ∧
        m.perform (.loadFont bytes) = (.rejected (.wrongFontSize bytes.length), m) := by
  by_cases sized : bytes.length = 80
  · obtain ⟨font, read, loaded⟩ := m.loadFont_of_sized sized
    refine .inl ⟨sized, font, read, ?_⟩
    rw [perform, loaded, settle]
  · refine .inr ⟨sized, ?_⟩
    rw [perform, m.loadFont_of_wrongSize sized, settle]

/-- A load that fails changes nothing. -/
theorem perform_of_rejected {operation : Operation} {error : LoadError}
    (rejected : (m.perform operation).1 = .rejected error) : (m.perform operation).2 = m := by
  cases operation with
  | loadProgram image =>
      rw [perform_loadProgram] at rejected ⊢
      split at rejected
      case isTrue => cases rejected
      case isFalse large => rw [if_neg large]
  | loadFont bytes =>
      rcases m.perform_loadFont bytes with ⟨-, font, -, taken⟩ | ⟨-, refused⟩
      · rw [taken] at rejected
        cases rejected
      · rw [refused]
  | _ => cases rejected

/-! ### Whole histories -/

/-- One further operation of a loader. -/
theorem LaidOut.perform {history : List Operation} {operation : Operation}
    (laidOut : m.LaidOut (lastFont history) (recentPrograms history))
    (loading : operation.isLoading = true) :
    (m.perform operation).2.LaidOut (lastFont (history ++ [operation]))
      (recentPrograms (history ++ [operation])) := by
  rw [lastFont_concat, recentPrograms_concat]
  cases operation with
  | restart => exact laidOut.restart
  | loadProgram image =>
      rw [perform_loadProgram]
      by_cases fits : image.length ≤ 3584
      · simpa [Operation.program?, Operation.fontBytes?, fits] using laidOut.store image
      · simpa [Operation.program?, Operation.fontBytes?, fits] using laidOut
  | loadFont bytes =>
      rcases m.perform_loadFont bytes with ⟨sized, font, read, taken⟩ | ⟨sized, refused⟩
      · rw [taken]
        simpa [Operation.program?, Operation.fontBytes?, sized, read] using laidOut.refont font
      · rw [refused]
        simpa [Operation.program?, Operation.fontBytes?, sized] using laidOut
  | _ => cases loading

/-- After any history of loads and restarts a machine holds the font that was taken last and the
    programs since the last restart. -/
theorem laidOut_after {history : List Operation}
    (loading : ∀ operation ∈ history, operation.isLoading = true) :
    (Machine.initial.after history).LaidOut (lastFont history) (recentPrograms history) := by
  induction history using List.reverseRecOn with
  | nil => exact laidOut_withFont Font.standard
  | append_singleton history operation inductionHypothesis =>
      obtain ⟨earlier, last⟩ := List.forall_mem_append.mp loading
      rw [after_concat]
      exact (inductionHypothesis earlier).perform (last operation List.mem_cons_self)

end ChipEight.Machine
