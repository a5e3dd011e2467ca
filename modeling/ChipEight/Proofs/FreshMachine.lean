/-
Module: ChipEight.Proofs.FreshMachine
Purpose: The machine that a build makes, cell by cell. Memory holds the font at its start, the program
  from 0x200 on and zeros everywhere else, and all other parts have their initial values; so the
  machine is a function of its font and its program, whatever was chosen before them. Taking another
  font changes the font cells and nothing else.
Main exports: Machine.fresh, Machine.getElem_fresh, Machine.refont, Machine.refont_fresh,
  Setup.machine_eq_fresh, Interpreter.Built.machine_eq_fresh, Setup.build_of_wrongFont,
  Setup.build_of_large, Setup.exists_build
-/
import ChipEight.Proofs.Invariant

namespace ChipEight

/-- Memories with the same cells are the same. -/
theorem Memory.ext_cells {m m' : Memory}
    (same : ∀ (i : Nat) (inside : i < 4096), m.cells[i] = m'.cells[i]) : m = m' := by
  cases m
  cases m'
  exact congrArg Memory.mk (Vector.ext same)

/-- A font is made of the bytes it was read from. -/
theorem Font.toList_of_ofBytes? {bytes : List UInt8} {font : Font}
    (accepted : ofBytes? bytes = some font) : font.toList = bytes := by
  rw [ofBytes?] at accepted
  split at accepted
  case isTrue sized =>
    cases accepted
    rfl
  case isFalse => cases accepted

namespace Machine

variable {m m' : Machine}

/-- The machine with a font and a program, before it has run. -/
def fresh (font : Font) (program : List UInt8) : Machine :=
  { withFont font with memory := (withFont font).memory.store programStart program }

/-- The machine with another font, which stands in memory as well. -/
def refont (m : Machine) (font : Font) : Machine :=
  { m with memory := m.memory.store 0 font.toList, font }

/-- A machine without a program has only its font. -/
theorem fresh_nil (font : Font) : fresh font [] = withFont font := rfl

/-! ### Cells -/

/-- Another font covers the first eighty cells. -/
theorem getElem_refont (m : Machine) (font : Font) {i : Nat} (inside : i < 4096) :
    (m.refont font).memory.cells[i] =
      if covered : i < 80 then font[i] else m.memory.cells[i] := by
  rw [refont, Memory.getElem_store]
  by_cases covered : i < 80
  · simp [covered]
  · simp [covered]

/-- The cells of a fresh machine: the font, zeros up to 0x200, the program, and zeros to the end. -/
theorem getElem_fresh (font : Font) (program : List UInt8) {i : Nat} (inside : i < 4096) :
    (fresh font program).memory.cells[i] =
      if programStart ≤ i then program[i - programStart]?.getD 0
      else if covered : i < 80 then font[i] else 0 := by
  have fonted : (withFont font).memory.cells[i] =
      if covered : i < 80 then font[i] else 0 := by
    have blank : Memory.zero.cells[i] = 0 := Vector.getElem_replicate inside
    have covers := getElem_refont { withFont font with memory := Memory.zero } font inside
    rw [blank] at covers
    exact covers
  rw [fresh, Memory.getElem_store, fonted]
  by_cases behind : programStart ≤ i
  · have uncovered : ¬ i < 80 := Nat.not_lt.mpr (Nat.le_trans (by decide) behind)
    simp only [behind, uncovered, if_true, dite_false]
  · simp only [behind, if_false]

/-- Taking another font before the machine has run is as good as having had it from the start. -/
theorem refont_fresh (font other : Font) (program : List UInt8) :
    (fresh font program).refont other = fresh other program := by
  have cells : ((fresh font program).refont other).memory = (fresh other program).memory := by
    apply Memory.ext_cells
    intro i inside
    rw [getElem_refont _ _ inside, getElem_fresh _ _ inside, getElem_fresh _ _ inside]
    -- The font ends before the program begins.
    by_cases covered : i < 80
    · have before : ¬ programStart ≤ i := Nat.not_le.mpr (Nat.lt_of_lt_of_le covered (by decide))
      simp [covered, before]
    · simp [covered]
  calc (fresh font program).refont other
    _ = { fresh other program with memory := ((fresh font program).refont other).memory } := rfl
    _ = fresh other program := by rw [cells]

/-! ### Loading -/

/-- A font that is loaded replaces the font. -/
theorem refont_of_loadFont {bytes : List UInt8} (loaded : m.loadFont bytes = .ok m') :
    ∃ font, Font.ofBytes? bytes = some font ∧ m' = m.refont font := by
  obtain ⟨font, accepted, rfl⟩ := loadFont_eq_ok loaded
  refine ⟨font, accepted, ?_⟩
  rw [refont, Font.toList_of_ofBytes? accepted]

theorem loadProgram_of_fits (m : Machine) {image : List UInt8} (fits : image.length ≤ 3584) :
    m.loadProgram image = .ok { m with memory := m.memory.store programStart image } :=
  if_pos fits

theorem loadProgram_of_large (m : Machine) {image : List UInt8} (large : 3584 < image.length) :
    m.loadProgram image = .error (.programTooLarge image.length) :=
  if_neg (Nat.not_le.mpr large)

theorem loadFont_of_sized (m : Machine) {bytes : List UInt8} (sized : bytes.length = 80) :
    ∃ font : Font, font.toList = bytes ∧ m.loadFont bytes = .ok (m.refont font) := by
  have accepted : Font.ofBytes? bytes = some ⟨bytes.toArray, sized⟩ := dif_pos sized
  refine ⟨_, Font.toList_of_ofBytes? accepted, ?_⟩
  rw [loadFont, accepted]
  rfl

theorem loadFont_of_wrongSize (m : Machine) {bytes : List UInt8} (wrong : bytes.length ≠ 80) :
    m.loadFont bytes = .error (.wrongFontSize bytes.length) := by
  have refused : Font.ofBytes? bytes = none := dif_neg wrong
  rw [loadFont, refused]

end Machine

/-- A machine that was set up is fresh. -/
theorem Setup.machine_eq_fresh {setup : Setup} {m : Machine} (made : setup.machine = .ok m) :
    m = Machine.fresh m.font setup.program := by
  unfold Setup.machine at made
  cases chosen : setup.font? with
  | none =>
      rw [chosen] at made
      obtain ⟨-, rfl⟩ := Machine.loadProgram_eq_ok made
      rfl
  | some bytes =>
      rw [chosen] at made
      obtain ⟨fonted, loaded, made⟩ := Except.bind_eq_ok.mp made
      obtain ⟨font, -, rfl⟩ := Machine.refont_of_loadFont loaded
      rw [Machine.initial, ← Machine.fresh_nil, Machine.refont_fresh, Machine.fresh_nil] at made
      obtain ⟨-, rfl⟩ := Machine.loadProgram_eq_ok made
      rfl

namespace Setup

variable {setup : Setup} {bytes : List UInt8}

/-! ### When a build succeeds -/

/-- A font of a wrong size is the first thing that a build fails for. -/
theorem build_of_wrongFont (chosen : setup.font? = some bytes) (wrong : bytes.length ≠ 80)
    (entropy : Cipher.Key) : setup.build entropy = .error (.wrongFontSize bytes.length) := by
  have failed : setup.machine = .error (.wrongFontSize bytes.length) := by
    unfold Setup.machine
    simp only [chosen, Machine.loadFont_of_wrongSize _ wrong]
    rfl
  rw [build, failed]
  rfl

/-- If nothing is wrong with the font, the program is what decides. -/
theorem machine_of_sized (sized : ∀ bytes, setup.font? = some bytes → bytes.length = 80) :
    ∃ m : Machine, setup.machine = m.loadProgram setup.program := by
  unfold Setup.machine
  cases chosen : setup.font? with
  | none => exact ⟨Machine.initial, rfl⟩
  | some bytes =>
      obtain ⟨font, -, loaded⟩ := Machine.initial.loadFont_of_sized (sized bytes chosen)
      simp only [loaded]
      exact ⟨_, rfl⟩

theorem build_of_large (sized : ∀ bytes, setup.font? = some bytes → bytes.length = 80)
    (large : 3584 < setup.program.length) (entropy : Cipher.Key) :
    setup.build entropy = .error (.programTooLarge setup.program.length) := by
  obtain ⟨m, made⟩ := machine_of_sized sized
  rw [build, made, m.loadProgram_of_large large]
  rfl

theorem exists_build (sized : ∀ bytes, setup.font? = some bytes → bytes.length = 80)
    (fits : setup.program.length ≤ 3584) (entropy : Cipher.Key) :
    ∃ c, setup.build entropy = .ok c := by
  obtain ⟨m, made⟩ := machine_of_sized sized
  rw [build, made, m.loadProgram_of_fits fits]
  exact ⟨_, rfl⟩

end Setup

/-- A fresh interpreter has a fresh machine. -/
theorem Interpreter.Built.machine_eq_fresh {c : Interpreter} (built : c.Built) :
    c.machine = Machine.fresh c.machine.font c.program := by
  obtain ⟨setup, entropy, built⟩ := built
  obtain ⟨made, -, program, -⟩ := Setup.build_eq_ok built
  rw [program]
  exact Setup.machine_eq_fresh made

end ChipEight
