/-
Module: ChipEight.Proofs.Checked.Loops
Purpose: The loops of the array machine, each against what the interpreter does in one piece. A
  sprite that is drawn column by column, and row by row, inverts the pixels of the sprite in their
  order, and where a loop stops at an edge nothing is left to be inverted. A search of the keypad
  finds the first fresh key, and a transfer moves every register once.
Main exports: performs_drawRow, performs_drawRows, performs_drawSprite, performs_findKey,
  performs_awaitKey, performs_storeEach, performs_loadEach
-/
import ChipEight.Proofs.Checked.Representation
import Mathlib.Data.List.FinRange
import Mathlib.Data.Nat.Bitwise

namespace ChipEight

/-- An ascending list starts with its least element. -/
theorem head_le_of_ascending {α : Type} [Preorder α] {first later : α} {rest : List α}
    (ascending : (first :: rest).Pairwise (· < ·)) (member : later ∈ first :: rest) :
    first ≤ later := by
  rcases List.mem_cons.mp member with rfl | member
  · exact le_refl later
  · exact le_of_lt (List.rel_of_pairwise_cons ascending member)

/-! ### Pixels of a sprite -/

namespace Screen

/-- Inverting pixels in two portions inverts them all. -/
theorem toggleAll_append (s : Screen) (first second : List Pixel) :
    s.toggleAll (first ++ second) =
      ((s.toggleAll first).1 || ((s.toggleAll first).2.toggleAll second).1,
        ((s.toggleAll first).2.toggleAll second).2) := by
  induction first generalizing s with
  | nil => rfl
  | cons p rest inductionHypothesis =>
      simp only [List.cons_append, toggleAll, inductionHypothesis, Bool.or_assoc]

end Screen

namespace Sprite

/-- The pixel that one column of a row inverts. -/
def columnPixel? (wraps : Bool) (left : Nat) (y : Fin 32) (row : UInt8) (column : Fin 8) :
    Option Pixel :=
  if isSet row column then (place? 64 wraps left column).map fun x => ⟨x, y⟩ else none

/-- The pixels that the row `r` of a sprite inverts. -/
def pixelsOfRow (m : Memory) (address : UInt16) (wraps : Bool) (left top r : Nat) : List Pixel :=
  match place? 32 wraps top r with
  | some y => rowPixels wraps left y (m.read (address + UInt16.ofNat r))
  | none => []

variable {size origin step next : Nat} {wraps : Bool}

/-- Nothing is drawn behind an edge that cuts off, and nowhere else is nothing drawn. -/
theorem place?_eq_none (positive : 0 < size) :
    place? size wraps origin step = none ↔ size ≤ origin + step ∧ wraps = false := by
  rw [place?, ← Nat.not_lt]
  split
  case isTrue inside => simp [inside]
  case isFalse outside => cases wraps <;> simp [outside, Nat.mod_lt _ positive]

/-- What follows a place that is cut off is cut off too. -/
theorem place?_eq_none_of_le (positive : 0 < size) (cut : place? size wraps origin step = none)
    (further : step ≤ next) : place? size wraps origin next = none := by
  obtain ⟨beyond, clips⟩ := (place?_eq_none positive).mp cut
  exact (place?_eq_none positive).mpr ⟨Nat.le_trans beyond (Nat.add_le_add_left further origin), clips⟩

/-- The mask of a column leaves nothing of a row exactly if the row has no pixel there. -/
theorem and_mask_eq_zero (row : UInt8) (column : Fin 8) :
    row &&& (0x80 >>> UInt8.ofNat column) = 0 ↔ isSet row column = false := by
  have mask : (0x80 >>> UInt8.ofNat column).toNat = 2 ^ (7 - column.val) := by
    revert column
    decide
  rw [← UInt8.toNat_inj, UInt8.toNat_and, mask, Nat.and_two_pow, isSet]
  cases row.toNat.testBit (7 - column.val) <;> simp

end Sprite

namespace Checked

variable {c : Interpreter} {wraps hit : Bool} {left top : Nat}

/-- The interpreter with some pixels inverted. -/
def inverted (c : Interpreter) (pixels : List Pixel) : Interpreter :=
  { c with machine := { c.machine with screen := (c.machine.screen.toggleAll pixels).2 } }

/-- One of the pixels was lit. -/
def meetsLit (c : Interpreter) (pixels : List Pixel) : Bool :=
  (c.machine.screen.toggleAll pixels).1

/-- A loop that stops has inverted nothing. -/
theorem performs_stop : Performs (pure hit) c (hit || meetsLit c []) (inverted c []) := by
  rw [meetsLit, Screen.toggleAll, Bool.or_false]
  exact .pure hit

/-- The two edge tests of a loop find the place at which an interpreter draws. -/
theorem edge_eq_place? {α : Type} (size : Nat) (positive : 0 < size) (origin step : Nat)
    (draw : Nat → α) (stop : α) :
    (if origin + step < size then draw (origin + step)
      else if wraps then draw ((origin + step) % size)
      else stop) =
      (Sprite.place? size wraps origin step).elim stop fun place => draw place := by
  rw [Sprite.place?]
  by_cases inside : origin + step < size
  · rw [if_pos inside, dif_pos inside]
    rfl
  · rw [if_neg inside, dif_neg inside]
    cases wraps with
    | false => rfl
    | true =>
        rw [if_pos rfl, if_pos rfl, dif_pos (Nat.mod_lt _ positive)]
        rfl

/-- The columns of a row of which the first has its pixel set. -/
theorem drawRow_cons {y : Nat} {row : UInt8} {column : Fin 8} {rest : List (Fin 8)}
    (set : Sprite.isSet row column = true) :
    drawRow wraps left y row hit (column :: rest) =
      (Sprite.place? 64 wraps left column).elim (pure hit) fun x =>
        toggle x y >>= fun lit => drawRow wraps left y row (hit || lit) rest := by
  have masked : ¬ row &&& (0x80 >>> UInt8.ofNat column) = 0 := by
    rw [Sprite.and_mask_eq_zero, set]
    decide
  rw [drawRow, if_neg masked]
  exact edge_eq_place? 64 (by decide) left column
    (fun x => toggle x y >>= fun lit => drawRow wraps left y row (hit || lit) rest) (pure hit)

/-- The rows of a sprite, the first of them apart. -/
theorem drawRows_cons {r : Nat} {rest : List Nat} :
    drawRows wraps left top hit (r :: rest) =
      (Sprite.place? 32 wraps top r).elim (pure hit) fun y =>
        drawRowAt wraps left y r hit >>= fun hit => drawRows wraps left top hit rest :=
  edge_eq_place? 32 (by decide) top r
    (fun y => drawRowAt wraps left y r hit >>= fun hit => drawRows wraps left top hit rest) (pure hit)

/-- The columns of a row, from left to right, invert their pixels; at an edge that cuts off, none of
    the columns that are left has a pixel. -/
theorem performs_drawRow (y : Fin 32) (row : UInt8) {columns : List (Fin 8)}
    (ascending : columns.Pairwise (· < ·)) :
    Performs (drawRow wraps left y row hit columns) c
      (hit || meetsLit c (columns.filterMap (Sprite.columnPixel? wraps left y row)))
      (inverted c (columns.filterMap (Sprite.columnPixel? wraps left y row))) := by
  induction columns generalizing c hit with
  | nil => exact performs_stop
  | cons column rest inductionHypothesis =>
      have tail := List.Pairwise.of_cons ascending
      cases set : Sprite.isSet row column with
      | false =>
          have skipped : Sprite.columnPixel? wraps left y row column = none := by
            rw [Sprite.columnPixel?, set]
            rfl
          rw [drawRow, if_pos ((Sprite.and_mask_eq_zero row column).mpr set),
            List.filterMap_cons_none skipped]
          exact inductionHypothesis tail
      | true =>
          rw [drawRow_cons set]
          cases placed : Sprite.place? 64 wraps left column with
          | some x =>
              have pixel : Sprite.columnPixel? wraps left y row column = some ⟨x, y⟩ := by
                rw [Sprite.columnPixel?, set, placed]
                rfl
              rw [List.filterMap_cons_some pixel, meetsLit, Screen.toggleAll, ← Bool.or_assoc]
              exact .bind (performs_toggle ⟨x, y⟩) (inductionHypothesis tail)
          | none =>
              -- The loop ends here: the columns ascend, so all that are left lie behind the edge as well.
              have cut : (column :: rest).filterMap (Sprite.columnPixel? wraps left y row) = [] := by
                rw [List.filterMap_eq_nil_iff]
                intro later member
                have further : column ≤ later := head_le_of_ascending ascending member
                rw [Sprite.columnPixel?, Sprite.place?_eq_none_of_le (by decide) placed further]
                exact ite_self none
              rw [cut]
              exact performs_stop

theorem performs_drawRowAt (y : Fin 32) (r : Nat) :
    Performs (drawRowAt wraps left y r hit) c
      (hit || meetsLit c (Sprite.rowPixels wraps left y
        (c.machine.memory.read (c.machine.index + UInt16.ofNat r))))
      (inverted c (Sprite.rowPixels wraps left y
        (c.machine.memory.read (c.machine.index + UInt16.ofNat r)))) :=
  .bind (.get fun _ represents => represents.index)
    (.bind (performs_readByte _) (performs_drawRow y _ (List.pairwise_lt_finRange 8)))

/-- The rows of a sprite, from top to bottom, invert their pixels; at an edge that cuts off, none of
    the rows that are left has any. -/
theorem performs_drawRows {rows : List Nat} (ascending : rows.Pairwise (· < ·)) :
    Performs (drawRows wraps left top hit rows) c
      (hit || meetsLit c
        (rows.flatMap (Sprite.pixelsOfRow c.machine.memory c.machine.index wraps left top)))
      (inverted c
        (rows.flatMap (Sprite.pixelsOfRow c.machine.memory c.machine.index wraps left top))) := by
  induction rows generalizing c hit with
  | nil => exact performs_stop
  | cons r rest inductionHypothesis =>
      have tail := List.Pairwise.of_cons ascending
      rw [drawRows_cons]
      cases placed : Sprite.place? 32 wraps top r with
      | some y =>
          rw [List.flatMap_cons, Sprite.pixelsOfRow, placed, meetsLit, inverted,
            Screen.toggleAll_append, ← Bool.or_assoc]
          exact .bind (performs_drawRowAt y r) (inductionHypothesis tail)
      | none =>
          have cut : (r :: rest).flatMap
              (Sprite.pixelsOfRow c.machine.memory c.machine.index wraps left top) = [] := by
            rw [List.flatMap_eq_nil_iff]
            intro later member
            have further : r ≤ later := head_le_of_ascending ascending member
            rw [Sprite.pixelsOfRow, Sprite.place?_eq_none_of_le (by decide) placed further]
          rw [cut]
          exact performs_stop

theorem performs_drawSprite (x y : UInt8) (n : Nat) :
    let pixels := Sprite.pixels c.machine.memory c.machine.index n wraps x y
    let screen := { (c.machine.screen.toggleAll pixels).2 with pending := true }
    Performs (drawSprite x y n wraps) c (c.machine.screen.toggleAll pixels).1
      { c with machine := { c.machine with screen } } :=
  .bind (performs_drawRows List.pairwise_lt_range)
    (.change (.pure _) fun _ represents => { represents with pending := rfl })

/-! ### The keypad -/

theorem performs_lookupKey (k : Keypad) (key : Nibble) :
    Performs (lookup k.keys key) c (k.isDown key) c :=
  .of_ends fun _ => .lookup key.isLt

/-- A search of the keypad, key by key, finds the first fresh one. -/
theorem performs_findKey (k held : Keypad) (keys : List Nibble) :
    Performs (findKey k.keys held.keys (keys.map Fin.val)) c
      ((keys.find? fun key => k.isDown key && !held.isDown key).map Fin.val) c := by
  induction keys with
  | nil => exact .pure none
  | cons key rest inductionHypothesis =>
      rw [List.find?_cons]
      refine .bind (performs_lookupKey k key) ?_
      cases k.isDown key with
      | false => exact inductionHypothesis
      | true =>
          refine .bind (performs_lookupKey held key) ?_
          cases held.isDown key with
          | false => exact .pure _
          | true => exact inductionHypothesis

/-- A look at the keypad while waiting for a key. -/
theorem performs_awaitKey (x : Nibble) :
    Performs (awaitKey x) c (c.machine.awaitKey x).1
      { c with machine := (c.machine.awaitKey x).2 } := by
  have held : Vector.zipWith (· && ·)
      ((c.machine.keysHeld?.map Keypad.keys).getD c.machine.keypad.keys) c.machine.keypad.keys =
      (c.machine.keypad.meet (c.machine.keysHeld?.getD c.machine.keypad)).keys := by
    rw [Option.getD_map, Keypad.meet]
    exact Vector.ext fun i inside => by
      rw [Vector.getElem_zipWith, Vector.getElem_zipWith, Bool.and_comm]
  refine .bind (.get fun _ represents => represents.keys)
    (.bind (.get fun _ represents => represents.keysHeld?) ?_)
  rw [held, Machine.awaitKey, Keypad.fresh?]
  -- The search looks at what is held, no matter which looks it comes from.
  generalize c.machine.keypad.meet (c.machine.keysHeld?.getD c.machine.keypad) = held
  have remembered : Performs (update fun s => { s with keysHeld? := some held.keys }) c ()
      { c with machine := { c.machine with keysHeld? := some held } } :=
    .update fun _ represents => { represents with keysHeld? := rfl }
  have found := performs_findKey (c := { c with machine := { c.machine with keysHeld? := some held } })
    c.machine.keypad held (List.finRange 16)
  rw [List.map_coe_finRange_eq_range] at found
  refine .bind remembered (.bind found ?_)
  cases (List.finRange 16).find? fun key => c.machine.keypad.isDown key && !held.isDown key with
  | none => exact .pure _
  | some key =>
      exact .bind (performs_setRegister x _)
        (.change (.pure _) fun _ represents => { represents with keysHeld? := rfl })

/-! ### Transfers -/

theorem map_val_registersUpTo (x : Nibble) :
    (Machine.registersUpTo x).map Fin.val = List.range (x + 1) := by
  revert x
  decide

/-- The registers are written one after the other; none of them depends on memory. -/
theorem performs_storeEach (registers : List Nibble) :
    Performs (storeEach (registers.map Fin.val)) c ()
      { c with machine := { c.machine with
        memory := registers.foldl
          (fun memory r => memory.write (c.machine.transferAddress r) (c.machine.register r))
          c.machine.memory } } := by
  induction registers generalizing c with
  | nil => exact .pure ()
  | cons r rest inductionHypothesis =>
      exact .bind (.get fun _ represents => represents.index)
        (.bind (performs_register r) (.bind (performs_writeByte _ _) inductionHypothesis))

/-- The registers are read one after the other; none of them moves the address of another. -/
theorem performs_loadEach (registers : List Nibble) :
    Performs (loadEach (registers.map Fin.val)) c ()
      { c with
        machine := registers.foldl
          (fun m r => m.setRegister r (c.machine.memory.read (c.machine.transferAddress r)))
          c.machine } := by
  induction registers generalizing c with
  | nil => exact .pure ()
  | cons r rest inductionHypothesis =>
      exact .bind (.get fun _ represents => represents.index)
        (.bind (performs_readByte _) (.bind (performs_setRegister r _) inductionHypothesis))

/-- Registers that are set one after the other are all set, and nothing else is. -/
theorem foldl_setRegister (m : Machine) (value : Nibble → UInt8) (registers : List Nibble) :
    registers.foldl (fun m r => m.setRegister r (value r)) m =
      { m with registers := Vector.ofFn fun r => if r ∈ registers then value r else m.register r } := by
  induction registers generalizing m with
  | nil =>
      have same : Vector.ofFn (fun r => m.register r) = m.registers :=
        Vector.ext fun i inside => Vector.getElem_ofFn inside
      rw [List.foldl_nil]
      simp only [List.not_mem_nil, if_false, same]
  | cons first rest inductionHypothesis =>
      rw [List.foldl_cons, inductionHypothesis]
      -- A register that is set twice has the same value both times.
      have set : ∀ r, (if r ∈ rest then value r else (m.setRegister first (value first)).register r) =
          if r ∈ first :: rest then value r else m.register r := by
        intro r
        rw [Machine.register_setRegister]
        by_cases later : r ∈ rest
        · rw [if_pos later, if_pos (List.mem_cons_of_mem _ later)]
        · rw [if_neg later]
          by_cases same : r = first
          · rw [if_pos same, if_pos (List.mem_cons.mpr (.inl same)), same]
          · rw [if_neg same, if_neg (List.not_mem_cons_of_ne_of_not_mem same later)]
      simp only [set]
      rfl

/-- The increment of I does not depend on the registers. -/
theorem indexAfter_registers (m : Machine) (registers : Vector UInt8 16) (d : Dialect)
    (x : Nibble) : ({ m with registers } : Machine).indexAfter d x = m.indexAfter d x :=
  rfl

/-- The increment of I is a word. -/
theorem performs_moveIndex (x : Nibble) :
    Performs (moveIndex x) c ()
      { c with machine := { c.machine with index := c.machine.indexAfter c.dialect x } } := by
  have small : (UInt16.ofNat x).toNat = x.val :=
    UInt16.toNat_ofNat_of_lt (Nat.lt_trans x.isLt (by decide))
  have fits : (UInt16.ofNat x).toNat + (1 : UInt16).toNat < UInt16.size := by
    rw [small]
    exact Nat.lt_trans (Nat.add_lt_add_right x.isLt 1) (by decide)
  refine .bind (.get fun _ represents => represents.dialect) ?_
  rw [Machine.indexAfter]
  cases c.dialect.transferMovesIndex with
  | false => exact .pure ()
  | true =>
      refine .bind (.of_ends fun _ => .addWord fits) ?_
      refine .update fun _ represents => { represents with index := ?_ }
      rw [represents.index]
      exact congrArg (c.machine.index + ·) (UInt16.ofNat_add x.val 1).symm

theorem performs_storeRegisters (x : Nibble) :
    Performs (storeRegisters x) c ()
      { c with machine := c.machine.storeRegisters c.dialect x } := by
  have stored := performs_storeEach (c := c) (Machine.registersUpTo x)
  rw [map_val_registersUpTo] at stored
  exact .bind stored (performs_moveIndex x)

theorem performs_loadRegisters (x : Nibble) :
    Performs (loadRegisters x) c ()
      { c with machine := c.machine.loadRegisters c.dialect x } := by
  have loaded : Performs (loadEach (List.range (x + 1))) c () { c with
      machine := { c.machine with
        registers := (c.machine.loadRegisters c.dialect x).registers } } := by
    have loaded := performs_loadEach (c := c) (Machine.registersUpTo x)
    rw [map_val_registersUpTo, foldl_setRegister] at loaded
    simp only [Machine.mem_registersUpTo] at loaded
    exact loaded
  have moved := performs_moveIndex (c := { c with
    machine := { c.machine with registers := (c.machine.loadRegisters c.dialect x).registers } }) x
  rw [indexAfter_registers] at moved
  exact .bind loaded moved

end Checked

end ChipEight
