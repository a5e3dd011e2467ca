/-
Module: ChipEight.Keypad
Purpose: The sixteen keys as a machine sees them, each up or down.
Main exports: Keypad, Keypad.isDown, Keypad.set, Keypad.press, Keypad.meet, Keypad.fresh?
-/
import ChipEight.Instruction.Basic

namespace ChipEight

/-- Which keys are down. -/
structure Keypad where
  keys : Vector Bool 16
deriving DecidableEq

namespace Keypad

/-- No key is down. -/
def released : Keypad := ⟨Vector.replicate 16 false⟩

theorem key_lt (key : Nibble) : key.val < 16 := key.isLt

/-- The key is down. -/
def isDown (k : Keypad) (key : Nibble) : Bool := k.keys.get key

/-- The keypad after a key goes down or up. -/
def set (k : Keypad) (key : Nibble) (down : Bool) : Keypad := ⟨k.keys.set key down (key_lt key)⟩

/-- Setting a key sets that key alone. -/
theorem isDown_set (k : Keypad) (key other : Nibble) (down : Bool) :
    (k.set key down).isDown other = if other = key then down else k.isDown other := by
  show (k.keys.set key down (key_lt key))[other.val] = if other = key then down else k.keys[other.val]
  simp only [Vector.getElem_set, Fin.val_inj, eq_comm]

/-- The keypad after some keys go down. -/
def press (k : Keypad) (keys : List Nibble) : Keypad := keys.foldl (fun k key => k.set key true) k

/-- The keys that are down on both of two keypads. -/
def meet (k other : Keypad) : Keypad := ⟨Vector.zipWith (· && ·) k.keys other.keys⟩

/-- A key is down on the meet of two keypads if it is down on both. -/
theorem isDown_meet (k other : Keypad) (key : Nibble) :
    (k.meet other).isDown key = (k.isDown key && other.isDown key) :=
  Vector.getElem_zipWith key.isLt

/-- The lowest key that is down and was not held before. -/
def fresh? (k held : Keypad) : Option Nibble :=
  (List.finRange 16).find? fun key => k.isDown key && !held.isDown key

end Keypad

end ChipEight
