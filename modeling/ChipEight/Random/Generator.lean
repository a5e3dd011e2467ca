/-
Module: ChipEight.Random.Generator
Purpose: The source of random bytes: the words of a cipher stream in their order. A generator is a
  key and the number of words drawn so far. A seed of 64 bits is stretched to a key by a linear
  congruential sequence whose states are mixed down to one word each.
Main exports: Generator, Generator.word, Generator.next, Generator.seeded
-/
import ChipEight.Random.Cipher

namespace ChipEight

/-- A stream of random words and a place in it. -/
structure Generator where
  key : Cipher.Key
  /-- How many words have been drawn. -/
  drawn : Nat
deriving DecidableEq

namespace Generator

/-- The sequence that stretches a seed, one step. -/
def seedStep (s : UInt64) : UInt64 := s * 6364136223846793005 + 11634580027462260723

/-- A word turned to the right by `n` bits, for any `n`. -/
def rotateRight (w n : UInt32) : UInt32 := (w >>> n) ||| (w <<< (32 - n))

/-- The word that a state of the sequence is mixed down to: two shifts and a turn whose amount is
    the five high bits. -/
def seedWord (s : UInt64) : UInt32 :=
  rotateRight (((s >>> 18) ^^^ s) >>> 27).toUInt32 (s >>> 59).toUInt32

/-- The words of `n` steps of the sequence. -/
def seedWords : Nat → UInt64 → List UInt32
  | 0, _ => []
  | n + 1, s => seedWord (seedStep s) :: seedWords n (seedStep s)

theorem length_seedWords (n : Nat) (s : UInt64) : (seedWords n s).length = n := by
  induction n generalizing s with
  | zero => rfl
  | succ n ih => simp [seedWords, ih]

/-- The key of a seed. -/
def seedKey (seed : UInt64) : Cipher.Key :=
  ⟨(seedWords 8 seed).toArray, by simp [length_seedWords]⟩

/-- The generator of a seed, at its beginning. -/
def seeded (seed : UInt64) : Generator := ⟨seedKey seed, 0⟩

/-- Word number `k` of the stream of a key. -/
def word (key : Cipher.Key) (k : Nat) : UInt32 :=
  (Cipher.block key (k / 16))[k % 16]

-- The first word of the seed 42.
example : word (seedKey 42) 0 = 572990626 := by decide +kernel

/-- Draws the next word. -/
def next (g : Generator) : UInt32 × Generator :=
  (word g.key g.drawn, { g with drawn := g.drawn + 1 })

end Generator

end ChipEight
