/-
Module: ChipEight.Random.Cipher
Purpose: The stream cipher ChaCha with twelve rounds, in its first layout: four constant words, a
  key of eight words, a block counter of two words with the low one first, and two zero words in
  place of a nonce. A block is the state after the rounds plus the state before them.
Main exports: Cipher.Key, Cipher.block
-/

namespace ChipEight.Cipher

/-- Eight words of key. -/
abbrev Key := Vector UInt32 8

/-- Sixteen words of state or of output. -/
abbrev Block := Vector UInt32 16

/-- A word turned to the left by `n` bits, for `n` from 1 to 31. -/
def rotateLeft (w n : UInt32) : UInt32 := (w <<< n) ||| (w >>> (32 - n))

/-- Mixes four words of a block. -/
def quarterRound (s : Block) (i j k l : Fin 16) : Block :=
  let a := s[i] + s[j]
  let d := rotateLeft (s[l] ^^^ a) 16
  let c := s[k] + d
  let b := rotateLeft (s[j] ^^^ c) 12
  let a := a + b
  let d := rotateLeft (d ^^^ a) 8
  let c := c + d
  let b := rotateLeft (b ^^^ c) 7
  (((s.set i a).set j b).set k c).set l d

/-- Two rounds: over the columns of the block, then over its diagonals. -/
def doubleRound (s : Block) : Block :=
  let s := quarterRound s 0 4 8 12
  let s := quarterRound s 1 5 9 13
  let s := quarterRound s 2 6 10 14
  let s := quarterRound s 3 7 11 15
  let s := quarterRound s 0 5 10 15
  let s := quarterRound s 1 6 11 12
  let s := quarterRound s 2 7 8 13
  quarterRound s 3 4 9 14

/-- `n` double rounds. -/
def doubleRounds : Nat → Block → Block
  | 0, s => s
  | n + 1, s => doubleRounds n (doubleRound s)

/-- The state before the rounds of block number `n`. -/
def start (key : Key) (n : Nat) : Block := #v[
  0x61707865, 0x3320646e, 0x79622d32, 0x6b206574,
  key[0], key[1], key[2], key[3], key[4], key[5], key[6], key[7],
  UInt32.ofNat n, UInt32.ofNat (n / 0x100000000), 0, 0]

/-- Block number `n` of the stream of a key. -/
def block (key : Key) (n : Nat) : Block :=
  Vector.zipWith (· + ·) (doubleRounds 6 (start key n)) (start key n)

-- The known first block of the key that is all zero.
example : block (Vector.replicate 8 0) 0 = #v[
    0x6a9af49b, 0x53f95507, 0x12ce1f81, 0xd583265f, 0xbbc32904, 0x1474e049, 0xa589007e, 0x5f15ae2e,
    0x79f86405, 0xc0e37ad2, 0x3428e82c, 0x798cfaac, 0x2c9f623a, 0x1969dea0, 0x2fe80b61,
    0xbe261341] := by
  decide +kernel

end ChipEight.Cipher
