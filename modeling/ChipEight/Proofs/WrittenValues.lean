/-
Module: ChipEight.Proofs.WrittenValues
Purpose: How the values of a command line are written, and that they are read back. Numbers are written
  in decimal, keys and colours in hexadecimal digits of either case, keys with commas between them,
  modes by their names, and paths as they are. Every such text is plain: it is not empty and does not
  look like an option.
Main exports: Plain, Setting.Value, Setting.Writes, Setting.Writes.plain, Given.put,
  Given.read_of_writes
-/
import ChipEight.CommandLine.Values
import ChipEight.Proofs.Numerals
import Mathlib.Data.List.Forall2

namespace ChipEight

open Numeral (WritesDigit)

/-! ### Keys and colours -/

/-- A key is read back from its digit. -/
theorem Key.ofText?_of_writes {c : Char} {key : Nibble} (writes : WritesDigit c key) :
    Key.ofText? [c] = some key := by
  have both : ∀ key : Nibble, Key.ofText? [Nat.digitChar key] = some key ∧
      Key.ofText? [(Nat.digitChar key).toUpper] = some key := by
    decide
  obtain ⟨lower, upper⟩ := both key
  rcases writes with rfl | rfl
  · exact lower
  · exact upper

namespace Rgb

/-- Two digits write a channel. -/
def WritesChannel (high low : Char) (v : UInt8) : Prop :=
  WritesDigit high (v.toNat / 16) ∧ WritesDigit low (v.toNat % 16)

theorem channel?_of_writes {high low : Char} {v : UInt8} (writes : WritesChannel high low v) :
    channel? high low = some v := by
  obtain ⟨writesHigh, writesLow⟩ := writes
  rw [channel?, Numeral.readHex?_pair (Numeral.high_digit_lt v) (Nat.mod_lt _ (by decide)) writesHigh
    writesLow, Nat.div_add_mod]
  exact congrArg some UInt8.ofNat_toNat

/-- The text writes the colour as `0xRRGGBB`. -/
def Writes (c : Rgb) (text : List Char) : Prop :=
  ∃ r₁ r₀ g₁ g₀ b₁ b₀, text = ['0', 'x', r₁, r₀, g₁, g₀, b₁, b₀] ∧
    WritesChannel r₁ r₀ c.r ∧ WritesChannel g₁ g₀ c.g ∧ WritesChannel b₁ b₀ c.b

/-- The digits of a channel. -/
theorem writesChannel_digitChar (v : UInt8) :
    WritesChannel (Nat.digitChar (v.toNat / 16)) (Nat.digitChar (v.toNat % 16)) v :=
  ⟨.inl rfl, .inl rfl⟩

/-- Every colour can be written. -/
theorem exists_writes (c : Rgb) : ∃ text : String, c.Writes text.toList := by
  have red := writesChannel_digitChar c.r
  have green := writesChannel_digitChar c.g
  have blue := writesChannel_digitChar c.b
  exact ⟨String.ofList _, _, _, _, _, _, _, String.toList_ofList, red, green, blue⟩

theorem ofText?_of_writes {c : Rgb} {text : List Char} (writes : c.Writes text) :
    ofText? text = some c := by
  obtain ⟨r₁, r₀, g₁, g₀, b₁, b₀, rfl, red, green, blue⟩ := writes
  simp [ofText?, dropMark, channel?_of_writes red, channel?_of_writes green,
    channel?_of_writes blue]

end Rgb

namespace CommandLine

/-! ### Values of settings -/

/-- A text that is not empty and does not begin with a dash. -/
def Plain (text : String) : Prop := ∃ c rest, text.toList = c :: rest ∧ c ≠ '-'

/-- The name of a mode. -/
def modeName : Platform → String
  | .cosmacVip => "cosmac-vip"
  | .chip48 => "chip48"
  | .superChip => "super-chip"

namespace Setting

/-- The values of a setting. -/
abbrev Value : Setting → Type
  | .font | .ppm => String
  | .mode => Platform
  | .ips => UInt32
  | .cycles | .seed => UInt64
  | .hold => List Nibble
  | .background | .foreground => Rgb

/-- The characters write the keys, one each. -/
def WritesDigits : List Char → List Nibble → Prop :=
  List.Forall₂ fun c key => WritesDigit c key.val

/-- The text writes keys, with commas between them. -/
def WritesKeys (keys : List Nibble) (text : List Char) : Prop :=
  keys ≠ [] ∧ ∃ digits, WritesDigits digits keys ∧
    text = [','].intercalate (digits.map fun c => [c])

/-- The text writes a value of a setting. -/
def Writes : (s : Setting) → s.Value → String → Prop
  | .font, path, text | .ppm, path, text => text = path ∧ Plain text
  | .mode, platform, text => text = modeName platform
  | .ips, n, text => text = Numeral.decimal (UInt32.toNat n)
  | .cycles, n, text | .seed, n, text => text = Numeral.decimal (UInt64.toNat n)
  | .hold, keys, text => WritesKeys keys text.toList
  | .background, colour, text | .foreground, colour, text => Rgb.Writes colour text.toList

variable {s : Setting} {value : s.Value} {text : String}

theorem plain_decimal (n : Nat) : Plain (Numeral.decimal n) := by
  obtain ⟨c, rest, digits, digit⟩ := Numeral.exists_toDigits_eq_cons n
  refine ⟨c, rest, ?_, ?_⟩
  · rw [Numeral.decimal, String.toList_ofList, digits]
  · rintro rfl
    cases digit

/-- No value looks like an option, and none is empty. -/
theorem Writes.plain (writes : s.Writes value text) : Plain text := by
  cases s with
  | font | ppm => exact writes.2
  | mode =>
      subst writes
      cases value
      · exact ⟨_, _, rfl, by decide⟩
      · exact ⟨_, _, rfl, by decide⟩
      · exact ⟨_, _, rfl, by decide⟩
  | ips | cycles | seed =>
      subst writes
      exact plain_decimal _
  | hold =>
      obtain ⟨some, digits, written, spelled⟩ := writes
      cases written with
      | nil => exact absurd rfl some
      | @cons c key digits keys writesFirst writesRest =>
          have first : ∃ rest, text.toList = c :: rest := ⟨_, by simpa using spelled⟩
          obtain ⟨rest, spelled⟩ := first
          exact ⟨c, rest, spelled, Numeral.ne_of_writes key.isLt writesFirst rfl⟩
  | background | foreground =>
      obtain ⟨r₁, r₀, g₁, g₀, b₁, b₀, spelled, -⟩ := writes
      exact ⟨_, _, spelled, by decide⟩

end Setting

/-! ### Writing values -/

/-- The values that can be written: paths that are plain, and keys if there are any. -/
def Setting.Writable : (s : Setting) → s.Value → Prop
  | .font, path | .ppm, path => Plain path
  | .hold, keys => keys ≠ []
  | _, _ => True

theorem Setting.writesDigits_digitChar (keys : List Nibble) :
    WritesDigits (keys.map fun key : Nibble => Nat.digitChar key.val) keys := by
  induction keys with
  | nil => exact .nil
  | cons key keys inductionHypothesis => exact .cons (.inl rfl) inductionHypothesis

/-- Every such value can be written. -/
theorem Setting.exists_writes {s : Setting} {value : s.Value} (writable : s.Writable value) :
    ∃ text, s.Writes value text := by
  cases s with
  | font | ppm => exact ⟨_, rfl, writable⟩
  | mode | ips | cycles | seed => exact ⟨_, rfl⟩
  | hold =>
      have digits := writesDigits_digitChar value
      exact ⟨String.ofList _, writable, _, digits, String.toList_ofList⟩
  | background | foreground => exact Rgb.exists_writes value

/-! ### Reading values -/

theorem dropPlus_toDigits (n : Nat) : Numeral.dropPlus (Nat.toDigits 10 n) = Nat.toDigits 10 n := by
  obtain ⟨c, rest, digits, digit⟩ := Numeral.exists_toDigits_eq_cons n
  rw [digits, Numeral.dropPlus]
  rintro rest' same
  cases same
  cases digit

/-- A rate is read back from its decimal digits. -/
theorem readRate?_decimal (n : UInt32) :
    readRate? (Numeral.decimal n.toNat).toList = some n := by
  obtain ⟨c, rest, digits, digit⟩ := Numeral.exists_toDigits_eq_cons n.toNat
  have unsigned : c ≠ '-' := by
    rintro rfl
    cases digit
  have read := Numeral.readDecimal?_toDigits n.toNat
  rw [← dropPlus_toDigits, digits] at read
  have small : n.toNat < UInt32.size := n.toNat_lt
  rw [Numeral.decimal, String.toList_ofList, digits]
  simp [readRate?, unsigned, read, small]

/-- A count is read back from its decimal digits. -/
theorem readCount?_decimal (n : UInt64) :
    readCount? (Numeral.decimal n.toNat).toList = some n := by
  have small : n.toNat < UInt64.size := n.toNat_lt
  rw [Numeral.decimal, String.toList_ofList, readCount?, dropPlus_toDigits,
    Numeral.readDecimal?_toDigits]
  simp [small]

theorem modeOfName?_modeName (platform : Platform) :
    modeOfName? (modeName platform) = some platform := by
  cases platform <;> rfl

theorem readPath_of_plain {text : String} (plain : Plain text) : readPath text = .ok text := by
  obtain ⟨c, rest, spelled, -⟩ := plain
  apply if_neg
  rintro rfl
  cases spelled

theorem mapM_ofText?_of_writesDigits {digits : List Char} {keys : List Nibble}
    (written : Setting.WritesDigits digits keys) :
    (digits.map fun c => [c]).mapM Key.ofText? = some keys := by
  induction written with
  | nil => rfl
  | cons writesFirst writesRest inductionHypothesis =>
      rw [List.map_cons, List.mapM_cons, Key.ofText?_of_writes writesFirst, inductionHypothesis]
      rfl

theorem comma_notMem_of_writesDigits {digits : List Char} {keys : List Nibble}
    (written : Setting.WritesDigits digits keys) : ',' ∉ digits := by
  induction written with
  | nil => exact List.not_mem_nil
  | @cons c key digits keys writesFirst writesRest inductionHypothesis =>
      have other : c ≠ ',' := Numeral.ne_of_writes key.isLt writesFirst rfl
      rw [List.mem_cons, not_or]
      exact ⟨other.symm, inductionHypothesis⟩

/-- Keys are read back from their list, however many there are. -/
theorem mapM_ofText?_of_writesKeys {keys : List Nibble} {text : List Char}
    (writes : Setting.WritesKeys keys text) : (text.splitOn ',').mapM Key.ofText? = some keys := by
  obtain ⟨present, digits, written, rfl⟩ := writes
  have unbroken : ∀ part ∈ digits.map fun c => [c], ',' ∉ part := by
    have absent := comma_notMem_of_writesDigits written
    simp only [List.mem_map, forall_exists_index, and_imp, forall_apply_eq_imp_iff₂,
      List.mem_singleton]
    rintro c member rfl
    exact absent member
  have parts : (digits.map fun c => [c]) ≠ [] := by
    cases written with
    | nil => exact absurd rfl present
    | cons => exact List.cons_ne_nil _ _
  rw [List.splitOn_intercalate ',' unbroken parts]
  exact mapM_ofText?_of_writesDigits written

namespace Given

/-- What is given after one more value of a setting. Keys are added to those that are held. -/
def put (g : Given) : (s : Setting) → s.Value → Given
  | .font, path => { g with font? := some path }
  | .mode, platform => { g with mode? := some platform }
  | .ips, n => { g with ips? := some n }
  | .cycles, n => { g with cycles? := some n }
  | .hold, keys => { g with hold := g.hold ++ keys }
  | .seed, n => { g with seed? := some n }
  | .ppm, path => { g with ppm? := some path }
  | .background, colour => { g with background? := some colour }
  | .foreground, colour => { g with foreground? := some colour }

/-- Whatever writes a value of a setting is read as that value. -/
theorem read_of_writes {s : Setting} {value : s.Value} {text : String} (g : Given)
    (writes : s.Writes value text) : g.read s text = .ok (g.put s value) := by
  cases s with
  | font | ppm =>
      obtain ⟨rfl, plain⟩ := writes
      rw [read, readPath_of_plain plain]
      rfl
  | mode =>
      subst writes
      rw [read, modeOfName?_modeName]
      rfl
  | ips =>
      subst writes
      rw [read, readRate?_decimal]
      rfl
  | cycles | seed =>
      subst writes
      rw [read, readCount?_decimal]
      rfl
  | hold =>
      rw [read, mapM_ofText?_of_writesKeys writes]
      rfl
  | background | foreground =>
      rw [read, Rgb.ofText?_of_writes writes]
      rfl

end Given

end CommandLine

end ChipEight
