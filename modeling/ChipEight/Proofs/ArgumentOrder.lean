/-
Module: ChipEight.Proofs.ArgumentOrder
Purpose: Command lines in any order and spelling. Each item of a command line can be spelled in several
  ways. While a command line is read from left to right, the scan amounts to what the items so far
  give, even where a value or the path of the program is still pending; so a record is read back from
  every arrangement of its items.
Main exports: Item.Spelled, Written, Scan.Amounts, Scan.Amounts.of_spelled,
  Scan.amounts_of_written, command_line_round_trip
-/
import ChipEight.CommandLine.Parse
import ChipEight.Proofs.Arrangements
import ChipEight.Proofs.Invariant

namespace ChipEight.CommandLine

/-! ### Spellings -/

/-- The letter of a setting, if it has one. -/
def Setting.letter? : Setting → Option Char
  | .ips => some 'i'
  | .cycles => some 'c'
  | _ => none

/-- A setting is spelled by its letter. This is what stands behind the dash in the same argument, and
    in the arguments after it: the value stands in the next argument, behind an equals sign, or right
    behind the letter. -/
inductive Setting.Lettered : (s : Setting) → s.Value → String → List String → Prop where
  | separate {s : Setting} {value : s.Value} {text : String} {c : Char}
      (letter : s.letter? = some c) (writes : s.Writes value text) :
      Lettered s value c.toString [text]
  | joined {s : Setting} {value : s.Value} {text : String} {c : Char}
      (letter : s.letter? = some c) (writes : s.Writes value text) :
      Lettered s value (c.toString ++ "=" ++ text) []
  | attached {s : Setting} {value : s.Value} {text : String} {c : Char}
      (letter : s.letter? = some c) (writes : s.Writes value text) :
      Lettered s value (c.toString ++ text) []

/-- The arguments spell the item. A long name has its value in the next argument or behind an equals
    sign. -/
inductive Item.Spelled : Item → List String → Prop where
  | program {path : String} (plain : Plain path) : Spelled (.program path) [path]
  | separate {s : Setting} {value : s.Value} {text : String} (writes : s.Writes value text) :
      Spelled (.setting s value) ["--" ++ s.name, text]
  | joined {s : Setting} {value : s.Value} {text : String} (writes : s.Writes value text) :
      Spelled (.setting s value) ["--" ++ s.name ++ "=" ++ text]
  | lettered {s : Setting} {value : s.Value} {letters : String} {more : List String}
      (lettered : s.Lettered value letters more) :
      Spelled (.setting s value) (("-" ++ letters) :: more)
  | flag (f : Flag) : Spelled (.flag f) ["--" ++ f.name]
  | flagLetter : Spelled (.flag .debug) ["-d"]

/-- The arguments spell the items, one after the other. The letter of a flag may share its dash with
    the letter of the setting that comes next. -/
inductive Written : List Item → List String → Prop where
  | nil : Written [] []
  | snoc {items : List Item} {arguments : List String} {item : Item} {more : List String}
      (written : Written items arguments) (spelled : item.Spelled more) :
      Written (items ++ [item]) (arguments ++ more)
  | together {items : List Item} {arguments : List String} {s : Setting} {value : s.Value}
      {letters : String} {more : List String} (written : Written items arguments)
      (lettered : s.Lettered value letters more) :
      Written (items ++ [.flag .debug] ++ [.setting s value])
        (arguments ++ ("-d" ++ letters) :: more)

/-- The item can be written. -/
def Item.Writable : Item → Prop
  | .program path => Plain path
  | .setting s value => s.Writable value
  | .flag _ => True

theorem Item.exists_spelled {item : Item} (writable : item.Writable) :
    ∃ arguments, item.Spelled arguments := by
  cases item with
  | program path => exact ⟨_, .program writable⟩
  | setting s value =>
      obtain ⟨text, writes⟩ := Setting.exists_writes writable
      exact ⟨_, .separate writes⟩
  | flag f => exact ⟨_, .flag f⟩

theorem exists_written {items : List Item} (writable : ∀ item ∈ items, item.Writable) :
    ∃ arguments, Written items arguments := by
  induction items using List.reverseRecOn with
  | nil => exact ⟨[], .nil⟩
  | append_singleton items item inductionHypothesis =>
      obtain ⟨arguments, written⟩ := inductionHypothesis fun earlier member =>
        writable earlier (List.mem_append_left _ member)
      obtain ⟨more, spelled⟩ := Item.exists_spelled
        (writable item (List.mem_append_right _ (List.mem_singleton_self item)))
      exact ⟨arguments ++ more, .snoc written spelled⟩

/-- No path of the record is empty or looks like an option. -/
structure Given.PlainPaths (g : Given) : Prop where
  program : ∀ path, g.rom? = some path → Plain path
  font : ∀ path, g.font? = some path → Plain path
  picture : ∀ path, g.ppm? = some path → Plain path

theorem Given.PlainPaths.writable {g : Given} (plain : g.PlainPaths) :
    ∀ item ∈ g.items, item.Writable := by
  intro item member
  rw [Given.items, List.mem_append, List.mem_append, List.mem_append] at member
  rcases member with ((member | member) | member) | member
  · obtain ⟨path, named, rfl⟩ := Given.mem_programItems.mp member
    exact plain.program path named
  · obtain ⟨s, value, given, rfl⟩ := Given.mem_settingItems.mp member
    cases s with
    | font => exact plain.font value given
    | ppm => exact plain.picture value given
    | hold => cases given
    | _ => exact trivial
  · obtain ⟨held, rfl⟩ := Given.mem_keyItems.mp member
    exact held
  · obtain ⟨f, -, rfl⟩ := Given.mem_flagItems.mp member
    exact trivial

/-! ### Reading from left to right -/

namespace Scan

/-- With what is still pending, the scan amounts to what is given. -/
def Amounts (s : Scan) (g : Given) : Prop :=
  s.settle = .ok { given := g, programSeen := g.rom?.isSome }

variable {s s' : Scan} {g : Given}

/-- What settles waits for no value, and settling changes only what is given and pending. -/
theorem settle_eq_ok (settled : s.settle = .ok s') :
    (∀ setting, s.pending ≠ .awaiting setting) ∧
      s' = { s with given := s'.given, pending := .nothing } := by
  rw [settle] at settled
  cases pending : s.pending with
  | nothing =>
      rw [pending] at settled
      cases settled
      refine ⟨nofun, ?_⟩
      rw [← pending]
  | program text =>
      rw [pending] at settled
      obtain ⟨given, taken, settled⟩ := Except.bind_eq_ok.mp settled
      cases settled
      exact ⟨nofun, rfl⟩
  | awaiting setting =>
      rw [pending] at settled
      cases settled
  | value setting text =>
      rw [pending] at settled
      obtain ⟨given, taken, settled⟩ := Except.bind_eq_ok.mp settled
      cases settled
      exact ⟨nofun, rfl⟩

variable {argument text : String} {setting : Setting} {value : setting.Value} {f : Flag} {c : Char}

/-! #### Shapes of arguments -/

theorem foldlM_one (s : Scan) (argument : String) : [argument].foldlM step s = s.step argument := by
  simp

theorem foldlM_two (s : Scan) (argument text : String) :
    [argument, text].foldlM step s = s.step argument >>= fun s => s.step text := by
  simp

theorem step_of_plain (unended : s.positionalOnly = false) (plain : Plain text) :
    s.step text = s.plain text := by
  obtain ⟨c, rest, spelled, other⟩ := plain
  simp [step, unended, spelled, other]

theorem step_of_long {name : List Char} (unended : s.positionalOnly = false) (named : name ≠ [])
    (spelled : argument.toList = '-' :: '-' :: name) : s.step argument = s.long name := by
  simp [step, unended, spelled]

theorem step_of_letters {letters : String} (unended : s.positionalOnly = false)
    (plain : Plain letters) : s.step ("-" ++ letters) = s.letters letters.toList := by
  obtain ⟨c, rest, spelled, other⟩ := plain
  have shape : ("-" ++ letters).toList = '-' :: c :: rest := by
    rw [String.toList_append, spelled]
    rfl
  rw [spelled]
  simp [step, unended, shape, other]

theorem plain_debug : Plain "d" := ⟨'d', [], rfl, by decide⟩

theorem step_debug (unended : s.positionalOnly = false) : s.step "-d" = s.flag .debug :=
  (step_of_letters unended plain_debug).trans (bind_pure (s.flag .debug))

/-- The letter of a flag leaves the letters behind it to be read. -/
theorem step_together (unended : s.positionalOnly = false) (letters : String) :
    s.step ("-d" ++ letters) = s.flag .debug >>= fun s => s.letters letters.toList := by
  have shape : ("d" ++ letters).toList = 'd' :: letters.toList := by
    rw [String.toList_append]
    rfl
  have plain : Plain ("d" ++ letters) := ⟨'d', letters.toList, shape, by decide⟩
  have dash : "-d" ++ letters = "-" ++ ("d" ++ letters) := by
    rw [← String.append_assoc]
    rfl
  rw [dash, step_of_letters unended plain, shape]
  rfl

/-- A text without an equals sign is passed over. -/
theorem splitAtEquals_append {name : List Char} (absent : '=' ∉ name) (rest : List Char) :
    splitAtEquals (name ++ rest) = (name ++ (splitAtEquals rest).1, (splitAtEquals rest).2) := by
  induction name with
  | nil => rfl
  | cons c name inductionHypothesis =>
      rw [List.mem_cons, not_or] at absent
      obtain ⟨other, absent⟩ := absent
      rw [List.cons_append, splitAtEquals, if_neg (Ne.symm other), inductionHypothesis absent]
      rfl

theorem splitAtEquals_of_notMem {name : List Char} (absent : '=' ∉ name) :
    splitAtEquals name = (name, none) := by
  have passed := splitAtEquals_append absent []
  rw [splitAtEquals, List.append_nil] at passed
  exact passed

theorem splitAtEquals_joined {name : List Char} (absent : '=' ∉ name) (value : List Char) :
    splitAtEquals (name ++ '=' :: value) = (name, some value) := by
  rw [splitAtEquals_append absent, splitAtEquals, if_pos rfl, List.append_nil]

theorem equals_notMem_name (name : Name) : '=' ∉ name.long.toList := by
  rcases name with s | f | q
  · cases s <;> decide
  · cases f <;> decide
  · cases q <;> decide

theorem ofLong?_long (name : Name) : Name.ofLong? name.long = some name := by
  rcases name with s | f | q
  · cases s <;> rfl
  · cases f <;> rfl
  · cases q <;> rfl

theorem long_joined (s : Scan) (setting : Setting) (text : String) :
    s.long (setting.name.toList ++ '=' :: text.toList) = s.attached setting text := by
  have absent : '=' ∉ setting.name.toList := equals_notMem_name (.setting setting)
  have known : Name.ofLong? setting.name = some (.setting setting) :=
    ofLong?_long (.setting setting)
  simp only [long, splitAtEquals_joined absent, String.ofList_toList, known]

theorem long_name (s : Scan) (setting : Setting) : s.long setting.name.toList = s.await setting := by
  have absent : '=' ∉ setting.name.toList := equals_notMem_name (.setting setting)
  have known : Name.ofLong? setting.name = some (.setting setting) :=
    ofLong?_long (.setting setting)
  simp only [long, splitAtEquals_of_notMem absent, String.ofList_toList, known]

theorem long_flag (s : Scan) (f : Flag) : s.long f.name.toList = s.flag f := by
  have absent : '=' ∉ f.name.toList := equals_notMem_name (.flag f)
  have known : Name.ofLong? f.name = some (.flag f) := ofLong?_long (.flag f)
  simp only [long, splitAtEquals_of_notMem absent, String.ofList_toList, known]

theorem ofShort?_of_letter (letter : setting.letter? = some c) :
    Name.ofShort? c = some (.setting setting) := by
  cases setting <;> cases letter <;> rfl

theorem letter_ne (letter : setting.letter? = some c) : c ≠ '-' := by
  cases setting <;> cases letter <;> decide

/-- The settings with letters have numbers as values, which do not begin with an equals sign. -/
theorem dropEquals_of_writes (letter : setting.letter? = some c)
    (writes : setting.Writes value text) : dropEquals text.toList = text.toList := by
  have number : ∃ n, text = Numeral.decimal n := by
    cases setting with
    | ips | cycles => exact ⟨_, writes⟩
    | _ => cases letter
  obtain ⟨n, rfl⟩ := number
  obtain ⟨d, rest, digits, digit⟩ := Numeral.exists_toDigits_eq_cons n
  rw [Numeral.decimal, String.toList_ofList, digits, dropEquals]
  rintro rest' same
  cases same
  cases digit

theorem toList_toString (c : Char) : c.toString.toList = [c] := by
  simp [Char.toString]

theorem toList_toString_append (c : Char) (text : String) :
    (c.toString ++ text).toList = c :: text.toList := by
  rw [String.toList_append, toList_toString]
  rfl

theorem toList_toString_joined (c : Char) (text : String) :
    (c.toString ++ "=" ++ text).toList = c :: '=' :: text.toList := by
  rw [String.toList_append, toList_toString_append]
  rfl

/-- Letters do not look like a long name. -/
theorem plain_of_lettered {letters : String} {more : List String}
    (lettered : setting.Lettered value letters more) : Plain letters := by
  cases lettered with
  | @separate text c letter writes => exact ⟨c, [], toList_toString c, letter_ne letter⟩
  | @joined text c letter writes =>
      exact ⟨c, _, toList_toString_joined c text, letter_ne letter⟩
  | @attached text c letter writes =>
      exact ⟨c, _, toList_toString_append c text, letter_ne letter⟩

/-- A letter at the end of its argument asks for the next argument. -/
theorem letters_alone (s : Scan) (letter : setting.letter? = some c) :
    s.letters [c] = s.await setting := by
  simp [letters, ofShort?_of_letter letter]

/-- What stands behind a letter is its value. -/
theorem letters_value (s : Scan) {rest : List Char} (letter : setting.letter? = some c)
    (present : rest ≠ []) :
    s.letters (c :: rest) = s.attached setting (String.ofList (dropEquals rest)) := by
  simp [letters, ofShort?_of_letter letter, present]

namespace Amounts

theorem unended (amounts : s.Amounts g) : s.positionalOnly = false := by
  have same := (settle_eq_ok amounts).2
  exact (congrArg Scan.positionalOnly same).symm

theorem programSeen (amounts : s.Amounts g) : s.programSeen = g.rom?.isSome := by
  have same := (settle_eq_ok amounts).2
  exact (congrArg Scan.programSeen same).symm

/-- A scan with nothing pending amounts to what it has been given. -/
theorem of_settled (g : Given) : Amounts { given := g, programSeen := g.rom?.isSome } g := rfl

/-- The path of the program stays pending. -/
theorem plain_program (amounts : s.Amounts g) (fresh : g.rom? = none) (plain : Plain text) :
    ∃ s', s.plain text = .ok s' ∧ s'.Amounts { g with rom? := some text } := by
  refine ⟨{ given := g, pending := .program text, programSeen := true }, ?_, ?_⟩
  · have unseen : s.programSeen = false := by
      rw [amounts.programSeen, fresh]
      rfl
    have positional : s.positional text =
        .ok { given := g, pending := .program text, programSeen := true } := by
      rw [Scan.positional, unseen, if_neg Bool.false_ne_true, amounts]
      rfl
    rw [Scan.plain]
    cases pending : s.pending with
    | awaiting setting => exact absurd pending ((settle_eq_ok amounts).1 setting)
    | nothing | program | value => exact positional
  · simp only [Amounts, settle, g.takeProgram_of_plain plain]
    rfl

/-- Nothing stays pending behind a value that is attached. -/
theorem attached (amounts : s.Amounts g) (fresh : g.value? setting = none)
    (writes : setting.Writes value text) :
    ∃ s', s.attached setting text = .ok s' ∧ s'.Amounts (g.put setting value) := by
  have unnamed : (g.put setting value).rom? = g.rom? := by
    cases setting <;> rfl
  refine ⟨_, ?_, of_settled _⟩
  have taken : orStop (g.take setting text) = .ok (g.put setting value) :=
    congrArg orStop (Given.take_of_writes fresh writes)
  rw [Scan.attached, unnamed]
  exact Except.bind_eq_ok.mpr ⟨_, amounts, Except.bind_eq_ok.mpr ⟨_, taken, rfl⟩⟩

/-- A value in the next argument stays pending. -/
theorem await (amounts : s.Amounts g) (fresh : g.value? setting = none)
    (writes : setting.Writes value text) :
    ∃ s', (s.await setting >>= fun s => s.step text) = .ok s' ∧
      s'.Amounts (g.put setting value) := by
  have unnamed : (g.put setting value).rom? = g.rom? := by
    cases setting <;> rfl
  refine ⟨{ given := g, pending := .value setting text, programSeen := g.rom?.isSome }, ?_, ?_⟩
  · have awaits : s.await setting =
        .ok { given := g, pending := .awaiting setting, programSeen := g.rom?.isSome } := by
      rw [Scan.await, amounts]
      rfl
    have stepped : step { given := g, pending := .awaiting setting, programSeen := g.rom?.isSome }
        text = .ok { given := g, pending := .value setting text, programSeen := g.rom?.isSome } :=
      step_of_plain rfl writes.plain
    exact Except.bind_eq_ok.mpr ⟨_, awaits, stepped⟩
  · simp only [Amounts, settle, Given.take_of_writes fresh writes, unnamed]
    rfl

/-- Nothing stays pending behind a flag. -/
theorem flag (amounts : s.Amounts g) (down : g.raised f = false) :
    ∃ s', s.flag f = .ok s' ∧ s'.Amounts (g.withFlag f) := by
  have unnamed : (g.withFlag f).rom? = g.rom? := by
    cases f <;> rfl
  refine ⟨_, ?_, of_settled _⟩
  have raised : orStop (g.raise f) = .ok (g.withFlag f) :=
    congrArg orStop (Given.raise_of_down down)
  rw [Scan.flag, unnamed]
  exact Except.bind_eq_ok.mpr ⟨_, amounts, Except.bind_eq_ok.mpr ⟨_, raised, rfl⟩⟩

/-- The letter of a setting adds it to what the scan amounts to. -/
theorem of_lettered {letters : String} {more : List String} (amounts : s.Amounts g)
    (fresh : g.value? setting = none) (lettered : setting.Lettered value letters more) :
    ∃ s', (s.letters letters.toList >>= fun s => more.foldlM step s) = .ok s' ∧
      s'.Amounts (g.put setting value) := by
  cases lettered with
  | @separate text c letter writes =>
      rw [toList_toString, letters_alone s letter]
      simp only [foldlM_one]
      exact amounts.await fresh writes
  | @joined text c letter writes =>
      rw [toList_toString_joined, letters_value s letter (List.cons_ne_nil _ _), dropEquals,
        String.ofList_toList]
      simp only [List.foldlM_nil, bind_pure]
      exact amounts.attached fresh writes
  | @attached text c letter writes =>
      obtain ⟨d, rest, spelled, -⟩ := writes.plain
      have present : text.toList ≠ [] := by
        rw [spelled]
        exact List.cons_ne_nil d rest
      rw [toList_toString_append, letters_value s letter present,
        dropEquals_of_writes letter writes, String.ofList_toList]
      simp only [List.foldlM_nil, bind_pure]
      exact amounts.attached fresh writes

/-- The arguments of an item add it to what the scan amounts to. -/
theorem of_spelled {item : Item} {arguments : List String} (amounts : s.Amounts g)
    (accepts : g.Accepts item) (spelled : item.Spelled arguments) :
    ∃ s', arguments.foldlM step s = .ok s' ∧ s'.Amounts (g.insert item) := by
  have unended := amounts.unended
  cases spelled with
  | program plain =>
      rw [foldlM_one, step_of_plain unended plain]
      exact amounts.plain_program accepts plain
  | @separate setting value text writes =>
      have shape : ("--" ++ setting.name).toList = '-' :: '-' :: setting.name.toList :=
        String.toList_append
      have named : setting.name.toList ≠ [] := by
        cases setting <;> decide
      rw [foldlM_two, step_of_long unended named shape, long_name]
      exact amounts.await accepts writes
  | @joined setting value text writes =>
      have shape : ("--" ++ setting.name ++ "=" ++ text).toList =
          '-' :: '-' :: (setting.name.toList ++ '=' :: text.toList) := by
        simp [String.toList_append]
      rw [foldlM_one, step_of_long unended (by simp) shape, long_joined]
      exact amounts.attached accepts writes
  | @lettered setting value letters more lettered =>
      rw [List.foldlM_cons, step_of_letters unended (plain_of_lettered lettered)]
      exact amounts.of_lettered accepts lettered
  | flag f =>
      have shape : ("--" ++ f.name).toList = '-' :: '-' :: f.name.toList := String.toList_append
      have named : f.name.toList ≠ [] := by
        cases f <;> decide
      rw [foldlM_one, step_of_long unended named shape, long_flag]
      exact amounts.flag accepts
  | flagLetter =>
      rw [foldlM_one, step_debug unended]
      exact amounts.flag accepts

end Amounts

/-- While a command line is read, the scan amounts to what the items so far give. -/
theorem amounts_of_written {items : List Item} {arguments : List String}
    (written : Written items arguments) (once : Once items) :
    ∃ s, arguments.foldlM step {} = .ok s ∧ s.Amounts (collect items) := by
  induction written with
  | nil => exact ⟨{}, rfl, rfl⟩
  | @snoc items arguments item more written spelled inductionHypothesis =>
      obtain ⟨s, scanned, amounts⟩ := inductionHypothesis once.of_concat
      obtain ⟨s', scannedMore, amountsMore⟩ := amounts.of_spelled once.accepts spelled
      rw [List.foldlM_append, collect_concat]
      exact ⟨s', Except.bind_eq_ok.mpr ⟨s, scanned, scannedMore⟩, amountsMore⟩
  | @together items arguments setting value letters more written lettered inductionHypothesis =>
      obtain ⟨s, scanned, amounts⟩ := inductionHypothesis once.of_concat.of_concat
      obtain ⟨s₁, raised, amountsFlag⟩ := amounts.flag (f := .debug) once.of_concat.accepts
      have concat : collect (items ++ [.flag .debug]) = (collect items).withFlag .debug :=
        collect_concat _ _
      rw [← concat] at amountsFlag
      obtain ⟨s₂, scannedMore, amountsMore⟩ := amountsFlag.of_lettered once.accepts lettered
      rw [List.foldlM_append, collect_concat]
      refine ⟨s₂, Except.bind_eq_ok.mpr ⟨s, scanned, ?_⟩, amountsMore⟩
      rw [List.foldlM_cons, step_together amounts.unended, bind_assoc]
      exact Except.bind_eq_ok.mpr ⟨s₁, raised, scannedMore⟩

end Scan

/-- A record is read back from every command line that writes it. Let a record have a program, and
    whatever settings, keys and flags; its paths are not empty and do not begin with a dash. Every
    order of its items can be written. And whatever the order, the lists over which the keys are
    spread, and the spelling of each item, with numbers in decimal, keys and colours in hexadecimal
    digits and every other value as it is, the record is read back, and what it does not have is as
    usual. -/
theorem command_line_round_trip {g : Given} {rom : String} (named : g.rom? = some rom)
    (plain : g.PlainPaths) :
    (∀ items, items.Perm g.items → Arranges items g ∧ ∃ arguments, Written items arguments) ∧
    ∀ items arguments, Arranges items g → Written items arguments →
      parse arguments = .ok {
        rom
        font? := g.font?
        mode? := g.mode?
        ips := g.ips?.getD 700
        cycles := g.cycles?.getD 3000
        turbo := g.turbo
        hold := g.hold
        seed? := g.seed?
        disassemble := g.disassemble
        ppm? := g.ppm?
        background? := g.background?
        foreground? := g.foreground?
        debug := g.debug } := by
  constructor
  · intro items perm
    have writable : ∀ item ∈ items, item.Writable :=
      fun item member => plain.writable item (perm.mem_iff.mp member)
    exact ⟨Given.arranges_of_perm perm, exists_written writable⟩
  · intro items arguments arranges written
    obtain ⟨s, scanned, amounts⟩ := Scan.amounts_of_written written arranges.once
    rw [arranges.collect_eq] at amounts
    refine Except.bind_eq_ok.mpr ⟨s, scanned, ?_⟩
    refine Except.bind_eq_ok.mpr ⟨_, amounts, ?_⟩
    simp only [Given.options, named]
    rfl

/-- A record with the greatest number of cycles, three keys, a mode, a colour and two flags. -/
def busyRecord : Given :=
  { rom? := some "pong.ch8", mode? := some .superChip, ips? := some 60
    cycles? := some 18446744073709551615, turbo := true
    hold := [lowNibble 1, lowNibble 12, lowNibble 15]
    foreground? := some ⟨0x10, 0xFF, 0x20⟩, debug := true }

/-- It is read back from a command line that spells its items in different ways and spreads its keys
    over two lists. -/
theorem command_line_round_trip_busyRecord :
    parse ["--hold", "1,C", "-di=60", "--foreground=0x10fF20", "pong.ch8", "--mode", "super-chip",
        "-c18446744073709551615", "--hold=f", "--turbo"] =
      .ok { rom := "pong.ch8", mode? := some .superChip, ips := 60
            cycles := 18446744073709551615, turbo := true
            hold := [lowNibble 1, lowNibble 12, lowNibble 15]
            foreground? := some ⟨0x10, 0xFF, 0x20⟩, debug := true } := by
  have plain : busyRecord.PlainPaths := by
    constructor
    case program =>
      rintro path ⟨⟩
      exact ⟨_, _, rfl, by decide⟩
    case font => nofun
    case picture => nofun
  have path : Plain "pong.ch8" := plain.program _ rfl
  have keys : Setting.Writes .hold [lowNibble 1, lowNibble 12] "1,C" :=
    ⟨nofun, ['1', 'C'], .cons (.inl rfl) (.cons (.inr rfl) .nil), rfl⟩
  have rate : Setting.Writes .ips 60 "60" := rfl
  have colour : Setting.Writes .foreground ⟨0x10, 0xFF, 0x20⟩ "0x10fF20" :=
    ⟨'1', '0', 'f', 'F', '2', '0', rfl, ⟨.inl rfl, .inl rfl⟩, ⟨.inl rfl, .inr rfl⟩,
      ⟨.inl rfl, .inl rfl⟩⟩
  have mode : Setting.Writes .mode .superChip "super-chip" := rfl
  have count : Setting.Writes .cycles 18446744073709551615 "18446744073709551615" := rfl
  have lastKey : Setting.Writes .hold [lowNibble 15] "f" := ⟨nofun, ['f'], .cons (.inl rfl) .nil, rfl⟩
  have written := Written.nil
    |>.snoc (.separate keys) |>.together (.joined rfl rate) |>.snoc (.joined colour)
    |>.snoc (.program path) |>.snoc (.separate mode) |>.snoc (.lettered (.attached rfl count))
    |>.snoc (.joined lastKey) |>.snoc (.flag .turbo)
  obtain ⟨-, parsed⟩ := command_line_round_trip (g := busyRecord) rfl plain
  refine parsed _ _ ?_ written
  constructor
  case program => rfl
  case settings =>
    intro s single
    cases s with
    | hold => exact absurd rfl single
    | _ => rfl
  case hold => rfl
  case flags =>
    intro f
    cases f <;> rfl

end ChipEight.CommandLine
