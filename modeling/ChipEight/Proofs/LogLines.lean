/-
Module: ChipEight.Proofs.LogLines
Purpose: What the lines of a log say. Every event has its text, and a warning or a piece of
  information tells by its line alone which event it was: the cycle, the counts and the fault can all
  be read off it.
Main exports: Fault.message_inj, Log.faultLine, Log.faultAtLine, Log.toneLine, Log.summaryLine,
  Log.Event.line_eq, Log.Event.eq_of_line_eq, Log.mem_of_line_mem, Log.linesAt,
  Log.linesAt_map_line
-/
import ChipEight.CommandLine.Log
import ChipEight.Proofs.Numerals

namespace ChipEight

/-! ### Faults -/

theorem addressText_inj {a b : UInt16} (same : addressText a.toNat = addressText b.toNat) :
    a = b := by
  rw [addressText, addressText, String.append_right_inj] at same
  exact UInt16.toNat_inj.mp (Numeral.hex_inj same)

namespace Fault

variable {f g : Fault} {front middle back : String} {opcode opcode' a b : UInt16}

/-- The two characters that the text of a fault begins with. -/
def initials : Fault → List Char
  | .unknownOpcode _ _ => ['u', 'n']
  | .stackOverflow _ => ['c', 'a']
  | .stackUnderflow _ => ['r', 'e']

theorem take_two_message (f : Fault) : f.message.toList.take 2 = f.initials := by
  cases f with
  | unknownOpcode opcode address =>
      change ("unknown opcode 0x" ++ Numeral.hex 4 opcode.toNat ++ " at " ++
        addressText address.toNat).toList.take 2 = _
      simp only [String.toList_append]
      rfl
  | stackOverflow address =>
      change ("call at " ++ addressText address.toNat ++ " with a full stack").toList.take 2 = _
      simp only [String.toList_append]
      rfl
  | stackUnderflow address =>
      change ("return at " ++ addressText address.toNat ++ " with an empty stack").toList.take 2 = _
      simp only [String.toList_append]
      rfl

theorem eq_of_text_between
    (same : front ++ addressText a.toNat ++ back = front ++ addressText b.toNat ++ back) : a = b := by
  rw [String.append_left_inj, String.append_right_inj] at same
  exact addressText_inj same

/-- Words have four digits each, so that the address begins at the same place. -/
theorem eq_of_text_behind
    (same : front ++ Numeral.hex 4 opcode.toNat ++ middle ++ addressText a.toNat =
      front ++ Numeral.hex 4 opcode'.toNat ++ middle ++ addressText b.toNat) :
    opcode = opcode' ∧ a = b := by
  simp only [String.append_assoc, String.append_right_inj] at same
  have texts := congrArg String.toList same
  simp only [String.toList_append] at texts
  have width (w : UInt16) : (Numeral.hex 4 w.toNat).toList.length = 4 :=
    Numeral.length_hex (by decide) w.toNat_lt
  have lengths : (Numeral.hex 4 opcode.toNat).toList.length =
      (Numeral.hex 4 opcode'.toNat).toList.length := by
    rw [width, width]
  obtain ⟨digits, behind⟩ := List.append_inj texts lengths
  have address := String.toList_inj.mp (List.append_cancel_left behind)
  have word := Numeral.hex_inj (String.toList_inj.mp digits)
  exact ⟨UInt16.toNat_inj.mp word, addressText_inj address⟩

/-- The text of a fault names it. -/
theorem message_inj (same : f.message = g.message) : f = g := by
  have initials : f.initials = g.initials := by
    rw [← take_two_message, ← take_two_message, same]
  cases f with
  | unknownOpcode opcode address =>
      cases g with
      | unknownOpcode opcode' address' =>
          obtain ⟨rfl, rfl⟩ := eq_of_text_behind same
          rfl
      | stackOverflow | stackUnderflow => cases initials
  | stackOverflow address =>
      cases g with
      | stackOverflow address' => rw [eq_of_text_between same]
      | unknownOpcode | stackUnderflow => cases initials
  | stackUnderflow address =>
      cases g with
      | stackUnderflow address' => rw [eq_of_text_between same]
      | unknownOpcode | stackOverflow => cases initials

end Fault

namespace Log

variable {k l frames frames' faults faults' : Nat} {f g : Fault} {on on' : Bool} {level : Level}

/-! ### Lines -/

/-- The line of a fault. -/
def faultLine (f : Fault) : Line := ⟨.warn, f.message⟩

/-- The line of a cycle whose step was a fault. -/
def faultAtLine (cycle : Nat) (f : Fault) : Line :=
  ⟨.warn, "cycle " ++ toString cycle ++ ": " ++ f.message⟩

/-- The line of a cycle in which the tone began or ended. -/
def toneLine (cycle : Nat) (on : Bool) : Line :=
  ⟨.info, "cycle " ++ toString cycle ++ ": tone " ++ if on then "on" else "off"⟩

/-- The line of a run that is over. -/
def summaryLine (cycles frames faults : Nat) : Line :=
  ⟨.info, "ran " ++ toString cycles ++ " instructions, " ++ toString frames ++ " frames, " ++
    toString faults ++ " faults"⟩

/-- The lines of all events. -/
theorem Event.line_eq (e : Event) : e.line =
    match e with
    | .loaded size => ⟨.debug, "loaded " ++ toString size ++ " byte program at 0x200"⟩
    | .built dialect => ⟨.debug, "built CHIP-8 with " ++ dialectText dialect⟩
    | .executing pc opcode i =>
      ⟨.trace, addressText pc.toNat ++ ": " ++ Numeral.hex 4 opcode.toNat ++ " " ++ i.mnemonic⟩
    | .fault f => faultLine f
    | .faultAt cycle f => faultAtLine cycle f
    | .tone cycle on => toneLine cycle on
    | .summary cycles frames faults => summaryLine cycles frames faults := by
  cases e <;> rfl

/-! ### What a line tells -/

theorem faultAtLine_inj (same : faultAtLine k f = faultAtLine l g) : k = l ∧ f = g := by
  have texts := congrArg Line.text same
  simp only [faultAtLine, String.append_assoc, String.append_right_inj] at texts
  obtain ⟨cycle, messages⟩ := Numeral.toString_append_inj ⟨':', _, rfl, rfl⟩ texts
  exact ⟨cycle, Fault.message_inj messages⟩

theorem toneLine_inj (same : toneLine k on = toneLine l on') : k = l ∧ on = on' := by
  have texts := congrArg Line.text same
  simp only [toneLine, String.append_assoc, String.append_right_inj] at texts
  obtain ⟨cycle, states⟩ := Numeral.toString_append_inj ⟨':', _, rfl, rfl⟩ texts
  have apart : ∀ on on' : Bool,
      (if on then "on" else "off") = (if on' then "on" else "off") → on = on' := by
    decide
  exact ⟨cycle, apart on on' states⟩

theorem summaryLine_inj (same : summaryLine k frames faults = summaryLine l frames' faults') :
    k = l ∧ frames = frames' ∧ faults = faults' := by
  have texts := congrArg Line.text same
  simp only [summaryLine, String.append_assoc, String.append_right_inj] at texts
  obtain ⟨cycles, texts⟩ := Numeral.toString_append_inj ⟨' ', _, rfl, rfl⟩ texts
  obtain ⟨frames, texts⟩ := Numeral.toString_append_inj ⟨' ', _, rfl, rfl⟩ texts
  have ending : toString faults ++ (" faults" ++ "") = toString faults' ++ (" faults" ++ "") := by
    rw [String.append_empty]
    exact texts
  exact ⟨cycles, frames, (Numeral.toString_append_inj ⟨' ', _, rfl, rfl⟩ ending).1⟩

/-- No fault begins like a cycle. -/
theorem faultLine_ne_faultAtLine : faultLine f ≠ faultAtLine k g := by
  intro same
  have initials : (faultAtLine k g).text.toList.take 2 = ['c', 'y'] := by
    simp only [faultAtLine, String.toList_append]
    rfl
  rw [← same, faultLine, Fault.take_two_message] at initials
  cases f <;> cases initials

theorem toneLine_ne_summaryLine : toneLine k on ≠ summaryLine l frames faults := by
  intro same
  have initials := congrArg (fun line => line.text.toList.take 2) same
  simp only [toneLine, summaryLine, String.toList_append] at initials
  cases initials

/-- The line of a warning or of a piece of information is that of no other event. -/
theorem Event.eq_of_line_eq {e e' : Event} (important : e.level.rank ≤ Level.info.rank)
    (same : e.line = e'.line) : e = e' := by
  have level : e.level = e'.level := congrArg Line.level same
  rw [line_eq, line_eq] at same
  cases e with
  | loaded | built => exact absurd important (by decide : ¬Level.debug.rank ≤ Level.info.rank)
  | executing => exact absurd important (by decide : ¬Level.trace.rank ≤ Level.info.rank)
  | fault f =>
      cases e' with
      | fault g => rw [Fault.message_inj (congrArg Line.text same)]
      | faultAt => exact absurd same faultLine_ne_faultAtLine
      | loaded | built | executing | tone | summary => cases level
  | faultAt k f =>
      cases e' with
      | fault => exact absurd same.symm faultLine_ne_faultAtLine
      | faultAt l g =>
          obtain ⟨rfl, rfl⟩ := faultAtLine_inj same
          rfl
      | loaded | built | executing | tone | summary => cases level
  | tone k on =>
      cases e' with
      | tone l on' =>
          obtain ⟨rfl, rfl⟩ := toneLine_inj same
          rfl
      | summary => exact absurd same toneLine_ne_summaryLine
      | loaded | built | executing | fault | faultAt => cases level
  | summary k frames faults =>
      cases e' with
      | tone => exact absurd same.symm toneLine_ne_summaryLine
      | summary l frames' faults' =>
          obtain ⟨rfl, rfl, rfl⟩ := summaryLine_inj same
          rfl
      | loaded | built | executing | fault | faultAt => cases level

/-- An event is among others if its line is among theirs. -/
theorem mem_of_line_mem {e : Event} {events : List Event}
    (important : e.level.rank ≤ Level.info.rank) (listed : e.line ∈ events.map Event.line) :
    e ∈ events := by
  obtain ⟨e', member, same⟩ := List.mem_map.mp listed
  rw [Event.eq_of_line_eq important same.symm]
  exact member

/-! ### Levels -/

/-- The lines of one level. -/
def linesAt (level : Level) (log : List Line) : List Line := log.filter fun l => l.level = level

/-- The events of one level. -/
def atLevel (level : Level) (events : List Event) : List Event :=
  events.filter fun e => e.level = level

theorem atLevel_append (level : Level) (events later : List Event) :
    atLevel level (events ++ later) = atLevel level events ++ atLevel level later :=
  List.filter_append _ _

/-- The lines of a level are those of the events of this level. -/
theorem linesAt_map_line (level : Level) (events : List Event) :
    linesAt level (events.map Event.line) = (atLevel level events).map Event.line :=
  List.filter_map

end Log

end ChipEight
