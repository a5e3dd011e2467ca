/-
Module: ChipEight.Proofs.ToneEvents
Purpose: When the tone begins and ends. A cycle reports the tone if it leaves the tone otherwise
  than it found it; what becomes of the sound timer within the cycle is not told. So the reports of
  a run are the changes of a signal: they alternate, and the last one tells whether the tone is on.
  A tone that an instruction starts is over with the first cycle by which as many ticks were due as
  the sound timer was set to, unless the timer is set again before.
Main exports: changes, Log.Line.tone?, Log.Line.tone?_eq_some_iff, Log.tones, Log.leavesTone,
  Playback.toneEvents_flatMap_eventsAt, Pacing.FirstDue, Playback.toneOn_atCycle_of_set,
  Playback.mem_changes_of_set, Playback.TonedBy, CommandLine.tones_follow_sound_timer
-/
import ChipEight.Proofs.Countdown
import ChipEight.Proofs.RunSummary

namespace ChipEight

/-! ### Changes of a signal -/

/-- The places before `n` at which a signal changes, each with what it changes to. -/
def changes (signal : Nat → Bool) (n : Nat) : List (Nat × Bool) :=
  (List.range n).filterMap fun k =>
    if signal (k + 1) = signal k then none else some (k, signal (k + 1))

section

variable {signal : Nat → Bool} {i k n : Nat} {on : Bool}

theorem changes_succ (signal : Nat → Bool) (n : Nat) :
    changes signal (n + 1) =
      changes signal n ++ if signal (n + 1) = signal n then [] else [(n, signal (n + 1))] := by
  rw [changes, List.range_succ, List.filterMap_append]
  by_cases same : signal (n + 1) = signal n
  · simp [changes, same]
  · simp [changes, same]

theorem mem_changes :
    (k, on) ∈ changes signal n ↔ k < n ∧ signal k = !on ∧ signal (k + 1) = on := by
  simp only [changes, List.mem_filterMap, List.mem_range, Option.ite_none_left_eq_some,
    Option.some.injEq, Prod.mk.injEq]
  constructor
  · rintro ⟨j, within, changed, rfl, rfl⟩
    exact ⟨within, (Bool.eq_not.mpr (Ne.symm changed)), rfl⟩
  · rintro ⟨within, before, behind⟩
    refine ⟨k, within, ?_, rfl, behind⟩
    simp [before, behind]

/-- The changes are listed in their order, and no place is listed twice. -/
theorem pairwise_changes (signal : Nat → Bool) (n : Nat) :
    (changes signal n).Pairwise fun a b => a.1 < b.1 := by
  apply List.Pairwise.filterMap _ _ List.pairwise_lt_range
  intro j k order a listed b listed'
  simp only [Option.ite_none_left_eq_some, Option.some.injEq] at listed listed'
  obtain ⟨-, rfl⟩ := listed
  obtain ⟨-, rfl⟩ := listed'
  exact order

theorem not_odd (n : Nat) : (!decide (n % 2 = 1)) = decide (n % 2 = 0) := by
  rcases Nat.mod_two_eq_zero_or_one n with even | odd
  · simp [even]
  · simp [odd]

/-- A signal that begins low is high behind an odd number of changes. -/
theorem eq_odd_length_changes (low : signal 0 = false) (n : Nat) :
    signal n = decide ((changes signal n).length % 2 = 1) := by
  induction n with
  | zero => exact low
  | succ n inductionHypothesis =>
      rw [changes_succ]
      by_cases same : signal (n + 1) = signal n
      · simpa [same] using inductionHypothesis
      · have flipped : signal (n + 1) = !signal n := Bool.eq_not.mpr same
        rw [if_neg same, List.length_append, List.length_singleton, flipped, inductionHypothesis,
          not_odd, decide_eq_decide]
        omega

/-- A signal that begins low goes up first, and then down and up in turns. -/
theorem map_snd_changes (low : signal 0 = false) (n : Nat) :
    (changes signal n).map Prod.snd =
      (List.range (changes signal n).length).map fun i => decide (i % 2 = 0) := by
  induction n with
  | zero => rfl
  | succ n inductionHypothesis =>
      rw [changes_succ]
      by_cases same : signal (n + 1) = signal n
      · simpa [same] using inductionHypothesis
      · have flipped : signal (n + 1) = !signal n := Bool.eq_not.mpr same
        rw [if_neg same, List.map_append, inductionHypothesis, List.length_append,
          List.length_singleton, List.range_succ, List.map_append, List.map_singleton,
          List.map_singleton, flipped, eq_odd_length_changes low n, not_odd]

theorem eq_of_getElem?_changes (low : signal 0 = false)
    (listed : (changes signal n)[i]? = some (k, on)) : on = decide (i % 2 = 0) := by
  obtain ⟨inside, found⟩ := List.getElem?_eq_some_iff.mp listed
  have direction := congrArg (fun directions => directions[i]?) (map_snd_changes low n)
  simpa [inside, found] using direction

/-- The last change tells what the signal is. -/
theorem getLast?_changes (low : signal 0 = false) (n : Nat) :
    (changes signal n).getLast?.any Prod.snd = signal n := by
  induction n with
  | zero => simp [changes, low]
  | succ n inductionHypothesis =>
      rw [changes_succ]
      by_cases same : signal (n + 1) = signal n
      · simpa [same] using inductionHypothesis
      · simp [same]

end

namespace Log

variable {level : Level} {k : Nat} {on : Bool}

/-! ### Tone events -/

/-- The cycle in which the tone began or ended, if the event tells of one, and which of the two. -/
def Event.tone? : Event → Option (Nat × Bool)
  | .tone cycle on => some (cycle, on)
  | _ => none

/-- The changes of the tone that events tell of. -/
def toneEvents (events : List Event) : List (Nat × Bool) := events.filterMap Event.tone?

theorem toneEvents_append (events later : List Event) :
    toneEvents (events ++ later) = toneEvents events ++ toneEvents later :=
  List.filterMap_append

/-- Tone events are information, so that a log that shows information shows them all. -/
theorem toneEvents_shown (informs : Level.info.rank ≤ level.rank) (events : List Event) :
    toneEvents (shown (some level) events) = toneEvents events := by
  rw [toneEvents, shown, List.filterMap_filter]
  apply List.filterMap_congr
  intro e _
  cases e with
  | tone cycle on => simp [Event.passes, Event.level, informs]
  | _ => simp [Event.tone?]

/-! ### Tone lines -/

/-- The number that the digits of a line write, wherever they stand. -/
def Line.number (l : Line) : Nat := Nat.ofDigitChars 10 (l.text.toList.filter Char.isDigit) 0

/-- The cycle and the state that a line tells of, if it is one of the tone. -/
def Line.tone? (l : Line) : Option (Nat × Bool) :=
  if l = toneLine l.number true then some (l.number, true)
  else if l = toneLine l.number false then some (l.number, false)
  else none

/-- The changes of the tone that the lines of a log tell of. -/
def tones (log : List Line) : List (Nat × Bool) := log.filterMap Line.tone?

/-- The last line of the tone says that it is on; without one it is off. -/
def leavesTone (log : List Line) : Bool := (tones log).getLast?.any Prod.snd

/-- The only digits of a line of the tone are those of the cycle. -/
theorem number_toneLine (k : Nat) (on : Bool) : (toneLine k on).number = k := by
  have digits : (Nat.toDigits 10 k).filter Char.isDigit = Nat.toDigits 10 k :=
    List.filter_eq_self.mpr fun _ => Nat.isDigit_of_mem_toDigits (by decide) (by decide)
  have front : "cycle ".toList.filter Char.isDigit = [] := by decide
  have middle : ": tone ".toList.filter Char.isDigit = [] := by decide
  have back : (if on then "on" else "off").toList.filter Char.isDigit = [] := by
    cases on <;> decide
  simp only [Line.number, toneLine, String.toList_append, List.filter_append, Nat.toString_eq_repr,
    Nat.toList_repr, front, middle, back, digits, List.nil_append, List.append_nil,
    Nat.ofDigitChars_ten_toDigits]

/-- A line tells of the tone exactly if it has the text for it. -/
theorem Line.tone?_eq_some_iff {l : Line} : l.tone? = some (k, on) ↔ l = toneLine k on := by
  constructor
  · intro told
    rw [Line.tone?] at told
    split at told
    case isTrue begins =>
      cases told
      exact begins
    case isFalse =>
      split at told
      case isTrue ends =>
        cases told
        exact ends
      case isFalse => cases told
  · rintro rfl
    rw [Line.tone?, number_toneLine]
    cases on with
    | true => exact if_pos rfl
    | false =>
        have other : toneLine k false ≠ toneLine k true := fun same => nomatch (toneLine_inj same).2
        rw [if_neg other, if_pos rfl]

/-- The line of an event tells of the tone what the event does. -/
theorem Event.tone?_line (e : Event) : e.line.tone? = e.tone? := by
  apply Option.ext
  rintro ⟨k, on⟩
  rw [Line.tone?_eq_some_iff]
  constructor
  · intro told
    have same : Event.tone k on = e :=
      eq_of_line_eq (by decide : Level.info.rank ≤ Level.info.rank) told.symm
    rw [← same, Event.tone?]
  · intro told
    cases e with
    | tone =>
        cases told
        exact Event.line_eq _
    | _ => cases told

theorem tones_map_line (events : List Event) :
    tones (events.map Event.line) = toneEvents events := by
  rw [tones, List.filterMap_map]
  exact List.filterMap_congr fun e _ => e.tone?_line

/-- The changes that a log tells of are its lines of the tone. -/
theorem mem_tones {log : List Line} : (k, on) ∈ tones log ↔ toneLine k on ∈ log := by
  simp [tones, Line.tone?_eq_some_iff]

end Log

namespace Playback

variable {rate k n : Nat} {p : Playback}

/-- What is noted of the tone at the end of a cycle is whether the sound timer is above zero. -/
theorem toneOn_atCycle_succ (rate : Nat) (p : Playback) (k : Nat) :
    (p.atCycle rate (k + 1)).toneOn =
      decide (0 < (Timer.sound.value (p.atCycle rate (k + 1)).interpreter.machine).toNat) := by
  have noted : (p.atCycle rate (k + 1)).toneOn =
      (p.atCycle rate (k + 1)).interpreter.machine.soundsTone := by
    rw [atCycle, play_add]
    rfl
  rw [noted, Machine.soundsTone, Timer.value, Bool.eq_iff_iff]
  simp [Nat.pos_iff_ne_zero, ← UInt8.toNat_inj]

theorem toneEvents_eventsAt (rate : Nat) (p : Playback) (k : Nat) :
    Log.toneEvents (p.eventsAt rate k) =
      if (p.atCycle rate (k + 1)).toneOn = (p.atCycle rate k).toneOn then []
      else [(k, (p.atCycle rate (k + 1)).toneOn)] := by
  have announced (m : Machine) : Log.toneEvents (announcement m) = [] := by
    rw [announcement]
    split <;> rfl
  have reported : Log.toneEvents (report k (p.outcomeAt rate k)) = [] := by
    cases p.outcomeAt rate k <;> rfl
  have left : (p.ready rate k).step.2.machine.soundsTone = (p.atCycle rate (k + 1)).toneOn := by
    rw [atCycle, play_add, Nat.zero_add]
    rfl
  rw [eventsAt, Log.toneEvents_append, Log.toneEvents_append, announced, reported, left, toneReport]
  split <;> rfl

/-- The tone events of the cycles of a run are the changes of the tone. -/
theorem toneEvents_flatMap_eventsAt (rate : Nat) (p : Playback) (n : Nat) :
    Log.toneEvents ((List.range n).flatMap (p.eventsAt rate)) =
      changes (fun k => (p.atCycle rate k).toneOn) n := by
  induction n with
  | zero => rfl
  | succ n inductionHypothesis =>
      rw [List.range_succ, List.flatMap_append, List.flatMap_singleton,
        Log.toneEvents_append, inductionHypothesis, toneEvents_eventsAt, changes_succ]

end Playback

/-! ### The end of a tone -/

namespace Pacing

variable {rate c d e v : Nat}

/-- How many ticks are due behind cycle `c`, up to cycle `d`. -/
def ticksBetween (rate c d : Nat) : Nat := 60 * (d + 1) / rate - 60 * (c + 1) / rate

theorem ticksBetween_eq (rate c d : Nat) :
    ticksBetween rate c d = ticksBefore rate (d + 1) - ticksBefore rate (c + 1) := by
  rw [ticksBetween, Nat.mul_comm 60, Nat.mul_comm 60]
  rfl

@[simp] theorem ticksBetween_self (rate c : Nat) : ticksBetween rate c c = 0 := Nat.sub_self _

theorem ticksBetween_mono (rate c : Nat) (le : d ≤ e) :
    ticksBetween rate c d ≤ ticksBetween rate c e := by
  apply Nat.sub_le_sub_right
  apply Nat.div_le_div_right
  omega

/-- Cycle `d` is the first one behind cycle `c` by which `v` ticks were due in between. -/
structure FirstDue (rate c v d : Nat) : Prop where
  due : v ≤ ticksBetween rate c d
  before : ∀ e, c < e → e < d → ticksBetween rate c e < v

/-- What counts is the cycle right before: ticks only add up. -/
theorem firstDue_succ_iff (positive : 1 ≤ v) (le : c ≤ d) :
    FirstDue rate c v (d + 1) ↔ v ≤ ticksBetween rate c (d + 1) ∧ ticksBetween rate c d < v := by
  constructor
  · intro first
    refine ⟨first.due, ?_⟩
    rcases Nat.eq_or_lt_of_le le with rfl | later
    · rw [ticksBetween_self]
      exact positive
    · exact first.before d later (Nat.lt_succ_self d)
  · rintro ⟨due, short⟩
    refine ⟨due, fun e _ earlier => ?_⟩
    exact Nat.lt_of_le_of_lt (ticksBetween_mono rate c (Nat.le_of_lt_succ earlier)) short

end Pacing

namespace Playback

variable {rate c d n : Nat} {p : Playback} {timer : Timer} {x : Nibble} {on : Bool}

/-- A timer that is set in a cycle, and not again, has lost at the end of a later one the ticks in
    between. -/
theorem toNat_value_atCycle (sets : (p.outcomeAt rate c).timerSource? timer = some x) (le : c ≤ d)
    (alone : ∀ k, c < k → k ≤ d → (p.outcomeAt rate k).timerSource? timer = none) :
    (timer.value (p.atCycle rate (d + 1)).interpreter.machine).toNat =
      ((p.ready rate c).machine.register x).toNat - Pacing.ticksBetween rate c d := by
  have set : timer.value (p.ready rate c).step.2.machine = (p.ready rate c).machine.register x := by
    rw [outcomeAt] at sets
    rw [Interpreter.value_step, sets]
    rfl
  -- The frame that a cycle takes is no part of a timer.
  have kept : timer.value (p.atCycle rate (d + 1)).interpreter.machine =
      timer.value (p.ready rate d).step.2.machine := by
    rw [interpreter_atCycle_succ]
    cases timer <;> rfl
  rw [kept]
  rcases Nat.eq_or_lt_of_le le with rfl | later
  · simp [set]
  · have untouched := alone d later (Nat.le_refl d)
    rw [outcomeAt] at untouched
    rw [Interpreter.value_step, untouched, Option.map_none, Option.getD_none,
      toNat_value_ready later fun k above below => alone k above (Nat.le_of_lt below), set,
      Pacing.ticksBetween_eq]

/-- While the sound timer is not set again, the tone stays on until the ticks have used it up. -/
theorem toneOn_atCycle_of_set (sets : (p.outcomeAt rate c).timerSource? .sound = some x)
    (alone : ∀ k, c < k → k < n → (p.outcomeAt rate k).timerSource? .sound = none) (le : c ≤ d)
    (within : d < n) :
    (p.atCycle rate (d + 1)).toneOn =
      decide (Pacing.ticksBetween rate c d < ((p.ready rate c).machine.register x).toNat) := by
  have left := toNat_value_atCycle sets le fun k above below =>
    alone k above (Nat.lt_of_le_of_lt below within)
  rw [toneOn_atCycle_succ, left, decide_eq_decide]
  exact Nat.sub_pos_iff_lt

/-- Behind a cycle that sets the sound timer for the last time, the tone changes once: it ends with
    the first cycle by which the ticks have used the timer up. -/
theorem mem_changes_of_set (sets : (p.outcomeAt rate c).timerSource? .sound = some x)
    (positive : 1 ≤ ((p.ready rate c).machine.register x).toNat)
    (alone : ∀ k, c < k → k < n → (p.outcomeAt rate k).timerSource? .sound = none)
    (later : c < d) :
    (d, on) ∈ changes (fun k => (p.atCycle rate k).toneOn) n ↔
      on = false ∧ d < n ∧
        Pacing.FirstDue rate c ((p.ready rate c).machine.register x).toNat d := by
  obtain ⟨e, rfl⟩ := Nat.exists_eq_add_of_lt later
  have le : c ≤ c + e := Nat.le_add_right c e
  have grown := Pacing.ticksBetween_mono rate c (Nat.le_succ (c + e))
  rw [mem_changes, Pacing.firstDue_succ_iff positive le]
  constructor
  · rintro ⟨within, before, behind⟩
    rw [toneOn_atCycle_of_set sets alone le (Nat.lt_of_succ_lt within)] at before
    rw [toneOn_atCycle_of_set sets alone (Nat.le_succ_of_le le) within] at behind
    cases on with
    | false =>
        have short := of_decide_eq_true before
        have due := Nat.le_of_not_lt (of_decide_eq_false behind)
        exact ⟨rfl, within, due, short⟩
    | true =>
        -- The tone cannot begin: ticks only add up.
        have due := Nat.le_of_not_lt (of_decide_eq_false before)
        have short := of_decide_eq_true behind
        exact absurd (Nat.le_trans due grown) (Nat.not_le_of_lt short)
  · rintro ⟨rfl, within, due, short⟩
    refine ⟨within, ?_, ?_⟩
    · rw [toneOn_atCycle_of_set sets alone le (Nat.lt_of_succ_lt within)]
      simpa using short
    · rw [toneOn_atCycle_of_set sets alone (Nat.le_succ_of_le le) within]
      simpa using due

/-- The lines that are logged by the end of cycle number `k`. -/
def logBy (rate : Nat) (p : Playback) (level : Log.Level) (k : Nat) : List Log.Line :=
  (Log.shown (some level) (p.atCycle rate (k + 1)).events.reverse).map Log.Event.line

/-- What the lines of a log tell of the tone in the first `n` cycles of a run. The tone begins and ends
    in turns, with a beginning first, and in cycles that go up. What is logged by the end of a cycle
    leaves the tone on if the sound timer is above zero then, and off if it is not. And behind the
    last cycle that sets the sound timer, if it is not to zero, the tone ends in the first cycle by
    which the ticks have used it up, and nothing else is told of it. -/
structure TonedBy (rate : Nat) (p : Playback) (n : Nat) (level : Log.Level)
    (log : List Log.Line) : Prop where
  alternating : ∀ i k on, (Log.tones log)[i]? = some (k, on) → on = decide (i % 2 = 0)
  ascending : (Log.tones log).Pairwise fun a b => a.1 < b.1
  soFar : ∀ k < n, p.logBy rate level k <+: log
  timer : ∀ k < n, (Log.leavesTone (p.logBy rate level k) = true ↔
    0 < (Timer.sound.value (p.atCycle rate (k + 1)).interpreter.machine).toNat)
  ending : ∀ c x, c < n → p.outcomeAt rate c = .executed (.setSound x) →
    1 ≤ ((p.ready rate c).machine.register x).toNat →
    (∀ k z, c < k → k < n → p.outcomeAt rate k ≠ .executed (.setSound z)) →
    ∀ d on, c < d → ((d, on) ∈ Log.tones log ↔ on = false ∧ d < n ∧
      Pacing.FirstDue rate c ((p.ready rate c).machine.register x).toNat d)

end Playback

namespace CommandLine

variable {σ : Type} {o : Options} {c : Interpreter} {level : Log.Level}

/-- The tone events of a run are the changes of the tone. -/
theorem Options.toneEvents_atCycle (o : Options) (c : Interpreter) (rate n : Nat) :
    Log.toneEvents ((o.begun c).atCycle rate n).events.reverse =
      changes (fun k => ((o.begun c).atCycle rate k).toneOn) n := by
  rw [Playback.events_atCycle, Log.toneEvents_append, Playback.toneEvents_flatMap_eventsAt]
  rfl

/-- What was logged by the end of a cycle stays in front of what is logged later. -/
theorem Options.events_prefix (o : Options) (c : Interpreter) (rate : Nat) {k n : Nat}
    (le : k ≤ n) :
    ((o.begun c).atCycle rate k).events.reverse <+:
      ((o.begun c).atCycle rate n).events.reverse := by
  obtain ⟨m, rfl⟩ := Nat.exists_eq_add_of_le le
  rw [Playback.events_atCycle, Playback.events_atCycle, List.range_add, List.flatMap_append,
    ← List.append_assoc]
  exact List.prefix_append _ _

/-- A log that shows information tells of the tone of the run that it is a log of. -/
theorem Options.tonedBy_shown (o : Options) (c : Interpreter)
    (informs : Log.Level.info.rank ≤ level.rank) :
    (o.begun c).TonedBy o.ips.toNat o.cycles.toNat level
      ((Log.shown (some level) (o.events (o.play c))).map Log.Event.line) := by
  have low : ((o.begun c).atCycle o.ips.toNat 0).toneOn = false := rfl
  have told : Log.tones ((Log.shown (some level) (o.events (o.play c))).map Log.Event.line) =
      changes (fun k => ((o.begun c).atCycle o.ips.toNat k).toneOn) o.cycles.toNat := by
    rw [Log.tones_map_line, Log.toneEvents_shown informs, events, play_eq_atCycle,
      Log.toneEvents_append, toneEvents_atCycle]
    exact List.append_nil _
  constructor
  case alternating =>
    intro i k on listed
    rw [told] at listed
    exact eq_of_getElem?_changes low listed
  case ascending =>
    rw [told]
    exact pairwise_changes _ _
  case soFar =>
    intro k within
    apply List.IsPrefix.map
    apply List.IsPrefix.filter
    rw [events, play_eq_atCycle]
    exact (o.events_prefix c _ within).trans (List.prefix_append _ _)
  case timer =>
    intro k _
    rw [Log.leavesTone, Playback.logBy, Log.tones_map_line, Log.toneEvents_shown informs,
      toneEvents_atCycle, getLast?_changes low, Playback.toneOn_atCycle_succ, decide_eq_true_eq]
  case ending =>
    intro first x _ ran positive alone d on later
    have sets : ((o.begun c).outcomeAt o.ips.toNat first).timerSource? .sound = some x := by
      rw [ran]
      rfl
    have untouched : ∀ k, first < k → k < o.cycles.toNat →
        ((o.begun c).outcomeAt o.ips.toNat k).timerSource? .sound = none := by
      intro k above below
      exact Outcome.timerSource?_eq_none fun z => alone k z above below
    rw [told]
    exact Playback.mem_changes_of_set sets positive untouched later

/-- The tone follows the sound timer. For every command line, whatever reads and writes are answered,
    if they let a run begin, and whatever the program, the font, the dialect, the seed, the rate and
    the keys that are held: if information is logged, the lines `cycle k: tone on` and `cycle k:
    tone off` take turns, with `tone on` first, in cycles that go up, and at the end of every cycle
    the last one so far is `tone on` exactly if the sound timer is above zero. If a cycle `c` sets
    the sound timer to `v` of at least one, and no later cycle sets it, then `cycle d: tone off` is
    logged for the first cycle `d` behind `c` with `60 * (d + 1) / ips - 60 * (c + 1) / ips` of at
    least `v`, if the run gets there, and no other line of the tone behind `c`. The words of 64 bits
    that count the ticks of the run come out right. -/
theorem tones_follow_sound_timer {arguments : List String} (parsed : parse arguments = .ok o)
    (room : 60 * o.cycles.toNat < UInt64.size) {d : FileSystem σ} {t : σ}
    (clear : o.firstObstacle? d t = none) (unasked : o.disassemble = false)
    {threshold? : Option Log.Threshold} (logged : threshold?.getD o.threshold = some level)
    (informs : Log.Level.info.rank ≤ level.rank) (entropy : Cipher.Key) :
    ∃ image font? c, d.read t o.rom = .ok image ∧ o.FontRead d t font? ∧
      (o.setup image font?).build entropy = .ok c ∧
      (o.begun c).TonedBy o.ips.toNat o.cycles.toNat level
        ((program arguments threshold? entropy).runOn d t).1.log ∧
      ∀ k < o.cycles.toNat,
        (Pacing.wordTicksDue o.ips (UInt64.ofNat k)).toNat = Pacing.ticksDue o.ips.toNat k := by
  obtain ⟨image, font?, c, read, fonted, built, logs⟩ :=
    exists_log_of_clear parsed clear unasked threshold? entropy
  refine ⟨image, font?, c, read, fonted, built, ?_, ?_⟩
  · rw [logs, logged]
    exact o.tonedBy_shown c informs
  · intro k within
    exact Pacing.toNat_wordTicksDue o.ips (by omega)

/-- A program that sets the sound timer to one, sets it again, and stays where it is. -/
def restartedTone : List UInt8 := [0x60, 0x01, 0xF0, 0x18, 0xF0, 0x18, 0x12, 0x06]

/-- Five cycles of it, with one tick for each. -/
def fiveCycles : Options := { rom := "tone.ch8", cycles := 5, ips := 60, seed? := some 0 }

def restartedRun : Playback := fiveCycles.begun (Interpreter.ofProgram restartedTone)

/-- What is logged of them, from information on. -/
def restartedToneLog : List Log.Line :=
  ((program ["tone.ch8", "-c5", "-i60", "--seed", "0"] (some (some .info))
    (Vector.replicate 8 0)).runIn (.ofList [("tone.ch8", restartedTone)])).1.log

/-- The tick of cycle number two uses the timer up, and its step sets it again, so that the log
    tells nothing of it: by the end of that cycle it says that the tone is on. The tone ends in
    cycle number three, and nothing follows. -/
theorem tones_follow_sound_timer_restarted :
    ⟨.info, "cycle 3: tone off"⟩ ∈ restartedToneLog ∧
    (∀ d on, 2 < d → (d, on) ∈ Log.tones restartedToneLog → d < 4) ∧
    restartedRun.logBy 60 .info 2 <+: restartedToneLog ∧
    Log.leavesTone (restartedRun.logBy 60 .info 2) = true := by
  have parsed : parse ["tone.ch8", "-c5", "-i60", "--seed", "0"] = .ok fiveCycles := by
    decide +kernel
  have clear : fiveCycles.firstObstacle? FileTree.system (.ofList [("tone.ch8", restartedTone)]) =
      none := by
    decide +kernel
  have held : FileTree.read (.ofList [("tone.ch8", restartedTone)]) fiveCycles.rom =
      .ok restartedTone := by
    decide +kernel
  have logged : (some (some Log.Level.info)).getD fiveCycles.threshold = some .info := rfl
  obtain ⟨image, font?, c, read, fonted, built, toned, -⟩ :=
    tones_follow_sound_timer parsed (by decide) clear rfl logged (by decide) (Vector.replicate 8 0)
  cases held.symm.trans read
  obtain rfl : font? = none := by
    cases fonted with
    | unnamed => rfl
    | read named => cases named
  have made := Interpreter.build_ofProgram restartedTone (Vector.replicate 8 0) (by decide)
  obtain rfl : Interpreter.ofProgram _ = c := Except.ok.inj (made.symm.trans built)
  have told : restartedRun.TonedBy 60 5 .info restartedToneLog := toned
  obtain ⟨one, sets, jumps, again, sounds⟩ :
      ((restartedRun.ready 60 2).machine.register 0).toNat = 1 ∧
      restartedRun.outcomeAt 60 2 = .executed (.setSound 0) ∧
      restartedRun.outcomeAt 60 3 = .executed (.jump (lowAddress 0x206)) ∧
      restartedRun.outcomeAt 60 4 = .executed (.jump (lowAddress 0x206)) ∧
      0 < (Timer.sound.value (restartedRun.atCycle 60 (2 + 1)).interpreter.machine).toNat := by
    decide +kernel
  have alone : ∀ k z, 2 < k → k < 5 → restartedRun.outcomeAt 60 k ≠ .executed (.setSound z) := by
    intro k z above below
    have between : k = 3 ∨ k = 4 := by omega
    rcases between with rfl | rfl
    · simp [jumps]
    · simp [again]
  have ends := told.ending 2 0 (by decide) sets (Nat.le_of_eq one.symm) alone
  rw [one] at ends
  have first : Pacing.FirstDue 60 2 1 3 := ⟨by decide, by omega⟩
  refine ⟨Log.mem_tones.mp ((ends 3 false (by decide)).mpr ⟨rfl, by decide, first⟩), ?_, ?_⟩
  · intro d on later listed
    obtain ⟨-, -, due⟩ := (ends d on later).mp listed
    by_contra behind
    have short : Pacing.ticksBetween 60 2 3 < 1 := due.before 3 (by decide) (by omega)
    exact absurd short (by decide)
  · exact ⟨told.soFar 2 (by decide), (told.timer 2 (by decide)).mpr sounds⟩

end CommandLine

end ChipEight
