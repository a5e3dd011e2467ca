/-
Module: ChipEight.Proofs.RunSummary
Purpose: The log of a run. The events of a run are the events of its cycles in their order, with the
  summary behind them. The faults that the summary counts are the cycles whose step failed, and each of
  them left two warnings in the log, one behind the other. The frames that it counts are the cycles
  that drew, and the first one, which finds the dark screen of a fresh machine waiting to be shown.
  All this is said of the lines of the log, with their texts.
Main exports: Playback.outcomeAt, Playback.faulted, Playback.presented, Playback.eventsAt,
  Playback.events_atCycle, Playback.SummarizedBy, CommandLine.exists_log_of_clear,
  CommandLine.summary_is_exact
-/
import ChipEight.Proofs.Faults
import ChipEight.Proofs.FirstObstacle
import ChipEight.Proofs.FramePolling
import ChipEight.Proofs.LogLines

namespace ChipEight

/-! ### What a log shows -/

namespace Log

variable {level shownLevel : Level}

/-- A log shows all events of a level, or none. -/
theorem atLevel_shown (passes : level.rank ≤ shownLevel.rank) (events : List Event) :
    atLevel level (shown (some shownLevel) events) = atLevel level events := by
  rw [atLevel, shown, List.filter_filter]
  apply List.filter_congr
  intro e _
  by_cases same : e.level = level
  · simp [same, Event.passes, passes]
  · simp [same]

/-- What a log lets through is shown behind what it showed before. -/
theorem shown_concat {threshold : Threshold} {e : Event} (passes : e.passes threshold = true)
    (events : List Event) : shown threshold (events ++ [e]) = shown threshold events ++ [e] := by
  rw [shown, List.filter_append, List.filter_singleton, passes]
  rfl

end Log

/-- The fault that a step ended in, if it did. -/
def Outcome.fault? : Outcome → Option Fault
  | .fault f => some f
  | _ => none

theorem Outcome.fault?_eq_some {outcome : Outcome} {f : Fault} :
    outcome.fault? = some f ↔ outcome = .fault f := by
  cases outcome <;> simp [fault?]

namespace Playback

variable {rate k n : Nat} {p : Playback}

/-! ### What the cycles of a run did -/

/-- What became of the step of cycle number `k`. -/
def outcomeAt (rate : Nat) (p : Playback) (k : Nat) : Outcome := (p.ready rate k).step.1

/-- Those of the first `n` cycles whose step was a fault, with their faults. -/
def faulted (rate : Nat) (p : Playback) (n : Nat) : List (Nat × Fault) :=
  (List.range n).filterMap fun k => (p.outcomeAt rate k).fault?.map fun f => (k, f)

/-- Those of the first `n` cycles that executed an instruction that draws, and the first one. -/
def presented (rate : Nat) (p : Playback) (n : Nat) : List Nat :=
  (List.range n).filter fun k => k = 0 || (p.outcomeAt rate k).draws

theorem faulted_succ (rate : Nat) (p : Playback) (n : Nat) :
    p.faulted rate (n + 1) =
      p.faulted rate n ++ ((p.outcomeAt rate n).fault?.map fun f => (n, f)).toList := by
  rw [faulted, List.range_succ, List.filterMap_append, List.filterMap_cons, List.filterMap_nil]
  cases (p.outcomeAt rate n).fault? <;> rfl

theorem presented_succ (rate : Nat) (p : Playback) (n : Nat) :
    p.presented rate (n + 1) =
      p.presented rate n ++ [n].filter fun k => k = 0 || (p.outcomeAt rate k).draws := by
  rw [presented, List.range_succ, List.filter_append]
  rfl

theorem mem_faulted {f : Fault} :
    (k, f) ∈ p.faulted rate n ↔ k < n ∧ p.outcomeAt rate k = .fault f := by
  simp [faulted, Outcome.fault?_eq_some]

/-! ### Counters -/

/-- The count of faults has grown by the cycles that failed. -/
theorem faults_atCycle (rate : Nat) (p : Playback) (n : Nat) :
    (p.atCycle rate n).interpreter.faults =
      p.interpreter.faults + (p.faulted rate n).length := by
  induction n with
  | zero => rfl
  | succ n inductionHypothesis =>
      obtain ⟨delayTimer, soundTimer, ticked⟩ :=
        (p.atCycle rate n).interpreter.ticks_frame (Pacing.ticksDue rate n)
      have before : (p.ready rate n).fetch.faults = (p.atCycle rate n).interpreter.faults := by
        rw [ready, ticked]
        rfl
      have stepped : (p.ready rate n).step.2.faults =
          (p.ready rate n).fetch.faults + if (p.outcomeAt rate n).isFault then 1 else 0 :=
        Interpreter.faults_of_execute rfl
      rw [interpreter_atCycle_succ, faulted_succ, List.length_append, ← Nat.add_assoc,
        ← inductionHypothesis, ← before]
      apply stepped.trans
      cases p.outcomeAt rate n <;> rfl

/-- Before its step the first cycle alone finds a frame waiting: every cycle takes the frame that it
    leaves. -/
theorem pending_ready (fresh : p.interpreter.machine.screen.pending = true) (rate k : Nat) :
    (p.ready rate k).machine.screen.pending = decide (k = 0) := by
  cases k with
  | zero =>
      obtain ⟨delayTimer, soundTimer, ticked⟩ :=
        p.interpreter.ticks_frame (Pacing.ticksDue rate 0)
      rw [ready, atCycle, play, ticked]
      exact fresh
  | succ k =>
      obtain ⟨delayTimer, soundTimer, between⟩ := p.ready_succ_frame rate k
      rw [between]
      rfl

/-- Behind its step a frame waits if the cycle draws or is the first one. -/
theorem pending_step (fresh : p.interpreter.machine.screen.pending = true) (rate k : Nat) :
    (p.ready rate k).step.2.machine.screen.pending =
      (decide (k = 0) || (p.outcomeAt rate k).draws) := by
  have advance : (p.ready rate k).machine.screen.Advance (p.outcomeAt rate k).draws false
      (p.ready rate k).step.2.machine.screen :=
    Interpreter.advance_execute (c := (p.ready rate k).fetch) rfl
  rw [advance.pending, pending_ready fresh, Bool.not_false, Bool.and_true, Bool.or_comm]

/-- The count of frames has grown by the cycles that presented one. -/
theorem frames_atCycle (fresh : p.interpreter.machine.screen.pending = true) (rate n : Nat) :
    (p.atCycle rate n).frames = p.frames + (p.presented rate n).length := by
  induction n with
  | zero => rfl
  | succ n inductionHypothesis =>
      rw [frames_atCycle_succ, pending_step fresh, inductionHypothesis, presented_succ,
        List.length_append, ← Nat.add_assoc, List.filter_singleton]
      cases decide (n = 0) || (p.outcomeAt rate n).draws <;> rfl

/-! ### Events -/

/-- What is reported of cycle number `k`. -/
def eventsAt (rate : Nat) (p : Playback) (k : Nat) : List Log.Event :=
  announcement (p.ready rate k).fetch.machine ++ report k (p.outcomeAt rate k) ++
    toneReport k (p.atCycle rate k).toneOn (p.ready rate k).step.2.machine.soundsTone

/-- The events of a run are those of its cycles, one cycle after the other. -/
theorem events_atCycle (rate : Nat) (p : Playback) (n : Nat) :
    (p.atCycle rate n).events.reverse =
      p.events.reverse ++ (List.range n).flatMap (p.eventsAt rate) := by
  induction n with
  | zero => exact (List.append_nil _).symm
  | succ n inductionHypothesis =>
      have grown : (p.atCycle rate (n + 1)).events =
          (p.eventsAt rate n).reverse ++ (p.atCycle rate n).events := by
        rw [atCycle, play_add, Nat.zero_add]
        rfl
      rw [grown, List.reverse_append, List.reverse_reverse, inductionHypothesis, List.range_succ,
        List.flatMap_append, List.flatMap_singleton, List.append_assoc]

/-- The warnings of a cycle are the two reports of its fault. -/
theorem atLevel_warn_eventsAt (rate : Nat) (p : Playback) (k : Nat) :
    Log.atLevel .warn (p.eventsAt rate k) = report k (p.outcomeAt rate k) := by
  have announced (m : Machine) : Log.atLevel .warn (announcement m) = [] := by
    rw [announcement]
    split <;> rfl
  have reported : Log.atLevel .warn (report k (p.outcomeAt rate k)) =
      report k (p.outcomeAt rate k) := by
    cases p.outcomeAt rate k <;> rfl
  have toned (was is : Bool) : Log.atLevel .warn (toneReport k was is) = [] := by
    rw [toneReport]
    split <;> rfl
  rw [eventsAt, Log.atLevel_append, Log.atLevel_append, announced, reported, toned,
    List.nil_append, List.append_nil]

/-- The warnings of a run are those of the cycles that failed, in their order. -/
theorem atLevel_warn_flatMap_eventsAt (rate : Nat) (p : Playback) (n : Nat) :
    Log.atLevel .warn ((List.range n).flatMap (p.eventsAt rate)) =
      (p.faulted rate n).flatMap fun (k, f) => [.fault f, .faultAt k f] := by
  induction n with
  | zero => rfl
  | succ n inductionHypothesis =>
      rw [List.range_succ, List.flatMap_append, List.flatMap_singleton, Log.atLevel_append,
        inductionHypothesis, atLevel_warn_eventsAt, faulted_succ, List.flatMap_append]
      cases p.outcomeAt rate n <;> rfl

/-- The two reports of a fault stand next to each other. -/
theorem report_infix_of_mem_faulted {f : Fault} (failed : (k, f) ∈ p.faulted rate n) :
    [.fault f, .faultAt k f] <:+: (p.atCycle rate n).events.reverse := by
  obtain ⟨within, outcome⟩ := mem_faulted.mp failed
  have inCycle : [.fault f, .faultAt k f] <:+: p.eventsAt rate k := by
    rw [eventsAt, outcome]
    exact List.infix_append _ _ _
  have inCycles : p.eventsAt rate k <:+: (List.range n).flatMap (p.eventsAt rate) :=
    List.infix_of_mem_flatten (List.mem_map_of_mem (List.mem_range.mpr within))
  rw [events_atCycle]
  exact inCycle.trans (inCycles.trans (List.suffix_append _ _).isInfix)

/-! ### Summaries -/

/-- What a log says of the first `n` cycles of a run. Its last line, and its last line of information,
    is the summary, which counts the cycles, those that presented a frame and those that failed. Its
    warnings are two for each cycle that failed. The two stand next to each other in the log, and
    there they tell of such a cycle and its fault. -/
structure SummarizedBy (rate : Nat) (p : Playback) (n : Nat) (log : List Log.Line) : Prop where
  last : log.getLast? =
    some (Log.summaryLine n (p.presented rate n).length (p.faulted rate n).length)
  lastInformation : (Log.linesAt .info log).getLast? = log.getLast?
  warnings : Log.linesAt .warn log =
    (p.faulted rate n).flatMap fun (k, f) => [Log.faultLine f, Log.faultAtLine k f]
  adjacent : ∀ k f, [Log.faultLine f, Log.faultAtLine k f] <:+: log ↔ (k, f) ∈ p.faulted rate n

end Playback

namespace CommandLine

variable {σ : Type} {o : Options} {c : Interpreter} {level : Log.Level}

/-- The events of a whole run are those of its cycles, and the summary of them. -/
theorem Options.events_play (built : c.Built) (o : Options) :
    o.events (o.play c) =
      ((o.begun c).atCycle o.ips.toNat o.cycles.toNat).events.reverse ++
        [.summary o.cycles.toNat ((o.begun c).presented o.ips.toNat o.cycles.toNat).length
          ((o.begun c).faulted o.ips.toNat o.cycles.toNat).length] := by
  obtain ⟨memory, font, initial⟩ := built.machine_eq
  have fresh : (o.begun c).interpreter.machine.screen.pending = true := by
    rw [begun, holdKeys, initial]
    rfl
  have faultless : (o.begun c).interpreter.faults = 0 := by
    obtain ⟨setup, entropy, built⟩ := built
    exact (Setup.build_eq_ok built).2.2.2
  have untaken : (o.begun c).frames = 0 := rfl
  rw [Options.events, play_eq_atCycle, Playback.faults_atCycle, Playback.frames_atCycle fresh,
    faultless, untaken, Nat.zero_add, Nat.zero_add]

/-- The warnings of a run are the reports of its faults, in their order. -/
theorem Options.atLevel_warn_events_play (built : c.Built) (o : Options) :
    Log.atLevel .warn (o.events (o.play c)) =
      ((o.begun c).faulted o.ips.toNat o.cycles.toNat).flatMap fun (k, f) =>
        [.fault f, .faultAt k f] := by
  rw [events_play built, Log.atLevel_append, Playback.events_atCycle, Log.atLevel_append,
    Playback.atLevel_warn_flatMap_eventsAt]
  exact List.append_nil _

/-- The line of a cycle and its fault is logged for no other cycle and no other fault. -/
theorem Options.mem_faulted_of_line (built : c.Built) (warns : Log.Level.warn.rank ≤ level.rank)
    {k : Nat} {f : Fault} (listed : Log.faultAtLine k f ∈
      (Log.shown (some level) (o.events (o.play c))).map Log.Event.line) :
    (k, f) ∈ (o.begun c).faulted o.ips.toNat o.cycles.toNat := by
  have important : Log.Level.warn.rank ≤ Log.Level.info.rank := by decide
  have told : (Log.Event.faultAt k f).line ∈
      (Log.shown (some level) (o.events (o.play c))).map Log.Event.line := listed
  have warned : Log.Event.faultAt k f ∈
      Log.atLevel .warn (Log.shown (some level) (o.events (o.play c))) :=
    List.mem_filter.mpr ⟨Log.mem_of_line_mem important told, rfl⟩
  rw [Log.atLevel_shown warns, o.atLevel_warn_events_play built] at warned
  simpa using warned

/-- Both reports of a fault are shown, so that nothing is left out between them. -/
theorem Options.report_infix_shown (built : c.Built) (warns : Log.Level.warn.rank ≤ level.rank)
    {k : Nat} {f : Fault} (failed : (k, f) ∈ (o.begun c).faulted o.ips.toNat o.cycles.toNat) :
    [.fault f, .faultAt k f] <:+: Log.shown (some level) (o.events (o.play c)) := by
  have faultPasses : (Log.Event.fault f).passes (some level) = true := decide_eq_true warns
  have faultAtPasses : (Log.Event.faultAt k f).passes (some level) = true := decide_eq_true warns
  have inLog := (Playback.report_infix_of_mem_faulted failed).filter fun e => e.passes (some level)
  rw [List.filter_cons, faultPasses, List.filter_singleton, faultAtPasses] at inLog
  rw [events_play built, Log.shown, List.filter_append]
  exact inLog.trans (List.prefix_append _ _).isInfix

/-- A log that shows information sums up the run that it is a log of. -/
theorem Options.summarizedBy_shown (built : c.Built) (informs : Log.Level.info.rank ≤ level.rank) :
    (o.begun c).SummarizedBy o.ips.toNat o.cycles.toNat
      ((Log.shown (some level) (o.events (o.play c))).map Log.Event.line) := by
  have warns : Log.Level.warn.rank ≤ level.rank := Nat.le_trans (by decide) informs
  have summaryPasses : ∀ cycles frames faults,
      (Log.Event.summary cycles frames faults).passes (some level) = true :=
    fun _ _ _ => decide_eq_true informs
  constructor
  case last =>
    rw [events_play built, Log.shown_concat (summaryPasses _ _ _), List.map_append]
    exact List.getLast?_concat
  case lastInformation =>
    rw [Log.linesAt_map_line, Log.atLevel_shown informs, events_play built,
      Log.shown_concat (summaryPasses _ _ _), Log.atLevel_append, List.map_append, List.map_append]
    exact List.getLast?_concat.trans List.getLast?_concat.symm
  case warnings =>
    rw [Log.linesAt_map_line, Log.atLevel_shown warns, o.atLevel_warn_events_play built,
      List.map_flatMap]
    rfl
  case adjacent =>
    intro k f
    constructor
    · intro inLog
      have listed := inLog.subset (List.mem_cons_of_mem _ List.mem_cons_self)
      exact o.mem_faulted_of_line built warns listed
    · intro failed
      exact (o.report_infix_shown built warns failed).map Log.Event.line

/-- What a run that nothing stands in the way of logs. -/
theorem exists_log_of_clear {arguments : List String} (parsed : parse arguments = .ok o)
    {d : FileSystem σ} {t : σ} (clear : o.firstObstacle? d t = none)
    (unasked : o.disassemble = false) (threshold? : Option Log.Threshold) (entropy : Cipher.Key) :
    ∃ image font? c, d.read t o.rom = .ok image ∧ o.FontRead d t font? ∧
      (o.setup image font?).build entropy = .ok c ∧
      ((program arguments threshold? entropy).runOn d t).1.log =
        (Log.shown (threshold?.getD o.threshold) (o.events (o.play c))).map Log.Event.line := by
  obtain ⟨image, read, -, concluded⟩ := (o.course_run d t entropy).of_clear clear
  obtain ⟨font?, c, fonted, built, ending, -⟩ := concluded unasked
  refine ⟨image, font?, c, read, fonted, built, ?_⟩
  rw [runOn_program parsed, ending, Report.log]
  have events := (o.concludes_conclude (o.play c) (threshold?.getD o.threshold) d t).1.events
  exact congrArg (List.map Log.Event.line) events

/-- The summary of a run is exact. For every command line, whatever reads and writes are answered, if
    they let a run begin, and whatever the program, the font, the dialect, the seed, the rate and the
    keys that are held: if information is logged, its last line says `ran C instructions, F frames, X
    faults`, where `C` is the number of cycles that was asked for, `F` counts the first cycle and
    every other one that executed `00E0` or `DXYN`, and `X` counts the cycles whose step was a fault.
    And the warnings of the log are, cycle after cycle, the text of the fault by itself and right
    behind it the number of the cycle with the text of the same fault, and no others. The words of
    64 bits that count the ticks of the run come out right. -/
theorem summary_is_exact {arguments : List String} (parsed : parse arguments = .ok o)
    (room : 60 * o.cycles.toNat < UInt64.size) {d : FileSystem σ} {t : σ}
    (clear : o.firstObstacle? d t = none) (unasked : o.disassemble = false)
    {threshold? : Option Log.Threshold} (logged : threshold?.getD o.threshold = some level)
    (informs : Log.Level.info.rank ≤ level.rank) (entropy : Cipher.Key) :
    ∃ image font? c, d.read t o.rom = .ok image ∧ o.FontRead d t font? ∧
      (o.setup image font?).build entropy = .ok c ∧
      (o.begun c).SummarizedBy o.ips.toNat o.cycles.toNat
        ((program arguments threshold? entropy).runOn d t).1.log ∧
      ∀ k < o.cycles.toNat,
        (Pacing.wordTicksDue o.ips (UInt64.ofNat k)).toNat = Pacing.ticksDue o.ips.toNat k := by
  obtain ⟨image, font?, c, read, fonted, built, logs⟩ :=
    exists_log_of_clear parsed clear unasked threshold? entropy
  refine ⟨image, font?, c, read, fonted, built, ?_, ?_⟩
  · rw [logs, logged]
    exact Options.summarizedBy_shown ⟨_, _, built⟩ informs
  · intro k within
    exact Pacing.toNat_wordTicksDue o.ips (by omega)

/-- A program that sets a register, returns with no call open, clears the screen and stays where it is,
    among the files. -/
def strayReturn : FileTree :=
  .ofList [("stray.ch8", [0x60, 0x01, 0x00, 0xEE, 0x00, 0xE0, 0x12, 0x06])]

/-- What is logged of four cycles of it, from information on. -/
def strayLog : List Log.Line :=
  ((program ["stray.ch8", "-c4", "--seed", "0"] (some (some .info)) (Vector.replicate 8 0)).runIn
    strayReturn).1.log

/-- The first of the four cycles draws nothing and counts as a frame all the same; the third one draws.
    The second one fails, which the log warns of twice. -/
theorem summary_is_exact_strayReturn :
    strayLog.getLast? = some ⟨.info, "ran 4 instructions, 2 frames, 1 faults"⟩ ∧
    Log.linesAt .warn strayLog =
      [⟨.warn, "return at 0x202 with an empty stack"⟩,
        ⟨.warn, "cycle 1: return at 0x202 with an empty stack"⟩] := by
  have parsed : parse ["stray.ch8", "-c4", "--seed", "0"] =
      .ok { rom := "stray.ch8", cycles := 4, seed? := some 0 } := by
    decide +kernel
  have clear : Options.firstObstacle? { rom := "stray.ch8", cycles := 4, seed? := some 0 }
      FileTree.system strayReturn = none := by
    decide +kernel
  have held : strayReturn.read "stray.ch8" =
      .ok [0x60, 0x01, 0x00, 0xEE, 0x00, 0xE0, 0x12, 0x06] := by
    decide +kernel
  have logged : (some (some Log.Level.info)).getD (Options.threshold
      { rom := "stray.ch8", cycles := 4, seed? := some 0 }) = some .info := rfl
  obtain ⟨image, font?, c, read, fonted, built, summarized, -⟩ :=
    summary_is_exact parsed (by decide) clear rfl logged (by decide) (Vector.replicate 8 0)
  cases held.symm.trans read
  obtain rfl : font? = none := by
    cases fonted with
    | unnamed => rfl
    | read named => cases named
  have made := Interpreter.build_ofProgram [0x60, 0x01, 0x00, 0xEE, 0x00, 0xE0, 0x12, 0x06]
    (Vector.replicate 8 0) (by decide)
  obtain rfl : Interpreter.ofProgram _ = c := Except.ok.inj (made.symm.trans built)
  rw [strayLog, Script.runIn, summarized.last, summarized.warnings]
  constructor
  · decide +kernel
  · decide +kernel

end CommandLine

end ChipEight
