/-
Module: ChipEight.Proofs.FirstObstacle
Purpose: How a command ends. Several things can stand in the way of what it asks for: the rate, files
  that cannot be read, and sizes that are wrong. Each of them is told apart from the others here, and
  the first one in a fixed order decides: it alone is reported, nothing is printed, and no file is
  written. Without any of them a listing or a whole run is printed, and only a picture that cannot be
  written may still fail. Nothing is assumed of what reads and writes are answered.
Main exports: Request, Script.requests, Options.firstObstacle?, Options.Course, Options.course_run,
  Options.Concludes, CommandLine.first_obstacle_decides
-/
import ChipEight.CommandLine.FileTree
import ChipEight.Proofs.Assembly
import ChipEight.Proofs.Cycles

namespace ChipEight

/-! ### What a script asks for -/

/-- A request for a file. -/
inductive Request where
  | read (path : String)
  | write (path : String) (contents : List UInt8)
deriving DecidableEq, Repr

/-- The requests of a script in their order, as they are answered. -/
def Script.requests {α σ : Type} (d : FileSystem σ) (t : σ) : Script α → List Request
  | .finish _ => []
  | .pause _ next => next.requests d t
  | .read path next => .read path :: (next (d.read t path)).requests d t
  | .write path contents next =>
    .write path contents ::
      (next (d.write t path contents).1).requests d (d.write t path contents).2

namespace Script

variable {α β σ : Type}

/-- A change of the result changes no answer. -/
theorem runOn_map (f : α → β) (script : Script α) (d : FileSystem σ) (t : σ) :
    (script.map f).runOn d t = (f (script.runOn d t).1, (script.runOn d t).2) := by
  induction script generalizing t with
  | finish result => rfl
  | pause duration next inductionHypothesis => exact inductionHypothesis t
  | read path next inductionHypothesis => exact inductionHypothesis (d.read t path) t
  | write path contents next inductionHypothesis =>
      exact inductionHypothesis (d.write t path contents).1 (d.write t path contents).2

/-- A change of the result changes no request. -/
theorem requests_map (f : α → β) (script : Script α) (d : FileSystem σ) (t : σ) :
    (script.map f).requests d t = script.requests d t := by
  induction script generalizing t with
  | finish result => rfl
  | pause duration next inductionHypothesis => exact inductionHypothesis t
  | read path next inductionHypothesis =>
      simp only [map, requests, inductionHypothesis]
  | write path contents next inductionHypothesis =>
      simp only [map, requests, inductionHypothesis]

end Script

namespace FileSystem

variable {σ : Type}

/-- Why a file cannot be read, if it cannot. -/
def readError? (d : FileSystem σ) (t : σ) (path : String) : Option FileError :=
  match d.read t path with
  | .ok _ => none
  | .error e => some e

/-- What a file holds, if it can be read. -/
def contents? (d : FileSystem σ) (t : σ) (path : String) : Option (List UInt8) :=
  match d.read t path with
  | .ok bytes => some bytes
  | .error _ => none

end FileSystem

namespace CommandLine

namespace Options

variable {σ : Type} {o : Options} {d : FileSystem σ} {t : σ} {entropy : Cipher.Key}

/-! ### Obstacles -/

/-- The rate is to lie between one and a million. -/
def rateObstacle? (o : Options) : Option Failure :=
  if 1 ≤ o.ips.toNat ∧ o.ips.toNat ≤ 1000000 then none else some .rateOutOfRange

/-- The file of the program is to be readable. -/
def programObstacle? (o : Options) (d : FileSystem σ) (t : σ) : Option Failure :=
  (d.readError? t o.rom).map (.readProgram o.rom)

/-- The file of the font, if one is named, is to be readable. -/
def fontObstacle? (o : Options) (d : FileSystem σ) (t : σ) : Option Failure :=
  o.font?.bind fun path => (d.readError? t path).map (.readFont path)

/-- A font is to have eighty bytes. -/
def wrongFont? (bytes : List UInt8) : Option Failure :=
  if bytes.length = 80 then none else some (.load (.wrongFontSize bytes.length))

/-- A program is to have no more than 3584 bytes. -/
def largeProgram? (image : List UInt8) : Option Failure :=
  if image.length ≤ 3584 then none else some (.load (.programTooLarge image.length))

/-- The first of the things that stand in the way of what is asked for. For a listing the program only
    has to be there. -/
def firstObstacle? (o : Options) (d : FileSystem σ) (t : σ) : Option Failure :=
  o.rateObstacle?.or <| (o.programObstacle? d t).or <|
    if o.disassemble then none
    else
      (o.fontObstacle? d t).or <| ((o.font?.bind (d.contents? t)).bind wrongFont?).or <|
        (d.contents? t o.rom).bind largeProgram?

/-! ### Courses -/

/-- The font file is read, or none is named. -/
inductive FontRead (o : Options) (d : FileSystem σ) (t : σ) : Option (List UInt8) → Prop where
  | unnamed (unnamed : o.font? = none) : FontRead o d t none
  | read {path : String} {bytes : List UInt8} (named : o.font? = some path)
      (read : d.read t path = .ok bytes) : FontRead o d t (some bytes)

/-- The requests that come before the run. -/
def readings (o : Options) : List Request := .read o.rom :: o.font?.toList.map .read

/-- The report of a failure. -/
def failure (f : Failure) : Report := { status := 1, errors := f.lines }

/-- The ways that a command can go, with what is left at the end and what was asked for on the way. -/
inductive Course (o : Options) (d : FileSystem σ) (t : σ) (entropy : Cipher.Key) :
    Report × σ → List Request → Prop where
  | outOfRange (range : ¬(1 ≤ o.ips.toNat ∧ o.ips.toNat ≤ 1000000)) :
      Course o d t entropy (failure .rateOutOfRange, t) []
  | programUnread {e : FileError} (range : 1 ≤ o.ips.toNat ∧ o.ips.toNat ≤ 1000000)
      (unread : d.read t o.rom = .error e) :
      Course o d t entropy (failure (.readProgram o.rom e), t) [.read o.rom]
  | listed {image : List UInt8} (range : 1 ≤ o.ips.toNat ∧ o.ips.toNat ≤ 1000000)
      (read : d.read t o.rom = .ok image) (asked : o.disassemble = true) :
      Course o d t entropy ({ status := 0, output := listingLines image }, t) [.read o.rom]
  | fontUnread {image : List UInt8} {path : String} {e : FileError}
      (range : 1 ≤ o.ips.toNat ∧ o.ips.toNat ≤ 1000000) (read : d.read t o.rom = .ok image)
      (unasked : o.disassemble = false) (named : o.font? = some path)
      (unread : d.read t path = .error e) :
      Course o d t entropy (failure (.readFont path e), t) o.readings
  | unbuilt {image : List UInt8} {font? : Option (List UInt8)} {e : LoadError}
      (range : 1 ≤ o.ips.toNat ∧ o.ips.toNat ≤ 1000000) (read : d.read t o.rom = .ok image)
      (unasked : o.disassemble = false) (fonted : o.FontRead d t font?)
      (refused : (o.setup image font?).build entropy = .error e) :
      Course o d t entropy (failure (.load e), t) o.readings
  | concluded {image : List UInt8} {font? : Option (List UInt8)} {c : Interpreter}
      (range : 1 ≤ o.ips.toNat ∧ o.ips.toNat ≤ 1000000) (read : d.read t o.rom = .ok image)
      (unasked : o.disassemble = false) (fonted : o.FontRead d t font?)
      (built : (o.setup image font?).build entropy = .ok c) :
      Course o d t entropy ((o.conclude (o.play c)).runOn d t)
        (o.readings ++ (o.conclude (o.play c)).requests d t)

/-- The check of the rate, as the range that it leaves. -/
theorem out_of_range_iff (o : Options) :
    (o.ips = 0 ∨ maxRate < o.ips.toNat) ↔ ¬(1 ≤ o.ips.toNat ∧ o.ips.toNat ≤ 1000000) := by
  rw [← UInt32.toNat_inj, UInt32.toNat_zero, maxRate]
  omega

/-- The time that passes in a run asks for nothing. -/
theorem pace_frame {α : Type} (o : Options) (next : Script α) (d : FileSystem σ) (t : σ) :
    (o.pace next).runOn d t = next.runOn d t ∧ (o.pace next).requests d t = next.requests d t := by
  rw [pace]
  split <;> exact ⟨rfl, rfl⟩

/-- With the program and the font at hand, a command fails or runs to its end. -/
theorem course_execute (entropy : Cipher.Key) {image : List UInt8} {font? : Option (List UInt8)}
    (range : 1 ≤ o.ips.toNat ∧ o.ips.toNat ≤ 1000000) (read : d.read t o.rom = .ok image)
    (unasked : o.disassemble = false) (fonted : o.FontRead d t font?) :
    Course o d t entropy ((o.execute entropy image font?).runOn d t)
      (o.readings ++ (o.execute entropy image font?).requests d t) := by
  rw [execute]
  cases built : (o.setup image font?).build entropy with
  | ok c =>
      obtain ⟨sameEnd, sameRequests⟩ := o.pace_frame (o.conclude (o.play c)) d t
      simp only [sameEnd, sameRequests]
      exact .concluded range read unasked fonted built
  | error e =>
      have asked : o.readings ++ (failed (.load e)).requests d t = o.readings := List.append_nil _
      simp only [asked]
      exact .unbuilt range read unasked fonted built

/-- Every command goes one of the ways. -/
theorem course_run (o : Options) (d : FileSystem σ) (t : σ) (entropy : Cipher.Key) :
    Course o d t entropy ((o.run entropy).runOn d t) ((o.run entropy).requests d t) := by
  rw [run]
  by_cases outside : o.ips = 0 ∨ maxRate < o.ips.toNat
  · rw [if_pos outside]
    exact .outOfRange (o.out_of_range_iff.mp outside)
  have range := not_not.mp (mt o.out_of_range_iff.mpr outside)
  rw [if_neg outside]
  simp only [Script.runOn, Script.requests]
  cases read : d.read t o.rom with
  | error e => exact .programUnread range read
  | ok image =>
      cases asked : o.disassemble with
      | true => exact .listed range read asked
      | false =>
          simp only [Bool.false_eq_true, if_false, withFont]
          cases named : o.font? with
          | none =>
              have executed := course_execute entropy range read asked (.unnamed named)
              rw [readings, named] at executed
              exact executed
          | some path =>
              simp only [Script.runOn, Script.requests]
              cases fontRead : d.read t path with
              | error e =>
                  have failed : Course o d t entropy _ _ :=
                    .fontUnread range read asked named fontRead
                  rw [readings, named] at failed
                  exact failed
              | ok bytes =>
                  have executed := course_execute entropy range read asked
                    (.read named fontRead)
                  rw [readings, named] at executed
                  exact executed

/-! ### The first obstacle of a course -/

/-- A rate out of range comes first, whatever else is wrong. -/
theorem firstObstacle?_of_outOfRange (d : FileSystem σ) (t : σ)
    (range : ¬(1 ≤ o.ips.toNat ∧ o.ips.toNat ≤ 1000000)) :
    o.firstObstacle? d t = some .rateOutOfRange := by
  rw [firstObstacle?, rateObstacle?, if_neg range]
  rfl

theorem firstObstacle?_of_unread {e : FileError}
    (range : 1 ≤ o.ips.toNat ∧ o.ips.toNat ≤ 1000000) (unread : d.read t o.rom = .error e) :
    o.firstObstacle? d t = some (.readProgram o.rom e) := by
  simp [firstObstacle?, rateObstacle?, range, programObstacle?, FileSystem.readError?, unread]

/-- Nothing stands in the way of a listing if the program is there. -/
theorem firstObstacle?_of_listed {image : List UInt8}
    (range : 1 ≤ o.ips.toNat ∧ o.ips.toNat ≤ 1000000) (read : d.read t o.rom = .ok image)
    (asked : o.disassemble = true) : o.firstObstacle? d t = none := by
  simp [firstObstacle?, rateObstacle?, range, programObstacle?, FileSystem.readError?, read, asked]

theorem firstObstacle?_of_fontUnread {image : List UInt8} {path : String} {e : FileError}
    (range : 1 ≤ o.ips.toNat ∧ o.ips.toNat ≤ 1000000) (read : d.read t o.rom = .ok image)
    (unasked : o.disassemble = false) (named : o.font? = some path)
    (unread : d.read t path = .error e) : o.firstObstacle? d t = some (.readFont path e) := by
  simp [firstObstacle?, rateObstacle?, range, programObstacle?, FileSystem.readError?, read, unasked,
    fontObstacle?, named, unread]

/-- With the program and the font at hand, only their sizes can be wrong. -/
theorem firstObstacle?_of_fontRead {image : List UInt8} {font? : Option (List UInt8)}
    (range : 1 ≤ o.ips.toNat ∧ o.ips.toNat ≤ 1000000) (read : d.read t o.rom = .ok image)
    (unasked : o.disassemble = false) (fonted : o.FontRead d t font?) :
    o.firstObstacle? d t = (font?.bind wrongFont?).or (largeProgram? image) := by
  cases fonted with
  | unnamed unnamed =>
      simp [firstObstacle?, rateObstacle?, range, programObstacle?, FileSystem.readError?, read,
        unasked, fontObstacle?, unnamed, FileSystem.contents?]
  | read named fontRead =>
      simp [firstObstacle?, rateObstacle?, range, programObstacle?, FileSystem.readError?, read,
        unasked, fontObstacle?, named, fontRead, FileSystem.contents?]

/-- A build fails for the first of the sizes that is wrong, and for nothing else. -/
theorem build_setup (o : Options) (image : List UInt8) (font? : Option (List UInt8))
    (entropy : Cipher.Key) :
    ((font?.bind wrongFont?).or (largeProgram? image) = none ∧
        ∃ c, (o.setup image font?).build entropy = .ok c) ∨
      ∃ e, (font?.bind wrongFont?).or (largeProgram? image) = some (.load e) ∧
        (o.setup image font?).build entropy = .error e := by
  by_cases sized : ∀ bytes, font? = some bytes → bytes.length = 80
  case neg =>
    simp only [not_forall] at sized
    obtain ⟨bytes, rfl, wrong⟩ := sized
    refine .inr ⟨.wrongFontSize bytes.length, ?_, Setup.build_of_wrongFont rfl wrong entropy⟩
    simp [wrongFont?, wrong]
  case pos =>
    have unfailing : font?.bind wrongFont? = none := by
      cases font? with
      | none => rfl
      | some bytes => exact if_pos (sized bytes rfl)
    rw [unfailing, Option.none_or, largeProgram?]
    by_cases fits : image.length ≤ 3584
    · exact .inl ⟨if_pos fits, Setup.exists_build sized fits entropy⟩
    · have failed : (o.setup image font?).build entropy = _ :=
        Setup.build_of_large sized (Nat.lt_of_not_le fits) entropy
      exact .inr ⟨_, if_neg fits, failed⟩

/-- A course that meets an obstacle fails for the first one and has only read; with the rate out of
    range, not even that. -/
theorem Course.of_obstacle {ending : Report × σ} {requests : List Request} {f : Failure}
    (course : Course o d t entropy ending requests) (first : o.firstObstacle? d t = some f) :
    ending = (failure f, t) ∧ (∀ request ∈ requests, ∃ path, request = .read path) ∧
      (f = .rateOutOfRange → requests = []) := by
  have readings : ∀ request ∈ o.readings, ∃ path, request = .read path := by
    simp [Options.readings]
  cases course with
  | outOfRange range =>
      rw [firstObstacle?_of_outOfRange d t range] at first
      cases first
      exact ⟨rfl, nofun, fun _ => rfl⟩
  | programUnread range unread =>
      rw [firstObstacle?_of_unread range unread] at first
      cases first
      exact ⟨rfl, by simp, nofun⟩
  | listed range read asked =>
      rw [firstObstacle?_of_listed range read asked] at first
      cases first
  | fontUnread range read unasked named unread =>
      rw [firstObstacle?_of_fontUnread range read unasked named unread] at first
      cases first
      exact ⟨rfl, readings, nofun⟩
  | unbuilt range read unasked fonted refused =>
      rw [firstObstacle?_of_fontRead range read unasked fonted] at first
      rcases o.build_setup _ _ entropy with ⟨-, c, built⟩ | ⟨e, obstacle, failed⟩
      · rw [refused] at built
        cases built
      · cases refused.symm.trans failed
        cases first.symm.trans obstacle
        exact ⟨rfl, readings, nofun⟩
  | concluded range read unasked fonted built =>
      rw [firstObstacle?_of_fontRead range read unasked fonted] at first
      rcases o.build_setup _ _ entropy with ⟨obstacle, -⟩ | ⟨e, -, failed⟩
      · cases first.symm.trans obstacle
      · cases built.symm.trans failed

/-- A course without an obstacle is that of a listing or of a whole run. -/
theorem Course.of_clear {ending : Report × σ} {requests : List Request}
    (course : Course o d t entropy ending requests) (clear : o.firstObstacle? d t = none) :
    ∃ image, d.read t o.rom = .ok image ∧
      (o.disassemble = true →
        ending = ({ status := 0, output := listingLines image }, t) ∧ requests = [.read o.rom]) ∧
      (o.disassemble = false → ∃ font? c, o.FontRead d t font? ∧
        (o.setup image font?).build entropy = .ok c ∧
        ending = (o.conclude (o.play c)).runOn d t ∧
        requests = o.readings ++ (o.conclude (o.play c)).requests d t) := by
  cases course with
  | outOfRange range =>
      rw [firstObstacle?_of_outOfRange d t range] at clear
      cases clear
  | programUnread range unread =>
      rw [firstObstacle?_of_unread range unread] at clear
      cases clear
  | listed range read asked =>
      refine ⟨_, read, fun _ => ⟨rfl, rfl⟩, fun unasked => ?_⟩
      cases asked.symm.trans unasked
  | fontUnread range read unasked named unread =>
      rw [firstObstacle?_of_fontUnread range read unasked named unread] at clear
      cases clear
  | unbuilt range read unasked fonted refused =>
      rw [firstObstacle?_of_fontRead range read unasked fonted] at clear
      rcases o.build_setup _ _ entropy with ⟨-, c, built⟩ | ⟨e, obstacle, -⟩
      · cases refused.symm.trans built
      · cases clear.symm.trans obstacle
  | concluded range read unasked fonted built =>
      refine ⟨_, read, fun asked => ?_, fun _ => ⟨_, _, fonted, built, rfl, rfl⟩⟩
      cases asked.symm.trans unasked

/-! ### Conclusions -/

/-- How a run that is over is concluded, with what is left at the end. Its last frame is printed, and
    what happened is logged as far as the threshold lets it through. The picture, if one is asked
    for, is then written to its file; if that fails, it is reported. The files are those that the
    write leaves, and without a picture those that were there. -/
structure Concludes (o : Options) (p : Playback) (threshold : Log.Threshold) (d : FileSystem σ)
    (t : σ) (ending : Report × σ) : Prop where
  output : ending.1.output = p.interpreter.machine.screen.textLines
  events : ending.1.events = Log.shown threshold (o.events p)
  unpictured : o.ppm? = none → ending.1.status = 0 ∧ ending.1.errors = [] ∧ ending.2 = t
  pictured : ∀ path, o.ppm? = some path →
    (d.write t path (p.interpreter.machine.screen.picture o.palette)).1 = .ok () →
    ending.1.status = 0 ∧ ending.1.errors = []
  unwritten : ∀ path e, o.ppm? = some path →
    (d.write t path (p.interpreter.machine.screen.picture o.palette)).1 = .error e →
    ending.1.status = 1 ∧ ending.1.errors = (Failure.writePicture path e).lines
  left : ∀ path, o.ppm? = some path →
    ending.2 = (d.write t path (p.interpreter.machine.screen.picture o.palette)).2

/-- The request for a picture. -/
def writings (o : Options) (p : Playback) : List Request :=
  o.ppm?.toList.map fun path => .write path (p.interpreter.machine.screen.picture o.palette)

theorem concludes_conclude (o : Options) (p : Playback) (threshold : Log.Threshold)
    (d : FileSystem σ) (t : σ) :
    o.Concludes p threshold d t
        (((o.conclude p).runOn d t).1.upTo threshold, ((o.conclude p).runOn d t).2) ∧
      (o.conclude p).requests d t = o.writings p := by
  rw [conclude, writings]
  cases asked : o.ppm? with
  | none =>
      refine ⟨⟨rfl, rfl, fun _ => ⟨rfl, rfl, rfl⟩, ?_, ?_, ?_⟩, rfl⟩
      · simp [asked]
      · simp [asked]
      · simp [asked]
  | some path =>
      simp only [Script.runOn, Script.requests]
      -- What the write leaves does not depend on what it is answered.
      cases written : (d.write t path (p.interpreter.machine.screen.picture o.palette)).1 with
      | ok =>
          refine ⟨⟨rfl, rfl, ?_, ?_, ?_, ?_⟩, rfl⟩
          · simp [asked]
          · intro _ _ _
            exact ⟨rfl, rfl⟩
          · intro path' e same unwritten
            cases asked.symm.trans same
            cases written.symm.trans unwritten
          · intro path' same
            cases asked.symm.trans same
            rfl
      | error e =>
          refine ⟨⟨rfl, rfl, ?_, ?_, ?_, ?_⟩, rfl⟩
          · simp [asked]
          · intro path' same written'
            cases asked.symm.trans same
            cases written.symm.trans written'
          · intro path' e' same unwritten
            cases asked.symm.trans same
            cases written.symm.trans unwritten
            exact ⟨rfl, rfl⟩
          · intro path' same
            cases asked.symm.trans same
            rfl

end Options

variable {σ : Type} {o : Options}

/-- The listing that is printed has a line for every two bytes of the file, however long it is. -/
theorem getElem?_listingLines {image : List UInt8} {i : Nat} {high low : UInt8}
    (first : image[2 * i]? = some high) (second : image[2 * i + 1]? = some low) :
    (listingLines image)[i]? = some (Listing.Row.line ⟨0x200 + 2 * UInt16.ofNat i,
      bigEndian high low, Instruction.decode (bigEndian high low)⟩) := by
  have listed : (Listing.disassemble image (UInt16.ofNat Machine.programStart))[i]? = _ :=
    Listing.getElem?_disassemble.mpr ⟨high, low, first, second, rfl⟩
  rw [listingLines, List.getElem?_map, listed]
  rfl

theorem length_listingLines (image : List UInt8) :
    (listingLines image).length = image.length / 2 := by
  rw [listingLines, List.length_map, ← Listing.length_words,
    ← Listing.map_word_disassemble image (UInt16.ofNat Machine.programStart), List.length_map]

/-- A command line that can be read leads to what its options lead to, as far as the threshold lets the
    log through. -/
theorem runOn_program {arguments : List String} (parsed : parse arguments = .ok o)
    (d : FileSystem σ) (t : σ) (threshold? : Option Log.Threshold) (entropy : Cipher.Key) :
    (program arguments threshold? entropy).runOn d t =
      (((o.run entropy).runOn d t).1.upTo (threshold?.getD o.threshold),
        ((o.run entropy).runOn d t).2) := by
  rw [program, parsed]
  exact Script.runOn_map _ _ _ _

/-- The threshold of the log makes no difference to what is asked for. -/
theorem requests_program {arguments : List String} (parsed : parse arguments = .ok o)
    (d : FileSystem σ) (t : σ) (threshold? : Option Log.Threshold) (entropy : Cipher.Key) :
    (program arguments threshold? entropy).requests d t = (o.run entropy).requests d t := by
  rw [program, parsed]
  exact Script.requests_map _ _ _ _

/-- The first obstacle decides. For every command line that can be read, whatever reads and writes are
    answered: if something stands in the way of what is asked for, the program ends with status one and reports
    the first such thing, prints nothing, and leaves every file as it is; with the rate out of range
    it does not even ask for a file. If nothing stands in the way of a listing, the program reads
    its program alone, writes nothing, and prints a line for every two bytes of it, however many
    there are. If nothing stands in the way of a run, all cycles are run and the frame is printed in
    32 lines, and only a picture that cannot be written makes the program fail. The words of 64 bits
    that count the ticks of the run come out right. -/
theorem first_obstacle_decides {arguments : List String} (parsed : parse arguments = .ok o)
    (room : 60 * o.cycles.toNat < UInt64.size) (d : FileSystem σ) (t : σ)
    (threshold? : Option Log.Threshold) (entropy : Cipher.Key) :
    (¬(1 ≤ o.ips.toNat ∧ o.ips.toNat ≤ 1000000) →
      o.firstObstacle? d t = some .rateOutOfRange ∧
        (program arguments threshold? entropy).requests d t = []) ∧
    (∀ f, o.firstObstacle? d t = some f →
      (program arguments threshold? entropy).runOn d t =
        ({ status := 1, output := [], events := [], errors := f.lines }, t) ∧
      ∀ request ∈ (program arguments threshold? entropy).requests d t, ∃ path, request = .read path) ∧
    (o.firstObstacle? d t = none → ∃ image, d.read t o.rom = .ok image ∧
      (o.disassemble = true →
        (program arguments threshold? entropy).runOn d t =
          ({ status := 0, output := listingLines image, events := [], errors := [] }, t) ∧
        (program arguments threshold? entropy).requests d t = [.read o.rom] ∧
        (listingLines image).length = image.length / 2 ∧
        ∀ i high low, image[2 * i]? = some high → image[2 * i + 1]? = some low →
          (listingLines image)[i]? = some (Listing.Row.line ⟨0x200 + 2 * UInt16.ofNat i,
            bigEndian high low, Instruction.decode (bigEndian high low)⟩)) ∧
      (o.disassemble = false → ∃ font? c, o.FontRead d t font? ∧
        (o.setup image font?).build entropy = .ok c ∧
        o.Concludes ((o.begun c).atCycle o.ips.toNat o.cycles.toNat)
          (threshold?.getD o.threshold) d t ((program arguments threshold? entropy).runOn d t) ∧
        (((program arguments threshold? entropy).runOn d t).1.output).length = 32 ∧
        (program arguments threshold? entropy).requests d t = o.readings ++
          o.writings ((o.begun c).atCycle o.ips.toNat o.cycles.toNat) ∧
        ∀ k < o.cycles.toNat,
          (Pacing.wordTicksDue o.ips (UInt64.ofNat k)).toNat = Pacing.ticksDue o.ips.toNat k)) := by
  have course := o.course_run d t entropy
  rw [runOn_program parsed, requests_program parsed]
  refine ⟨?_, ?_, ?_⟩
  · intro range
    have first := Options.firstObstacle?_of_outOfRange d t range
    exact ⟨first, (course.of_obstacle first).2.2 rfl⟩
  · intro f first
    obtain ⟨ending, readings, -⟩ := course.of_obstacle first
    rw [ending]
    exact ⟨rfl, readings⟩
  · intro clear
    obtain ⟨image, read, listed, concluded⟩ := course.of_clear clear
    refine ⟨image, read, ?_, ?_⟩
    · intro asked
      obtain ⟨ending, requests⟩ := listed asked
      rw [ending, requests]
      exact ⟨rfl, rfl, length_listingLines image,
        fun i high low first second => getElem?_listingLines first second⟩
    · intro unasked
      obtain ⟨font?, c, fonted, built, ending, requests⟩ := concluded unasked
      obtain ⟨concludes, writings⟩ :=
        o.concludes_conclude (o.play c) (threshold?.getD o.threshold) d t
      rw [ending, requests, writings]
      refine ⟨font?, c, fonted, built, concludes, ?_, rfl, ?_⟩
      · rw [concludes.output, Screen.textLines, List.length_map, List.length_finRange]
      · intro k within
        exact Pacing.toNat_wordTicksDue o.ips (by omega)

/-- A program that is one byte too long, a font that is too short, and a program of one word. -/
def crowded : FileTree :=
  .ofList [("long.ch8", List.replicate 3585 0x61), ("short.fnt", [1, 2, 3]), ("cls.ch8", [0x00, 0xE0])]

/-- Files with no room left: a write begins an empty file in the working directory and fails. -/
def noRoom : FileSystem FileTree where
  read := FileTree.read
  write t path _ := (.error .noSpace, t.put .here path [])

/-- With both sizes wrong the font is reported, and the picture that is asked for is not written; asked
    for a listing, the program looks at neither size and lists all 1792 words; a program that fits
    runs through and shows its frame; and a picture that there is no room for makes it fail behind
    the frame, and leaves the file that was begun. -/
theorem first_obstacle_decides_crowded :
    parse ["--font=short.fnt", "long.ch8", "--ppm", "out.ppm"] =
      .ok { rom := "long.ch8", font? := some "short.fnt", ppm? := some "out.ppm" } ∧
    (program ["--font=short.fnt", "long.ch8", "--ppm", "out.ppm"] none (Vector.replicate 8 0)).runIn
        crowded =
      ({ status := 1, errors := (Failure.load (.wrongFontSize 3)).lines }, crowded) ∧
    (((program ["--font=short.fnt", "long.ch8", "--disassemble"] none (Vector.replicate 8 0)).runIn
        crowded).1.status = 0 ∧
      ((program ["--font=short.fnt", "long.ch8", "--disassemble"] none (Vector.replicate 8 0)).runIn
        crowded).1.output.length = 1792) ∧
    ((program ["-c2", "cls.ch8"] none (Vector.replicate 8 0)).runIn crowded).1.output.length = 32 ∧
    ∃ report, (program ["-c2", "cls.ch8", "--ppm", "out.ppm"] none (Vector.replicate 8 0)).runOn
        noRoom crowded = (report, crowded.put .here "out.ppm" []) ∧
      report.status = 1 ∧ report.output.length = 32 ∧
      report.errors = (Failure.writePicture "out.ppm" .noSpace).lines := by
  have parsed : parse ["--font=short.fnt", "long.ch8", "--ppm", "out.ppm"] =
      .ok { rom := "long.ch8", font? := some "short.fnt", ppm? := some "out.ppm" } := by
    decide +kernel
  have parsedListing : parse ["--font=short.fnt", "long.ch8", "--disassemble"] =
      .ok { rom := "long.ch8", font? := some "short.fnt", disassemble := true } := by
    decide +kernel
  have parsedRun : parse ["-c2", "cls.ch8"] = .ok { rom := "cls.ch8", cycles := 2 } := by
    decide +kernel
  have parsedPicture : parse ["-c2", "cls.ch8", "--ppm", "out.ppm"] =
      .ok { rom := "cls.ch8", cycles := 2, ppm? := some "out.ppm" } := by
    decide +kernel
  obtain ⟨short, listed, fits, shown⟩ :
      Options.firstObstacle? { rom := "long.ch8", font? := some "short.fnt", ppm? := some "out.ppm" }
        FileTree.system crowded = some (.load (.wrongFontSize 3)) ∧
      Options.firstObstacle? { rom := "long.ch8", font? := some "short.fnt", disassemble := true }
        FileTree.system crowded = none ∧
      Options.firstObstacle? { rom := "cls.ch8", cycles := 2 } FileTree.system crowded = none ∧
      Options.firstObstacle? { rom := "cls.ch8", cycles := 2, ppm? := some "out.ppm" } noRoom
        crowded = none := by
    decide +kernel
  have held : crowded.read "long.ch8" = .ok (List.replicate 3585 0x61) := by decide +kernel
  obtain ⟨-, fails, -⟩ :=
    first_obstacle_decides parsed (by decide) FileTree.system crowded none (Vector.replicate 8 0)
  obtain ⟨-, -, lists⟩ := first_obstacle_decides parsedListing (by decide) FileTree.system crowded
    none (Vector.replicate 8 0)
  obtain ⟨-, -, runs⟩ :=
    first_obstacle_decides parsedRun (by decide) FileTree.system crowded none (Vector.replicate 8 0)
  obtain ⟨-, -, pictures⟩ :=
    first_obstacle_decides parsedPicture (by decide) noRoom crowded none (Vector.replicate 8 0)
  obtain ⟨image, read, asked, -⟩ := lists listed
  obtain ⟨ending, -, rows, -⟩ := asked rfl
  obtain ⟨_, _, _, run⟩ := runs fits
  obtain ⟨_, _, _, _, _, frame, -⟩ := run rfl
  obtain ⟨_, _, _, picture⟩ := pictures shown
  obtain ⟨_, _, _, _, concludes, pictureFrame, -⟩ := picture rfl
  obtain ⟨status, errors⟩ := concludes.unwritten "out.ppm" .noSpace rfl rfl
  cases held.symm.trans read
  refine ⟨parsed, (fails _ short).1, ?_, frame, _,
    Prod.ext rfl (concludes.left "out.ppm" rfl), status, pictureFrame, errors⟩
  rw [List.length_replicate] at rows
  rw [Script.runIn, ending]
  exact ⟨rfl, rows⟩

end CommandLine

end ChipEight
