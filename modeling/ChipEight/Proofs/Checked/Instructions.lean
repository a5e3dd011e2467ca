/-
Module: ChipEight.Proofs.Checked.Instructions
Purpose: The instructions and the host's operations as actions on plain arrays. They read and write
  cell by cell in the order in which a machine does it; sprites are drawn by two loops that stop or
  wrap at the edges, registers are moved one after the other, and a call or a return looks at the
  stack pointer first.
Main exports: run, fetch, execute, respond, State.after, build
-/
import ChipEight.Proofs.Checked.State

namespace ChipEight.Checked

/-! ### Sprites -/

/-- Draws the columns of one row of a sprite, as far as the edge allows. `hit` tells whether a lit
    pixel was met before. -/
def drawRow (wraps : Bool) (left y : Nat) (row : UInt8) (hit : Bool) : List (Fin 8) → Action Bool
  | [] => pure hit
  | column :: rest =>
    if row &&& (0x80 >>> UInt8.ofNat column) = 0 then drawRow wraps left y row hit rest
    else if left + column < Screen.width then do
      let lit ← toggle (left + column) y
      drawRow wraps left y row (hit || lit) rest
    else if wraps then do
      let lit ← toggle ((left + column) % Screen.width) y
      drawRow wraps left y row (hit || lit) rest
    else pure hit

def drawRowAt (wraps : Bool) (left y r : Nat) (hit : Bool) : Action Bool := do
  let index ← get State.index
  let row ← readByte (index + UInt16.ofNat r)
  drawRow wraps left y row hit (List.finRange 8)

/-- Draws the rows of a sprite, as far as the edge allows. -/
def drawRows (wraps : Bool) (left top : Nat) (hit : Bool) : List Nat → Action Bool
  | [] => pure hit
  | r :: rest =>
    if top + r < Screen.height then do
      let hit ← drawRowAt wraps left (top + r) r hit
      drawRows wraps left top hit rest
    else if wraps then do
      let hit ← drawRowAt wraps left ((top + r) % Screen.height) r hit
      drawRows wraps left top hit rest
    else pure hit

/-- Draws a sprite of `n` rows, and tells whether it met a lit pixel. -/
def drawSprite (x y : UInt8) (n : Nat) (wraps : Bool) : Action Bool := do
  let hit ← drawRows wraps (x.toNat % Screen.width) (y.toNat % Screen.height) false (List.range n)
  update fun s => { s with pending := true }
  pure hit

/-! ### Keys, registers and conditions -/

/-- The first key that is down and not held. -/
def findKey (keys held : Vector Bool 16) : List Nat → Action (Option Nat)
  | [] => pure none
  | k :: rest => do
    let down ← lookup keys k
    if down then do
      let before ← lookup held k
      if before then findKey keys held rest else pure (some k)
    else findKey keys held rest

/-- One look at the keypad while waiting for a key. -/
def awaitKey (x : Nat) : Action Flow := do
  let keys ← get State.keys
  let held? ← get State.keysHeld?
  let held := Vector.zipWith (· && ·) (held?.getD keys) keys
  update fun s => { s with keysHeld? := some held }
  let found ← findKey keys held (List.range 16)
  match found with
  | some k => do
    setRegister x (UInt8.ofNat k)
    update fun s => { s with keysHeld? := none }
    pure .next
  | none => pure .stay

/-- Writes registers to memory, one after the other. -/
def storeEach : List Nat → Action Unit
  | [] => pure ()
  | r :: rest => do
    let index ← get State.index
    let value ← register r
    writeByte (index + UInt16.ofNat r) value
    storeEach rest

/-- Reads registers from memory, one after the other. -/
def loadEach : List Nat → Action Unit
  | [] => pure ()
  | r :: rest => do
    let index ← get State.index
    let value ← readByte (index + UInt16.ofNat r)
    setRegister r value
    loadEach rest

/-- Moves I behind the last register, where the dialect says so. -/
def moveIndex (x : Nat) : Action Unit := do
  let dialect ← get State.dialect
  if dialect.transferMovesIndex then do
    let count ← addWord (UInt16.ofNat x) 1
    update fun s => { s with index := s.index + count }
  else pure ()

def storeRegisters (x : Nat) : Action Unit := do
  storeEach (List.range (x + 1))
  moveIndex x

def loadRegisters (x : Nat) : Action Unit := do
  loadEach (List.range (x + 1))
  moveIndex x

/-- The address of a glyph, with the font at the start of memory. -/
def glyphAddress (digit : UInt8) : Action UInt16 := do
  let glyph ← mulWord digit.toUInt16 (UInt16.ofNat Font.glyphSize)
  addWord 0 glyph

def holds : Condition → Action Bool
  | .equalsByte x nn => do
    let a ← register x
    pure (a == nn)
  | .differsFromByte x nn => do
    let a ← register x
    pure (a != nn)
  | .equals x y => do
    let a ← register x
    let b ← register y
    pure (a == b)
  | .differs x y => do
    let a ← register x
    let b ← register y
    pure (a != b)
  | .keyDown x => do
    let a ← register x
    key (a &&& 0xF).toNat
  | .keyUp x => do
    let a ← register x
    let down ← key (a &&& 0xF).toNat
    pure !down

/-! ### Instructions -/

def combine (op : Operator) (x y : Nat) : Action Unit := do
  let dialect ← get State.dialect
  let a ← register x
  let b ← register y
  match op.apply dialect a b with
  | (value, some flag) => do
    setFlag flag
    setRegister x value
  | (value, none) => setRegister x value

/-- Carries out an instruction, or says why it cannot be carried out. -/
def run : Instruction → Action (Except Fault Flow)
  | .clearScreen => do
    clear
    pure (.ok .next)
  | .ret => do
    let pointer ← get State.stackPointer
    let pc ← get State.pc
    if pointer = 0 then pure (.error (.stackUnderflow pc))
    else do
      let caller ← pop
      pure (.ok (.jump (caller + 2)))
  | .jump addr => pure (.ok (.jump (UInt16.ofNat addr)))
  | .call addr => do
    let pointer ← get State.stackPointer
    let pc ← get State.pc
    if Machine.stackDepth ≤ pointer.toNat then pure (.error (.stackOverflow pc))
    else do
      push pc
      pure (.ok (.jump (UInt16.ofNat addr)))
  | .skipIf condition => do
    let met ← holds condition
    pure (.ok (.skipIf met))
  | .loadByte x nn => do
    setRegister x nn
    pure (.ok .next)
  | .addByte x nn => do
    let a ← register x
    setRegister x (a + nn)
    pure (.ok .next)
  | .combine op x y => do
    combine op x y
    pure (.ok .next)
  | .loadIndex addr => do
    update fun s => { s with index := UInt16.ofNat addr }
    pure (.ok .next)
  | .jumpOffset addr => do
    let dialect ← get State.dialect
    let offset ← register
      (if dialect.jumpAddsVX then ((UInt16.ofNat addr >>> 8) &&& 0xF).toNat else 0)
    pure (.ok (.jump (UInt16.ofNat addr + offset.toUInt16)))
  | .random x nn => do
    let generator ← get State.generator
    update fun s => { s with generator := generator.next.2 }
    setRegister x (generator.next.1.toUInt8 &&& nn)
    pure (.ok .next)
  | .draw x y n => do
    let dialect ← get State.dialect
    let a ← register x
    let b ← register y
    let hit ← drawSprite a b n dialect.wrapsSprites
    setFlag hit
    pure (.ok .next)
  | .loadDelay x => do
    let timer ← get State.delayTimer
    setRegister x timer
    pure (.ok .next)
  | .awaitKey x => do
    let flow ← awaitKey x
    pure (.ok flow)
  | .setDelay x => do
    let a ← register x
    update fun s => { s with delayTimer := a }
    pure (.ok .next)
  | .setSound x => do
    let a ← register x
    update fun s => { s with soundTimer := a }
    pure (.ok .next)
  | .addIndex x => do
    let index ← get State.index
    let a ← register x
    update fun s => { s with index := index + a.toUInt16 }
    setFlag (0xFFF < index + a.toUInt16)
    pure (.ok .next)
  | .loadGlyph x => do
    let a ← register x
    let index ← glyphAddress a
    update fun s => { s with index }
    pure (.ok .next)
  | .storeDecimal x => do
    let a ← register x
    let index ← get State.index
    writeByte index (a / 100)
    writeByte (index + 1) (a / 10 % 10)
    writeByte (index + 2) (a % 10)
    pure (.ok .next)
  | .storeRegisters x => do
    storeRegisters x
    pure (.ok .next)
  | .loadRegisters x => do
    loadRegisters x
    pure (.ok .next)

/-! ### Steps -/

/-- Reads the word at the program counter. -/
def fetch : Action Unit := do
  let pc ← get State.pc
  let word ← readWord pc
  update fun s => { s with opcode := word }

/-- Counts a fault and passes over the word. -/
def fail (fault : Fault) : Action Outcome := do
  let pc ← get State.pc
  let faults ← get State.faults
  let faults ← countUp faults
  update fun s => { s with faults, pc := pc + 2 }
  pure (.fault fault)

/-- Carries out the word that was fetched last. -/
def execute : Action Outcome := do
  let pc ← get State.pc
  let opcode ← get State.opcode
  match Instruction.decode opcode with
  | some i => do
    let result ← run i
    match result with
    | .ok .stay => pure .waiting
    | .ok flow => do
      update fun s => { s with pc := flow.target pc }
      pure (.executed i)
    | .error fault => fail fault
  | none => fail (.unknownOpcode opcode pc)

def tick : Action Unit :=
  update fun s =>
    { s with
      delayTimer := Machine.countDown s.delayTimer
      soundTimer := Machine.countDown s.soundTimer }

/-! ### Loading and restarting -/

/-- Puts everything but the font to its initial value. -/
def restart : Action Unit := do
  update fun s => { s with memory := Vector.replicate 4096 0 }
  let font ← get State.font
  copy 0 font.toList
  update fun s =>
    { s with
      registers := Vector.replicate 16 0
      index := 0
      pc := UInt16.ofNat Machine.programStart
      stack := Vector.replicate 16 0
      stackPointer := 0
      delayTimer := 0
      soundTimer := 0 }
  clear
  update fun s =>
    { s with keys := Vector.replicate 16 false, opcode := 0, keysHeld? := none }

/-- Copies a program to its place, unless it is too large. -/
def loadProgram (image : List UInt8) : Action (Except LoadError Unit) :=
  if Machine.maxProgramSize < image.length then pure (.error (.programTooLarge image.length))
  else do
    copy Machine.programStart image
    pure (.ok ())

/-- Takes another font, unless its size is wrong. -/
def loadFont (bytes : List UInt8) : Action (Except LoadError Unit) :=
  match Font.ofBytes? bytes with
  | none => pure (.error (.wrongFontSize bytes.length))
  | some font => do
    update fun s => { s with font }
    copy 0 bytes
    pure (.ok ())

/-- Restarts, loads the program again and forgets the faults. -/
def reset : Action (Except LoadError Unit) := do
  restart
  let program ← get State.program
  let loaded ← loadProgram program
  match loaded with
  | .ok () => do
    update fun s => { s with faults := 0 }
    pure (.ok ())
  | .error e => pure (.error e)

/-! ### The host -/

def respondScreen : Screen.Operation → Action Screen.Answer
  | .toggle x y => do
    let lit ← toggle x y
    pure (.flag lit)
  | .pixel x y => do
    let byte ← cell x y
    pure (.flag (byte != 0))
  | .clear => do
    clear
    pure .done
  | .isPending => do
    let pending ← get State.pending
    pure (.flag pending)
  | .setPending pending => do
    update fun s => { s with pending }
    pure .done
  | .takePending => do
    let pending ← get State.pending
    update fun s => { s with pending := false }
    pure (.flag pending)
  | .colors palette => do
    let cells ← get State.cells
    pure (.colors (cells.toList.map palette.color))

/-- What a host is told of a load. -/
def loadAnswer : Except LoadError Unit → Machine.Answer
  | .ok () => .loaded
  | .error e => .rejected e

def respondMachine : Machine.Operation → Action Machine.Answer
  | .screen operation => do
    let answer ← respondScreen operation
    pure (.screen answer)
  | .restart => do
    restart
    pure .done
  | .loadProgram image => do
    let loaded ← loadProgram image
    pure (loadAnswer loaded)
  | .loadFont bytes => do
    let loaded ← loadFont bytes
    pure (loadAnswer loaded)
  | .tick => do
    tick
    pure .done
  | .setDelayTimer value => do
    update fun s => { s with delayTimer := value }
    pure .done
  | .setSoundTimer value => do
    update fun s => { s with soundTimer := value }
    pure .done
  | .setKey k down => do
    let keys ← get State.keys
    let keys ← replace keys (k &&& 0xF).toNat down
    update fun s => { s with keys }
    pure .done
  | .setKeypad keypad => do
    update fun s => { s with keys := keypad.keys }
    pure .done
  | .setRegister number value => do
    setRegister (number &&& 0xF) value
    pure .done
  | .setIndex value => do
    update fun s => { s with index := value }
    pure .done
  | .register number => do
    let value ← register (number &&& 0xF)
    pure (.byte value)
  | .memory start length => do
    let memory ← get State.memory
    pure (.bytes (Memory.slice ⟨memory⟩ start length))

/-- Carries out an operation on the interpreter. -/
def respond : Interpreter.Operation → Action Interpreter.Answer
  | .machine operation => do
    let answer ← respondMachine operation
    pure (.machine answer)
  | .fetch => do
    fetch
    pure .done
  | .execute => do
    let outcome ← execute
    pure (.outcome outcome)
  | .step => do
    fetch
    let outcome ← execute
    pure (.outcome outcome)
  | .tick => do
    tick
    pure .done
  | .reset => do
    let loaded ← reset
    match loaded with
    | .ok () => pure .restored
    | .error e => pure (.rejected e)

/-- The state after some operations; a trap ends its operation, and the next one goes on from the
    state that it left. -/
def State.after (s : State) (operations : List Interpreter.Operation) : State :=
  operations.foldl (fun s operation => (respond operation s).2) s

/-- All arrays before anything is put into them. -/
def State.blank (setup : Setup) (entropy : Cipher.Key) : State where
  memory := Vector.replicate 4096 0
  registers := Vector.replicate 16 0
  index := 0
  pc := UInt16.ofNat Machine.programStart
  stack := Vector.replicate 16 0
  stackPointer := 0
  delayTimer := 0
  soundTimer := 0
  cells := Array.replicate 2048 0
  pending := true
  keys := Vector.replicate 16 false
  opcode := 0
  keysHeld? := none
  font := Font.standard
  dialect := setup.dialect
  generator := match setup.seed? with
    | some seed => Generator.seeded seed
    | none => ⟨entropy, 0⟩
  program := setup.program
  faults := 0

/-- Sets up a blank state as the choices ask for. -/
def build (setup : Setup) : Action (Except LoadError Unit) := do
  restart
  let fonted ← match setup.font? with
    | some bytes => loadFont bytes
    | none => pure (.ok ())
  match fonted with
  | .ok () => loadProgram setup.program
  | .error e => pure (.error e)

end ChipEight.Checked
