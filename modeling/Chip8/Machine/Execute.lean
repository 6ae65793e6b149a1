import Chip8.Instruction.Arithmetic
import Chip8.Instruction.Basic
import Chip8.Machine.Basic

/-!
What every instruction does. An instruction fails only by naming a register that the machine
does not have; what it did before that stays done, and the program counter stays where it was.
-/

namespace Chip8.Machine

variable {σ : Type}

/-- A change of the machine that may fail. The machine outlives the failure. -/
abbrev Exec (σ : Type) := EStateM Fault (Machine σ)

/-- Where the program counter goes after an instruction. -/
inductive Flow
  | next
  | skip
  | jump (address : UInt16)
  | stay
deriving DecidableEq, Repr

/-- The program counter after an instruction at `pc`. -/
def Flow.target (pc : UInt16) : Flow → UInt16
  | .next => pc + 2
  | .skip => pc + 4
  | .jump address => address
  | .stay => pc

def Flow.skipIf (condition : Bool) : Flow :=
  if condition then .skip else .next

/-- The register an operand names. -/
def lookup (k : UInt8) : Exec σ (Fin 16) :=
  match Registers.find? k with
  | some register => pure register
  | none => throw (.noSuchRegister k.toNat)

/-- The byte in the register an operand names. -/
def readRegister (k : UInt8) : Exec σ UInt8 := do
  let register ← lookup k
  return (← get).registers.get register

/-- Puts a byte into the register an operand names. -/
def writeRegister (k byte : UInt8) : Exec σ Unit := do
  let register ← lookup k
  modify fun m => {m with registers := m.registers.set register byte}

/-- Fails when an operand reaches beyond the registers, on the first one that is missing. -/
def withinRegisters (x : UInt8) : Exec σ Unit :=
  if x.toNat < 16 then pure () else throw (.noSuchRegister 16)

/-- Moves the index behind the register stored or loaded last, where the settings ask for it. -/
def moveIndex (x : UInt8) (m : Machine σ) : Machine σ :=
  if m.settings.movesIndex then
    {m with registers.index := m.registers.index + x.toUInt16 + 1}
  else m

/-- Stores the registers up to `x` at the index. -/
def storeUpTo (x : UInt8) (m : Machine σ) : Machine σ :=
  {m with memory := m.memory.overlay m.registers.index (m.registers.upTo x)}

/-- Loads the registers up to `x` from the index. -/
def loadUpTo (x : UInt8) (m : Machine σ) : Machine σ :=
  {m with registers :=
    m.registers.replaceUpTo x fun k => m.memory.read (m.registers.index + k.val.toUInt16)}

/-- Toggles the pixels of the sprite at the index, with its corner at `(x, y)`, and raises the
flag when that darkened a lit one. -/
def drawSprite (x y height : UInt8) (m : Machine σ) : Machine σ :=
  let sprite := m.memory.slice m.registers.index height.toNat
  let (hits, screen) := m.screen.toggleAll (Screen.spritePixels x.toNat y.toNat sprite)
  {m with screen := screen, registers := m.registers.setFlag (0 < hits)}

/-- Combines two registers into the first. The flag is worked out before that changes and is
written last, so it stands when the first is the flag itself. -/
def combine (op : AluOp) (target other : Fin 16) (m : Machine σ) : Machine σ :=
  let r := m.registers
  let (byte, flag) := op.apply (r.get target) (r.get other)
  let r := r.set target byte
  {m with registers :=
    match flag with
    | some on => r.setFlag on
    | none => r}

/-- Starts to wait for a key, whatever was pressed before. -/
def beginWait (x : UInt8) (m : Machine σ) : Machine σ :=
  {m with keypad := m.keypad.beginWait, mode := .waitingForKey x}

/-- Takes a byte from the random source. -/
def drawByte : Exec σ UInt8 :=
  modifyGet fun m =>
    let (word, random) := m.random.next
    (word.toUInt8, {m with random := random})

/-- The effect of an instruction on everything but the program counter, and where that goes. -/
def effect [Display σ] : Instruction → Exec σ Flow
  | .clearScreen => do
      modify fun m => refresh {m with screen := .blank}
      return .next
  | .ret => do
      let (address, stack) := (← get).stack.pop
      modify fun m => {m with stack := stack}
      return .jump (address + 2)
  | .jump address => return .jump address
  | .call address => do
      modify fun m => {m with stack := m.stack.push m.registers.pc}
      return .jump address
  | .skipEq x value => return .skipIf ((← readRegister x) == value)
  | .skipNe x value => return .skipIf ((← readRegister x) != value)
  | .skipEqReg x y => do
      let a ← readRegister x
      let b ← readRegister y
      return .skipIf (a == b)
  | .skipNeReg x y => do
      let a ← readRegister x
      let b ← readRegister y
      return .skipIf (a != b)
  | .load x value => do
      writeRegister x value
      return .next
  | .add x value => do
      writeRegister x ((← readRegister x) + value)
      return .next
  | .alu op x y => do
      let target ← lookup x
      let other ← lookup y
      modify (combine op target other)
      return .next
  | .loadIndex address => do
      modify fun m => {m with registers.index := address}
      return .next
  | .jumpOffset address => do
      let offset := (← get).registers.get Registers.offsetRegister
      return .jump (offset.toUInt16 + address)
  | .random x mask => do
      let byte ← drawByte
      writeRegister x (byte &&& mask)
      return .next
  | .draw x y height => do
      let a ← readRegister x
      let b ← readRegister y
      modify fun m => refresh (drawSprite a b height m)
      return .next
  | .skipDown x => do
      let key ← readRegister x
      return .skipIf ((← get).keypad.isDown key)
  | .skipUp x => do
      let key ← readRegister x
      return .skipIf (!(← get).keypad.isDown key)
  | .readDelay x => do
      writeRegister x (← get).timers.delay
      return .next
  | .awaitKey x => do
      modify (beginWait x)
      return .stay
  | .setDelay x => do
      let byte ← readRegister x
      modify fun m => {m with timers.delay := byte}
      return .next
  | .setSound x => do
      let byte ← readRegister x
      modify fun m => {m with timers.sound := byte}
      return .next
  | .addIndex x => do
      let byte ← readRegister x
      modify fun m => {m with registers.index := m.registers.index + byte.toUInt16}
      return .next
  | .loadGlyph x => do
      let byte ← readRegister x
      modify fun m => {m with registers.index := byte.toUInt16 * glyphHeight.toUInt16}
      return .next
  | .storeDigits x => do
      let byte ← readRegister x
      modify fun m => {m with memory := m.memory.overlay m.registers.index (decimalDigits byte)}
      return .next
  | .storeRegisters x => do
      modify (storeUpTo x)
      withinRegisters x
      modify (moveIndex x)
      return .next
  | .loadRegisters x => do
      modify (loadUpTo x)
      withinRegisters x
      modify (moveIndex x)
      return .next
  | .unknown _ => return .next

/-- Executes an instruction as if it had been fetched at the program counter. -/
def execute [Display σ] (i : Instruction) : Exec σ Unit := do
  let flow ← effect i
  modify fun m => {m with registers.pc := flow.target m.registers.pc}

/-- Executes instructions one after the other, up to the first that fails. -/
def executeAll [Display σ] : List Instruction → Exec σ Unit
  | [] => return ()
  | i :: rest => do
      execute i
      executeAll rest

theorem executeAll_cons_of_ok [Display σ] {m m' : Machine σ} {i : Instruction}
    (h : execute i m = .ok () m') (rest : List Instruction) :
    executeAll (i :: rest) m = executeAll rest m' := by
  simp only [executeAll, bind, EStateM.bind, h]

theorem executeAll_cons_of_error [Display σ] {m m' : Machine σ} {i : Instruction} {fault : Fault}
    (h : execute i m = .error fault m') (rest : List Instruction) :
    executeAll (i :: rest) m = .error fault m' := by
  simp only [executeAll, bind, EStateM.bind, h]

end Chip8.Machine
