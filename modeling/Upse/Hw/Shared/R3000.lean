import Upse.Lib.ErrorState
import Upse.Support.Integers

/-!
# The R3000 interpreter

The MIPS-I core both machines execute guest code with.  The consumer owns address translation and
devices: the core reaches them through a `Bus`, whose failures are host failures and not
architectural traps.  The core models one branch slot and one load-delay slot.
-/

namespace Upse.R3000

open ErrorState

/-- The type of a failing bus transaction. -/
inductive AccessType where
  | instruction
  | load
  | store
  deriving DecidableEq, Repr

/-- Consumer-owned memory and interrupt interface over the devices `β`, failing with `F`. -/
structure Bus (F β : Type) where
  readU8 : Word → EStateM F β (BitVec 8)
  readU16 : Word → EStateM F β (BitVec 16)
  readU32 : Word → EStateM F β Word
  writeU8 : Word → BitVec 8 → EStateM F β Unit
  writeU16 : Word → BitVec 16 → EStateM F β Unit
  writeU32 : Word → Word → EStateM F β Unit
  interruptPending : β → Bool

/-- Reset and exception-vector policy supplied by a machine profile. -/
structure ResetProfile where
  pc : Word
  exceptionVector : Word
  bootstrapExceptionVector : Word
  status : Word
  processorId : Word
  deriving DecidableEq, Repr

/-- Visibility of a completed load to the immediately following instruction. -/
inductive LoadDelayMode where
  | architectural
  | interlocked
  deriving DecidableEq, Repr

/-- Handling of misaligned word data accesses. -/
inductive WordAlignmentMode where
  | architectural
  | alignDown
  deriving DecidableEq, Repr

/-- Availability and behavior of the second coprocessor. -/
inductive Coprocessor2Mode where
  | disabled
  | stub
  deriving DecidableEq, Repr

/-- Handling of a control transfer in another branch's delay slot. -/
inductive DelaySlotBranchMode where
  | preserve
  | suppressWhenOuterTaken
  deriving DecidableEq, Repr

/-- The branch whose delay slot is executed. -/
structure DelaySlotState where
  branchPc : Word
  branchTaken : Bool
  deriving DecidableEq, Repr

/-- Implemented architectural exception classes. -/
inductive Exception where
  | interrupt
  | addressLoad
  | addressStore
  | syscall
  | breakpoint
  | reservedInstruction
  | coprocessorUnusable
  | overflow
  deriving DecidableEq, Repr

/-- The code in `Cause`. -/
def Exception.code : Exception → Word
  | .interrupt => 0
  | .addressLoad => 4
  | .addressStore => 5
  | .syscall => 8
  | .breakpoint => 9
  | .reservedInstruction => 10
  | .coprocessorUnusable => 11
  | .overflow => 12

def causeBd : Word := 1 <<< 31
def causeIp2 : Word := 1 <<< 10
def statusBev : Word := 1 <<< 22

/-- The coprocessor-zero registers. -/
structure Cop0 where
  badVaddr : Word
  status : Word
  cause : Word
  epc : Word
  processorId : Word
  deriving DecidableEq, Repr

namespace Cop0

/-- Reads a control register. -/
def read (cop0 : Cop0) (index : ℕ) : Option Word :=
  match index with
  | 8 => some cop0.badVaddr
  | 12 => some cop0.status
  | 13 => some cop0.cause
  | 14 => some cop0.epc
  | 15 => some cop0.processorId
  | _ => none

/-- Writes a register, or reports that it is not writable. -/
def write (cop0 : Cop0) (index : ℕ) (value : Word) : Option Cop0 :=
  match index with
  | 8 => some { cop0 with badVaddr := value }
  | 12 => some { cop0 with status := value }
  | 13 => some { cop0 with cause := (cop0.cause &&& ~~~(0x300 : Word)) ||| (value &&& 0x300) }
  | 14 => some { cop0 with epc := value }
  | _ => none

end Cop0

/-- Observable event produced by one interpreter step. -/
inductive StepEvent where
  | instruction
  | exception (exception : Exception)
  deriving DecidableEq, Repr

/-- Result of one bounded interpreter step. -/
structure StepOutcome where
  pc : Word
  instruction : Option Word
  cycles : ℕ
  event : StepEvent
  deriving DecidableEq, Repr

/-- Host-visible interpreter failure. -/
structure CpuError (F : Type) where
  pc : Word
  address : Word
  access : AccessType
  source : F
  deriving DecidableEq, Repr

/-- Complete movable architectural state. -/
structure Cpu where
  registers : Vector Word 32
  hi : Word
  lo : Word
  pc : Word
  nextPc : Word
  delaySlot : Option DelaySlotState
  pendingLoad : Option (Fin 32 × Word)
  cop0 : Cop0
  cop2Data : Vector Word 32
  cop2Control : Vector Word 32
  profile : ResetProfile
  loadDelayMode : LoadDelayMode
  wordAlignmentMode : WordAlignmentMode
  coprocessor2Mode : Coprocessor2Mode
  delaySlotBranchMode : DelaySlotBranchMode
  deriving DecidableEq, Repr

namespace Cpu

/-- Reset state with an explicit load-delay policy. -/
def withLoadDelayMode (profile : ResetProfile) (loadDelayMode : LoadDelayMode) : Cpu where
  registers := .replicate 32 0
  hi := 0
  lo := 0
  pc := profile.pc
  nextPc := profile.pc + 4
  delaySlot := none
  pendingLoad := none
  cop0 := ⟨0, profile.status, 0, 0, profile.processorId⟩
  cop2Data := .replicate 32 0
  cop2Control := .replicate 32 0
  profile := profile
  loadDelayMode := loadDelayMode
  wordAlignmentMode := .architectural
  coprocessor2Mode := .disabled
  delaySlotBranchMode := .preserve

/-- Reset state for a machine profile. -/
def new (profile : ResetProfile) : Cpu := withLoadDelayMode profile .architectural

/-- A general-purpose register. -/
def register (cpu : Cpu) (index : ℕ) : Option Word := cpu.registers[index]?

/-- Writes a register, keeping register zero. -/
def writeRegister (cpu : Cpu) (index : Fin 32) (value : Word) : Cpu :=
  if index = 0 then cpu else { cpu with registers := cpu.registers.set index value }

/-- Sets a general-purpose register for machine initialization; an index out of range is ignored. -/
def setRegister (cpu : Cpu) (index : ℕ) (value : Word) : Cpu :=
  if h : index < 32 then cpu.writeRegister ⟨index, h⟩ value else cpu

/-- Sets the current instruction address and clears the pipeline delays. -/
def setPc (cpu : Cpu) (pc : Word) : Cpu :=
  { cpu with pc := pc, nextPc := pc + 4, delaySlot := none, pendingLoad := none }

/-- Replaces the multiply/divide result registers. -/
def setHiLo (cpu : Cpu) (hi lo : Word) : Cpu := { cpu with hi := hi, lo := lo }

/-- Lets a pending load, then the current instruction's write, reach the registers. -/
def commitOldLoad (cpu : Cpu) (currentWrite : Option (Fin 32 × Word)) : Cpu :=
  let loaded := match cpu.pendingLoad with
    | some (register, value) => { cpu with pendingLoad := none }.writeRegister register value
    | none => cpu
  match currentWrite with
  | some (register, value) => loaded.writeRegister register value
  | none => loaded

/-- Samples the interrupt line. -/
def updateInterruptLine (cpu : Cpu) (pending : Bool) : Cpu :=
  { cpu with cop0.cause :=
      if pending then cpu.cop0.cause ||| causeIp2 else cpu.cop0.cause &&& ~~~causeIp2 }

/-- Whether an unmasked interrupt is pending. -/
def interruptEnabled (cpu : Cpu) : Bool :=
  cpu.cop0.status &&& 1 != 0 && cpu.cop0.status &&& cpu.cop0.cause &&& 0xff00 != 0

/-- Enters the exception vector: the cause, the return address (of the branch, in its delay slot),
the mode stack and the vector the status selects. -/
def enterException (cpu : Cpu) (exception : Exception) (pc : Word) (delayBranchPc : Option Word)
    (badVaddr : Option Word) : Cpu :=
  let cause := (cpu.cop0.cause &&& ~~~((0x7c : Word) ||| causeBd)) ||| (exception.code <<< 2)
  let status := (cpu.cop0.status &&& ~~~(0x3f : Word)) ||| ((cpu.cop0.status <<< 2) &&& 0x3f)
  let vector := if status &&& statusBev != 0 then cpu.profile.bootstrapExceptionVector
    else cpu.profile.exceptionVector
  { cpu with
    cop0 := { cpu.cop0 with
      cause := if delayBranchPc.isSome then cause ||| causeBd else cause
      epc := delayBranchPc.getD pc
      badVaddr := badVaddr.getD cpu.cop0.badVaddr
      status := status }
    pc := vector
    nextPc := vector + 4
    delaySlot := none
    pendingLoad := none }

/-- The register an unaligned load merges into: the load in flight when it targets the register. -/
def mergeBase (cpu : Cpu) (register : Fin 32) : Word :=
  match cpu.pendingLoad with
  | some (pending, value) => if pending = register then value else cpu.registers[register]
  | none => cpu.registers[register]

end Cpu

/-- Registers after a write, which register zero ignores. -/
def written (registers : Vector Word 32) : Option (Fin 32 × Word) → Vector Word 32
  | some (register, value) => if register = 0 then registers else registers.set register value
  | none => registers

/-! ### What an instruction does to the pipeline -/

/-- The effects of one instruction that the step commits. -/
structure Execution where
  registerWrite : Option (Fin 32 × Word)
  delayedWrite : Option (Fin 32 × Word)
  branchTarget : Option Word
  isBranch : Bool
  exception : Option Exception
  badVaddr : Option Word
  cycles : ℕ
  deriving DecidableEq, Repr

namespace Execution

/-- An instruction without effect, of one cycle. -/
def default : Execution := ⟨none, none, none, false, none, none, 1⟩

/-- Writes a register. -/
def write (result : Execution) (register : Fin 32) (value : Word) : Execution :=
  { result with registerWrite := some (register, value) }

/-- Writes a register after the load delay. -/
def load (result : Execution) (register : Fin 32) (value : Word) : Execution :=
  { result with delayedWrite := some (register, value), cycles := 2 }

/-- Branches. -/
def branch (result : Execution) (target : Word) : Execution :=
  { result with isBranch := true, branchTarget := some target }

/-- Branches on a condition, with a delay slot in either case. -/
def conditionalBranch (result : Execution) (condition : Bool) (pc : Word)
    (immediate : BitVec 16) : Execution :=
  { result with
    isBranch := true
    branchTarget := if condition then some (pc + 4 + (immediate.signExtend 32 <<< 2))
      else result.branchTarget }

/-- Raises an exception. -/
def trap (result : Execution) (exception : Exception) : Execution :=
  { result with exception := some exception }

/-- Raises an exception at an address. -/
def addressException (result : Execution) (exception : Exception) (address : Word) : Execution :=
  { result with exception := some exception, badVaddr := some address }

/-- Sets the cycles taken. -/
def charge (result : Execution) (cycles : ℕ) : Execution := { result with cycles := cycles }

end Execution

/-- The target of an absolute jump. -/
def jumpTarget (pc instruction : Word) : Word :=
  ((pc + 4) &&& 0xf0000000) ||| ((instruction &&& 0x03ffffff) <<< 2)

/-- Signed division as the multiply/divide unit does it, as high and low result. -/
def signedDivide (numerator denominator : Word) : Word × Word :=
  if denominator = 0 then (numerator, if 0 ≤ numerator.toInt then -1 else 1)
  else if numerator = BitVec.intMin 32 ∧ denominator = -1 then (0, BitVec.intMin 32)
  else (numerator.srem denominator, numerator.sdiv denominator)

/-- The processor and the devices on its bus. -/
structure CpuBus (β : Type) where
  cpu : Cpu
  devices : β

section Execute

variable {F β : Type} (bus : Bus F β)

/-- Programs of the interpreter. -/
abbrev Exec (F β α : Type) := EStateM (CpuError F) (CpuBus β) α

/-- One bus transaction of the instruction at `pc`. -/
def access {α : Type} (pc address : Word) (kind : AccessType) (transaction : EStateM F β α) :
    Exec F β α :=
  zoom CpuBus.devices (fun devices s => { s with devices := devices })
    (fun source => ⟨pc, address, kind, source⟩) transaction

/-- Loads a byte. -/
def loadU8 (pc address : Word) : Exec F β (BitVec 8) :=
  access pc address .load (bus.readU8 address)

/-- Loads a halfword. -/
def loadU16 (pc address : Word) : Exec F β (BitVec 16) :=
  access pc address .load (bus.readU16 address)

/-- Loads a word. -/
def loadU32 (pc address : Word) : Exec F β Word :=
  access pc address .load (bus.readU32 address)

/-- Stores a byte. -/
def storeU8 (pc address : Word) (value : BitVec 8) : Exec F β Unit :=
  access pc address .store (bus.writeU8 address value)

/-- Stores a halfword. -/
def storeU16 (pc address : Word) (value : BitVec 16) : Exec F β Unit :=
  access pc address .store (bus.writeU16 address value)

/-- Stores a word. -/
def storeU32 (pc address value : Word) : Exec F β Unit :=
  access pc address .store (bus.writeU32 address value)

/-- Changes the processor. -/
def modifyCpu (f : Cpu → Cpu) : Exec F β Unit := modify fun s => { s with cpu := f s.cpu }

/-- A five-bit register field. -/
def field (instruction : Word) (lsb : ℕ) : Fin 32 := Fin.ofNat 32 (instruction >>> lsb).toNat

/-- Register-to-register instructions (opcode zero). -/
def executeSpecial (pc instruction left right : Word) (rd : Fin 32) : Exec F β Execution := do
  let result := Execution.default
  let shift := ((instruction >>> 6) &&& 31).toNat
  let amount := (left &&& 31).toNat
  match (instruction &&& 63).toNat with
  | 0x00 => return result.write rd (right <<< shift)
  | 0x02 => return result.write rd (right >>> shift)
  | 0x03 => return result.write rd (right.sshiftRight shift)
  | 0x04 => return result.write rd (right <<< amount)
  | 0x06 => return result.write rd (right >>> amount)
  | 0x07 => return result.write rd (right.sshiftRight amount)
  | 0x08 => return result.branch left
  | 0x09 => return (result.write rd (pc + 8)).branch left
  | 0x0c => return result.trap .syscall
  | 0x0d => return result.trap .breakpoint
  | 0x10 => return result.write rd (← get).cpu.hi
  | 0x11 =>
    modifyCpu fun cpu => { cpu with hi := left }
    return result
  | 0x12 => return result.write rd (← get).cpu.lo
  | 0x13 =>
    modifyCpu fun cpu => { cpu with lo := left }
    return result
  | 0x18 =>
    let product := left.signExtend 64 * right.signExtend 64
    modifyCpu (·.setHiLo ((product >>> 32).setWidth 32) (product.setWidth 32))
    return result.charge 6
  | 0x19 =>
    let product := left.setWidth 64 * right.setWidth 64
    modifyCpu (·.setHiLo ((product >>> 32).setWidth 32) (product.setWidth 32))
    return result.charge 6
  | 0x1a =>
    modifyCpu (·.setHiLo (signedDivide left right).1 (signedDivide left right).2)
    return result.charge 10
  | 0x1b =>
    if right = 0 then modifyCpu (·.setHiLo left (-1))
    else modifyCpu (·.setHiLo (left % right) (left / right))
    return result.charge 10
  | 0x20 =>
    if left.saddOverflow right then return result.trap .overflow
    else return result.write rd (left + right)
  | 0x21 => return result.write rd (left + right)
  | 0x22 =>
    if left.ssubOverflow right then return result.trap .overflow
    else return result.write rd (left - right)
  | 0x23 => return result.write rd (left - right)
  | 0x24 => return result.write rd (left &&& right)
  | 0x25 => return result.write rd (left ||| right)
  | 0x26 => return result.write rd (left ^^^ right)
  | 0x27 => return result.write rd (~~~(left ||| right))
  | 0x2a => return result.write rd (if left.slt right then 1 else 0)
  | 0x2b => return result.write rd (if left.ult right then 1 else 0)
  | _ => return result.trap .reservedInstruction

/-- Branches on the sign of a register (opcode one). -/
def executeBranchSign (pc left : Word) (rt : Fin 32) (immediate : BitVec 16) : Execution :=
  let result := Execution.default
  let linked := result.write 31 (pc + 8)
  match rt.val with
  | 0x00 => result.conditionalBranch (left.slt 0) pc immediate
  | 0x01 => result.conditionalBranch (!left.slt 0) pc immediate
  | 0x10 => linked.conditionalBranch (left.slt 0) pc immediate
  | 0x11 => linked.conditionalBranch (!left.slt 0) pc immediate
  | _ => result.trap .reservedInstruction

/-- An instruction of coprocessor 0. -/
def executeCop0 (rs rt rd : Fin 32) (function : Word) : Exec F β Execution := do
  let result := Execution.default
  let cpu := (← get).cpu
  match rs.val with
  | 0x00 =>
    match cpu.cop0.read rd with
    | some value => return result.load rt value
    | none => return result.trap .reservedInstruction
  | 0x04 =>
    match cpu.cop0.write rd cpu.registers[rt] with
    | some cop0 =>
      modifyCpu fun cpu => { cpu with cop0 := cop0 }
      return result
    | none => return result.trap .reservedInstruction
  | 0x10 =>
    if function = 0x10 then
      let status := cpu.cop0.status
      modifyCpu fun cpu =>
        { cpu with cop0.status := (status &&& ~~~(0x0f : Word)) ||| ((status >>> 2) &&& 0x0f) }
      return result
    else return result.trap .reservedInstruction
  | _ => return result.trap .reservedInstruction

/-- An instruction of coprocessor 2. -/
def executeCop2 (rs rt rd : Fin 32) : Exec F β Execution := do
  let result := Execution.default
  let cpu := (← get).cpu
  if rs = 0x00 then return result.load rt cpu.cop2Data[rd]
  else if rs = 0x02 then return result.load rt cpu.cop2Control[rd]
  else if rs = 0x04 then
    modifyCpu fun cpu => { cpu with cop2Data := cpu.cop2Data.set rd cpu.registers[rt] }
    return result
  else if rs = 0x06 then
    modifyCpu fun cpu => { cpu with cop2Control := cpu.cop2Control.set rd cpu.registers[rt] }
    return result
  else if 0x10 ≤ rs.val then return result
  else return result.trap .reservedInstruction

/-- Whether a word access raises an address exception. -/
def Cpu.misaligned (cpu : Cpu) (address : Word) : Bool :=
  address &&& 3 != 0 && cpu.wordAlignmentMode == .architectural

/-- Loads and stores, and the coprocessor-two transfers from and to memory. -/
def executeMemory (opcode : ℕ) (pc address right : Word) (rt : Fin 32) : Exec F β Execution := do
  let result := Execution.default
  let cpu := (← get).cpu
  let aligned := address &&& ~~~(3 : Word)
  let base := cpu.mergeBase rt
  match opcode with
  | 0x20 => return result.load rt ((← loadU8 bus pc address).signExtend 32)
  | 0x21 =>
    if address &&& 1 ≠ 0 then return result.addressException .addressLoad address
    else return result.load rt ((← loadU16 bus pc address).signExtend 32)
  | 0x22 =>
    let word ← loadU32 bus pc aligned
    return result.load rt (match (address &&& 3).toNat with
      | 0 => (base &&& 0x00ffffff) ||| (word <<< 24)
      | 1 => (base &&& 0x0000ffff) ||| (word <<< 16)
      | 2 => (base &&& 0x000000ff) ||| (word <<< 8)
      | _ => word)
  | 0x23 =>
    if cpu.misaligned address then return result.addressException .addressLoad address
    else return result.load rt (← loadU32 bus pc aligned)
  | 0x24 => return result.load rt ((← loadU8 bus pc address).setWidth 32)
  | 0x25 =>
    if address &&& 1 ≠ 0 then return result.addressException .addressLoad address
    else return result.load rt ((← loadU16 bus pc address).setWidth 32)
  | 0x26 =>
    let word ← loadU32 bus pc aligned
    return result.load rt (match (address &&& 3).toNat with
      | 0 => word
      | 1 => (base &&& 0xff000000) ||| (word >>> 8)
      | 2 => (base &&& 0xffff0000) ||| (word >>> 16)
      | _ => (base &&& 0xffffff00) ||| (word >>> 24))
  | 0x28 =>
    storeU8 bus pc address (right.setWidth 8)
    return result.charge 2
  | 0x29 =>
    if address &&& 1 ≠ 0 then return result.addressException .addressStore address
    else
      storeU16 bus pc address (right.setWidth 16)
      return result.charge 2
  | 0x2a =>
    let old ← loadU32 bus pc aligned
    storeU32 bus pc aligned (match (address &&& 3).toNat with
      | 0 => (old &&& 0xffffff00) ||| (right >>> 24)
      | 1 => (old &&& 0xffff0000) ||| (right >>> 16)
      | 2 => (old &&& 0xff000000) ||| (right >>> 8)
      | _ => right)
    return result.charge 2
  | 0x2b =>
    if cpu.misaligned address then return result.addressException .addressStore address
    else
      storeU32 bus pc aligned right
      return result.charge 2
  | 0x2e =>
    let old ← loadU32 bus pc aligned
    storeU32 bus pc aligned (match (address &&& 3).toNat with
      | 0 => right
      | 1 => (old &&& 0x000000ff) ||| (right <<< 8)
      | 2 => (old &&& 0x0000ffff) ||| (right <<< 16)
      | _ => (old &&& 0x00ffffff) ||| (right <<< 24))
    return result.charge 2
  | 0x32 =>
    if cpu.coprocessor2Mode ≠ .stub then return result.trap .coprocessorUnusable
    else if cpu.misaligned address then return result.addressException .addressLoad address
    else
      let value ← loadU32 bus pc aligned
      modifyCpu fun cpu => { cpu with cop2Data := cpu.cop2Data.set rt value }
      return result.charge 2
  | 0x3a =>
    if cpu.coprocessor2Mode ≠ .stub then return result.trap .coprocessorUnusable
    else if cpu.misaligned address then return result.addressException .addressStore address
    else
      storeU32 bus pc aligned cpu.cop2Data[rt]
      return result.charge 2
  | 0x30 | 0x31 | 0x33 | 0x38 | 0x39 | 0x3b => return result.trap .coprocessorUnusable
  | _ => return result.trap .reservedInstruction

/-- Decodes and executes one instruction. -/
def execute (pc instruction : Word) : Exec F β Execution := do
  let opcode := (instruction >>> 26).toNat
  let rs := field instruction 21
  let rt := field instruction 16
  let rd := field instruction 11
  let immediate := instruction.setWidth 16
  let signedImmediate := immediate.signExtend 32
  let cpu := (← get).cpu
  let left := cpu.registers[rs]
  let right := cpu.registers[rt]
  let result := Execution.default
  match opcode with
  | 0x00 => executeSpecial pc instruction left right rd
  | 0x01 => return executeBranchSign pc left rt immediate
  | 0x02 => return result.branch (jumpTarget pc instruction)
  | 0x03 => return (result.write 31 (pc + 8)).branch (jumpTarget pc instruction)
  | 0x04 => return result.conditionalBranch (left == right) pc immediate
  | 0x05 => return result.conditionalBranch (left != right) pc immediate
  | 0x06 => return result.conditionalBranch (left.sle 0) pc immediate
  | 0x07 => return result.conditionalBranch (!left.sle 0) pc immediate
  | 0x08 =>
    if left.saddOverflow signedImmediate then return result.trap .overflow
    else return result.write rt (left + signedImmediate)
  | 0x09 => return result.write rt (left + signedImmediate)
  | 0x0a => return result.write rt (if left.slt signedImmediate then 1 else 0)
  | 0x0b => return result.write rt (if left.ult signedImmediate then 1 else 0)
  | 0x0c => return result.write rt (left &&& immediate.setWidth 32)
  | 0x0d => return result.write rt (left ||| immediate.setWidth 32)
  | 0x0e => return result.write rt (left ^^^ immediate.setWidth 32)
  | 0x0f => return result.write rt (immediate.setWidth 32 <<< 16)
  | 0x10 => executeCop0 rs rt rd (instruction &&& 63)
  | 0x12 =>
    if cpu.coprocessor2Mode = .stub then executeCop2 rs rt rd
    else return result.trap .coprocessorUnusable
  | 0x11 | 0x13 => return result.trap .coprocessorUnusable
  | _ => executeMemory bus opcode pc (left + signedImmediate) right rt

namespace Cpu

/-- The address a load or a store accesses. -/
def effectiveAddress (cpu : Cpu) (instruction : Word) : Word :=
  cpu.registers[field instruction 21] + (instruction.setWidth 16).signExtend 32

/-- The register an instruction loads or stores, as it reads it. -/
def operand (cpu : Cpu) (instruction : Word) : Word := cpu.registers[field instruction 16]

end Cpu

theorem register_zero_lt : 0 < 32 := by decide

/-- Commits what an instruction did: its register write, its delayed load and its branch. -/
def Cpu.retire (cpu : Cpu) (execution : Execution) (delaySlot : Option DelaySlotState)
    (currentPc : Word) : Cpu :=
  let cpu := cpu.commitOldLoad execution.registerWrite
  let cpu := match cpu.loadDelayMode with
    | .architectural => { cpu with pendingLoad := execution.delayedWrite }
    | .interlocked =>
      let loaded := match execution.delayedWrite with
        | some (register, value) => cpu.writeRegister register value
        | none => cpu
      { loaded with pendingLoad := none }
  let suppressNestedBranch := execution.isBranch && delaySlot.any (·.branchTaken) &&
    cpu.delaySlotBranchMode == .suppressWhenOuterTaken
  let branchTarget := if suppressNestedBranch then none else execution.branchTarget
  let isBranch := execution.isBranch && !suppressNestedBranch
  let sequential := cpu.nextPc
  { cpu with
    pc := sequential
    nextPc := branchTarget.getD (sequential + 4)
    delaySlot := if isBranch then some ⟨currentPc, branchTarget.isSome⟩ else none
    registers := cpu.registers.set 0 0 register_zero_lt }

/-- Enters an exception and reports it. -/
def raise (exception : Exception) (pc : Word) (delayBranchPc badVaddr instruction : Option Word)
    (cycles : ℕ) : Exec F β StepOutcome := do
  modifyCpu fun cpu => (cpu.commitOldLoad none).enterException exception pc delayBranchPc badVaddr
  return ⟨pc, instruction, cycles, .exception exception⟩

/-- A step, which samples the interrupt line if it is asked to. -/
def stepInner (sampleExternalInterrupt : Bool) : Exec F β StepOutcome := do
  if sampleExternalInterrupt then
    let pending := bus.interruptPending (← get).devices
    modifyCpu (·.updateInterruptLine pending)
  let cpu := (← get).cpu
  let currentPc := cpu.pc
  let delaySlot := cpu.delaySlot
  let delayBranchPc := delaySlot.map (·.branchPc)
  if sampleExternalInterrupt && cpu.interruptEnabled then
    raise .interrupt currentPc delayBranchPc none none 1
  else if currentPc &&& 3 ≠ 0 then
    raise .addressLoad currentPc delayBranchPc (some currentPc) none 1
  else
    let instruction ← access currentPc currentPc .instruction (bus.readU32 currentPc)
    let execution ← execute bus currentPc instruction
    match execution.exception with
    | some exception =>
      raise exception currentPc delayBranchPc execution.badVaddr (some instruction) execution.cycles
    | none =>
      modifyCpu (·.retire execution delaySlot currentPc)
      return ⟨currentPc, some instruction, execution.cycles, .instruction⟩

/-- The state with the interrupt line sampled. -/
def sampled (sampleExternalInterrupt : Bool) (s : CpuBus β) : CpuBus β :=
  if sampleExternalInterrupt then
    { s with cpu := s.cpu.updateInterruptLine (bus.interruptPending s.devices) }
  else s

/-- What a step does once the interrupt line is sampled. -/
def stepSampled (sampleExternalInterrupt : Bool) : Exec F β StepOutcome := do
  let cpu := (← get).cpu
  let currentPc := cpu.pc
  let delaySlot := cpu.delaySlot
  let delayBranchPc := delaySlot.map (·.branchPc)
  if sampleExternalInterrupt && cpu.interruptEnabled then
    raise .interrupt currentPc delayBranchPc none none 1
  else if currentPc &&& 3 ≠ 0 then
    raise .addressLoad currentPc delayBranchPc (some currentPc) none 1
  else
    let instruction ← access currentPc currentPc .instruction (bus.readU32 currentPc)
    let execution ← execute bus currentPc instruction
    match execution.exception with
    | some exception =>
      raise exception currentPc delayBranchPc execution.badVaddr (some instruction) execution.cycles
    | none =>
      modifyCpu (·.retire execution delaySlot currentPc)
      return ⟨currentPc, some instruction, execution.cycles, .instruction⟩

theorem run_stepInner (sampleExternalInterrupt : Bool) (s : CpuBus β) :
    (stepInner bus sampleExternalInterrupt).run s =
      (stepSampled bus sampleExternalInterrupt).run (sampled bus sampleExternalInterrupt s) := by
  cases sampleExternalInterrupt <;> rfl

/-- Executes at most one instruction or recognizes one interrupt. -/
def step : Exec F β StepOutcome := stepInner bus true

/-- Executes one instruction without sampling the external interrupt line. -/
def stepWithoutExternalInterrupts : Exec F β StepOutcome := stepInner bus false

end Execute

/-! ### The devices change by bus transactions only -/

section OnBus

variable {F β : Type} {R : β → β → Prop}

/-- A step of the devices, whatever the CPU does. -/
def OnBus (R : β → β → Prop) (s t : CpuBus β) : Prop := R s.devices t.devices

instance [Std.Refl R] : Std.Refl (OnBus R) := ⟨fun s => Std.Refl.refl s.devices⟩

instance [IsTrans β R] : IsTrans (CpuBus β) (OnBus R) :=
  ⟨fun _ _ _ first second => IsTrans.trans (r := R) _ _ _ first second⟩

/-- Every transaction of the bus is a step of the relation. -/
structure Bus.Moves (bus : Bus F β) (R : β → β → Prop) : Prop where
  readU8 : ∀ address d, Leads R d (bus.readU8 address)
  readU16 : ∀ address d, Leads R d (bus.readU16 address)
  readU32 : ∀ address d, Leads R d (bus.readU32 address)
  writeU8 : ∀ address value d, Leads R d (bus.writeU8 address value)
  writeU16 : ∀ address value d, Leads R d (bus.writeU16 address value)
  writeU32 : ∀ address value d, Leads R d (bus.writeU32 address value)

theorem leads_access {α : Type} {s : CpuBus β} {pc address : Word} {kind : AccessType}
    {transaction : EStateM F β α} (h : Leads R s.devices transaction) :
    Leads (OnBus R) s (access pc address kind transaction) :=
  leads_zoom h

theorem leads_modifyCpu [Std.Refl R] (s : CpuBus β) (f : Cpu → Cpu) :
    Leads (OnBus R) s (modifyCpu f : Exec F β Unit) := Std.Refl.refl (r := R) s.devices

theorem leads_executeSpecial [Std.Refl R] (s : CpuBus β) (pc instruction left right : Word)
    (rd : Fin 32) :
    Leads (OnBus R) s (executeSpecial pc instruction left right rd : Exec F β Execution) := by
  have same : (leaves ((executeSpecial pc instruction left right rd :
      Exec F β Execution).run s)).devices = s.devices := by
    unfold executeSpecial
    simp only
    split <;> first | rfl | (split <;> rfl)
  show R _ _
  rw [same]
  exact Std.Refl.refl _

theorem leads_executeCop0 [Std.Refl R] (s : CpuBus β) (rs rt rd : Fin 32) (function : Word) :
    Leads (OnBus R) s (executeCop0 rs rt rd function : Exec F β Execution) := by
  have same : (leaves ((executeCop0 rs rt rd function : Exec F β Execution).run s)).devices =
      s.devices := by
    unfold executeCop0
    simp only [run_bind, run_get]
    split <;> first | rfl | (split <;> rfl)
  show R _ _
  rw [same]
  exact Std.Refl.refl _

theorem leads_executeCop2 [Std.Refl R] (s : CpuBus β) (rs rt rd : Fin 32) :
    Leads (OnBus R) s (executeCop2 rs rt rd : Exec F β Execution) := by
  unfold executeCop2
  apply leads_get_bind
  refine .either (leads_pure _) ?_
  refine .either (leads_pure _) ?_
  refine .either (Std.Refl.refl (r := R) s.devices) ?_
  refine .either (Std.Refl.refl (r := R) s.devices) ?_
  exact .either (leads_pure _) (leads_pure _)

variable {bus : Bus F β} (moves : bus.Moves R) (s : CpuBus β)

include moves

theorem leads_loadU8 (pc address : Word) : Leads (OnBus R) s (loadU8 bus pc address) :=
  leads_access (moves.readU8 address s.devices)

theorem leads_loadU16 (pc address : Word) : Leads (OnBus R) s (loadU16 bus pc address) :=
  leads_access (moves.readU16 address s.devices)

theorem leads_loadU32 (pc address : Word) : Leads (OnBus R) s (loadU32 bus pc address) :=
  leads_access (moves.readU32 address s.devices)

theorem leads_storeU8 (pc address : Word) (value : BitVec 8) :
    Leads (OnBus R) s (storeU8 bus pc address value) :=
  leads_access (moves.writeU8 address value s.devices)

theorem leads_storeU16 (pc address : Word) (value : BitVec 16) :
    Leads (OnBus R) s (storeU16 bus pc address value) :=
  leads_access (moves.writeU16 address value s.devices)

theorem leads_storeU32 (pc address value : Word) :
    Leads (OnBus R) s (storeU32 bus pc address value) :=
  leads_access (moves.writeU32 address value s.devices)

variable [Std.Refl R] [IsTrans β R]

theorem leads_executeMemory (opcode : ℕ) (pc address right : Word) (rt : Fin 32) :
    Leads (OnBus R) s (executeMemory bus opcode pc address right rt) := by
  unfold executeMemory
  apply leads_get_bind
  split
  case h_1 => exact (leads_loadU8 moves s _ _).returning
  case h_2 =>
    exact .either (leads_pure _)
      (leads_loadU16 moves s _ _).returning
  case h_3 => exact (leads_loadU32 moves s _ _).returning
  case h_4 =>
    exact .either (leads_pure _)
      (leads_loadU32 moves s _ _).returning
  case h_5 => exact (leads_loadU8 moves s _ _).returning
  case h_6 =>
    exact .either (leads_pure _)
      (leads_loadU16 moves s _ _).returning
  case h_7 => exact (leads_loadU32 moves s _ _).returning
  case h_8 => exact (leads_storeU8 moves s _ _ _).returning
  case h_9 =>
    exact .either (leads_pure _)
      (leads_storeU16 moves s _ _ _).returning
  case h_10 =>
    -- An unaligned store reads the word it merges into.
    apply (leads_loadU32 moves s _ _).bind
    intro _ t _
    exact (leads_storeU32 moves t _ _ _).returning
  case h_11 =>
    exact .either (leads_pure _)
      (leads_storeU32 moves s _ _ _).returning
  case h_12 =>
    apply (leads_loadU32 moves s _ _).bind
    intro _ t _
    exact (leads_storeU32 moves t _ _ _).returning
  case h_13 =>
    refine .either (leads_pure _) ?_
    refine .either (leads_pure _) ?_
    apply (leads_loadU32 moves s _ _).bind
    intro _ t _
    exact (leads_modifyCpu t _).returning
  case h_14 =>
    refine .either (leads_pure _) ?_
    exact .either (leads_pure _)
      (leads_storeU32 moves s _ _ _).returning
  all_goals exact leads_pure _

theorem leads_execute (pc instruction : Word) :
    Leads (OnBus R) s (execute bus pc instruction) := by
  unfold execute
  apply leads_get_bind
  split
  case h_1 => exact leads_executeSpecial s _ _ _ _ _
  case h_9 => exact .either (leads_pure _) (leads_pure _)
  case h_17 => exact leads_executeCop0 s _ _ _ _
  case h_18 =>
    exact .either (leads_executeCop2 s _ _ _) (leads_pure _)
  case h_21 => exact leads_executeMemory moves s _ _ _ _ _
  all_goals exact leads_pure _

omit moves [IsTrans β R] in
theorem leads_raise (exception : Exception) (pc : Word)
    (delayBranchPc badVaddr instruction : Option Word) (cycles : ℕ) :
    Leads (OnBus R) s (raise exception pc delayBranchPc badVaddr instruction cycles :
      Exec F β StepOutcome) :=
  Std.Refl.refl (r := R) s.devices

theorem leads_stepSampled (sampleExternalInterrupt : Bool) :
    Leads (OnBus R) s (stepSampled bus sampleExternalInterrupt) := by
  unfold stepSampled
  apply leads_get_bind
  refine .either (leads_raise s _ _ _ _ _ _) ?_
  refine .either (leads_raise s _ _ _ _ _ _) ?_
  apply (leads_access (moves.readU32 _ _)).bind
  intro instruction u _
  apply (leads_execute moves u _ _).bind
  intro execution v _
  split
  · exact leads_raise v _ _ _ _ _ _
  · exact (leads_modifyCpu v _).returning

/-- One instruction, or the interrupt taken instead of it, changes the devices by bus transactions
only. -/
theorem leads_stepInner (sampleExternalInterrupt : Bool) :
    Leads (OnBus R) s (stepInner bus sampleExternalInterrupt) := by
  have rest := leads_stepSampled moves (sampled bus sampleExternalInterrupt s) sampleExternalInterrupt
  cases sampleExternalInterrupt <;> exact rest

end OnBus

end Upse.R3000
