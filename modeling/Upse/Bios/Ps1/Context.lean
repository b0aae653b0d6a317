import Upse.Lib.ErrorState
import Upse.Support.Integers

/-!
# The boundary of the PS1 firmware

The registers and the guest memory a firmware call works on, what it asks the machine to continue
with, and why it fails.
-/

namespace Upse.Ps1

open ErrorState

/-- Firmware call-table vector. -/
inductive BiosVector where
  | a0
  | b0
  | c0
  deriving DecidableEq, Repr

/-- What the machine continues with after a firmware call. -/
inductive HleAction where
  | return
  | call
  | halt
  | wait
  | returnFromException
  deriving DecidableEq, Repr

/-- What a call of a service comes to. -/
structure HleOutcome where
  cycles : ℕ
  action : HleAction
  deriving DecidableEq, Repr

/-- The registers a firmware call works on. -/
structure CpuContext where
  registers : Vector Word 32
  pc : Word
  hi : Word
  lo : Word
  deriving DecidableEq, Repr

namespace CpuContext

theorem stackPointer_lt : 29 < 32 := by decide

/-- The context a program starts in. -/
def reset (entry stack : Word) : CpuContext :=
  ⟨(Vector.replicate 32 0).set 29 stack stackPointer_lt, entry, 0, 0⟩

/-- A register by its number. -/
def register (c : CpuContext) (index : ℕ) : Option Word := c.registers[index]?

/-- Writes a general-purpose register; register zero and an index out of range are ignored. -/
def setRegister (c : CpuContext) (index : ℕ) (value : Word) : CpuContext :=
  if index = 0 then c else { c with registers := c.registers.setIfInBounds index value }

end CpuContext

/-! ### Failures and bounds -/

/-- Failure returned by a machine-owned guest memory implementation. -/
structure GuestMemoryError where
  message : String
  deriving DecidableEq, Repr

/-- Guest memory operation type for diagnostics. -/
inductive MemoryOperation where
  | read
  | write
  deriving DecidableEq, Repr

/-- Structured firmware failure. -/
inductive BiosError where
  | callbackCapacity
  | callbackDepth
  | callbackStackEmpty
  | libcCallbackLimit (limit : ℕ)
  | memoryOperationLimit (size limit : ℕ)
  | addressOverflow
  | guestMemory (address : ℕ) (operation : MemoryOperation) (source : GuestMemoryError)
  | heapUnavailable
  | outOfMemory (size : ℕ)
  deriving DecidableEq, Repr

/-- Configurable resource bounds. -/
structure HleLimits where
  memoryOperationBytes : ℕ
  pendingCallbacks : ℕ
  callbackDepth : ℕ
  libcCallbackCalls : ℕ
  deriving DecidableEq, Repr

/-- The default bounds. -/
def HleLimits.default : HleLimits := ⟨2 * 1024 * 1024, 64, 16, 1000000⟩

/-! ### Guest memory -/

/-- Byte reads and writes of a machine's memory, as the firmware uses them. -/
structure GuestBytes (M : Type) where
  readU8 : ℕ → EStateM GuestMemoryError M (BitVec 8)
  writeU8 : ℕ → BitVec 8 → EStateM GuestMemoryError M Unit

/-- An interval of memory that is readable and writable, in which distinct addresses are distinct
bytes; `byte` is what it holds. -/
structure RamIn {M : Type} (ram : GuestBytes M) (byte : M → ℕ → BitVec 8) (base stop : ℕ) : Prop where
  reads : ∀ m address, base ≤ address → address < stop →
    (ram.readU8 address).run m = .ok (byte m address) m
  writes : ∀ m address value, base ≤ address → address < stop →
    ∃ m', (ram.writeU8 address value).run m = .ok () m' ∧ byte m' address = value ∧
      ∀ other, base ≤ other → other < stop → other ≠ address → byte m' other = byte m other

/-- `element_address`. -/
def elementAddress (base index width : ℕ) : Except BiosError ℕ :=
  match checkedMul 32 index width with
  | none => .error .addressOverflow
  | some offset =>
    match checkedAdd 32 base offset with
    | none => .error .addressOverflow
    | some address => .ok address

/-- `memory_cycles`. -/
def memoryCycles (size : ℕ) : ℕ := min u32Max (8 + min u32Max (size * 2))

end Upse.Ps1
