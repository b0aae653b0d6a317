import Upse.Support.Integers

/-!
# The PS1 interrupt controller

Latched request status, source mask and level-sensitive inputs.  Writing the status register
acknowledges by zeros; an asserted level latches again at once.
-/

namespace Upse.Ps1

/-- A hardware source bit of the interrupt registers. -/
inductive InterruptSource where
  | vBlank
  | gpu
  | cdRom
  | dma
  | timer0
  | timer1
  | timer2
  | controller
  | sio
  | spu
  | lightPen
  deriving DecidableEq, Repr

/-- The source's register bit. -/
def InterruptSource.bit (source : InterruptSource) : BitVec 16 := 1 <<< source.ctorIdx

/-- Physical address of the interrupt status register. -/
def iStat : ℕ := 0x1f801070

/-- Physical address of the interrupt mask register. -/
def iMask : ℕ := 0x1f801074

/-- The implemented status and mask bits. -/
def validBits : BitVec 16 := 0x07ff

/-- Invalid interrupt-controller register access. -/
structure IrqError where
  address : ℕ
  deriving DecidableEq, Repr

/-- Instance-owned PS1 interrupt controller. -/
structure InterruptController where
  status : BitVec 16
  mask : BitVec 16
  levels : BitVec 16
  deriving DecidableEq, Repr

namespace InterruptController

/-- A reset controller with every source masked. -/
def new : InterruptController := ⟨0, 0, 0⟩

/-- Latches a pulse from one source. -/
def request (irq : InterruptController) (source : InterruptSource) : InterruptController :=
  { irq with status := irq.status ||| source.bit }

/-- Changes a producer's level and latches a rising or currently high level. -/
def setLevel (irq : InterruptController) (source : InterruptSource) (asserted : Bool) :
    InterruptController :=
  if asserted then
    { irq with levels := irq.levels ||| source.bit, status := irq.status ||| source.bit }
  else { irq with levels := irq.levels &&& ~~~source.bit }

/-- Whether the external interrupt line is asserted. -/
def pending (irq : InterruptController) : Bool := irq.status &&& irq.mask != 0

/-- Acknowledges by zeros: zero clears, one keeps. -/
def acknowledge (irq : InterruptController) (value : BitVec 16) : InterruptController :=
  { irq with status := irq.status &&& (value &&& validBits) ||| irq.levels }

/-- Replaces the implemented bits of the mask. -/
def setMask (irq : InterruptController) (value : BitVec 16) : InterruptController :=
  { irq with mask := value &&& validBits }

/-- Reads a 32-bit interrupt register. -/
def read (irq : InterruptController) (address : ℕ) : Except IrqError Word :=
  if address = iStat then .ok (irq.status.setWidth 32)
  else if address = iMask then .ok (irq.mask.setWidth 32)
  else .error ⟨address⟩

/-- Writes a 32-bit interrupt register. -/
def write (irq : InterruptController) (address : ℕ) (value : Word) :
    Except IrqError InterruptController :=
  if address = iStat then .ok (irq.acknowledge (value.setWidth 16))
  else if address = iMask then .ok (irq.setMask (value.setWidth 16))
  else .error ⟨address⟩

end InterruptController

end Upse.Ps1
