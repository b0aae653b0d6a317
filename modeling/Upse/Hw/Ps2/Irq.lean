import Upse.Support.Integers

/-!
# The IOP interrupt controller

Latched request status, source mask and level-sensitive inputs.  Writing the status register
acknowledges by zeros; an asserted level latches again at once.
-/

namespace Upse

/-- A primary IOP hardware interrupt source. -/
inductive InterruptSource where
  | vBlank
  | sBus
  | cdvd
  | dma
  | timer0
  | timer1
  | timer2
  | sio0
  | sio1
  | spu2
  | pio
  | vBlankEnd
  | dvd
  | dev9
  | timer3
  | timer4
  | timer5
  | sio2
  | hold0
  | hold1
  | hold2
  | hold3
  | usb
  | expansion
  | iLink
  | fireWireDma
  deriving DecidableEq, Repr

namespace InterruptSource

/-- The sources in the order of their register bits. -/
def all : List InterruptSource :=
  [.vBlank, .sBus, .cdvd, .dma, .timer0, .timer1, .timer2, .sio0, .sio1, .spu2, .pio, .vBlankEnd,
    .dvd, .dev9, .timer3, .timer4, .timer5, .sio2, .hold0, .hold1, .hold2, .hold3, .usb,
    .expansion, .iLink, .fireWireDma]

/-- The source's bit number. -/
def index (source : InterruptSource) : ℕ := source.ctorIdx

/-- The source's register bit. -/
def bit (source : InterruptSource) : Word := 1 <<< source.index

/-- Converts one implemented bit number. -/
def fromIndex (index : ℕ) : Option InterruptSource := all[index]?

@[simp] theorem fromIndex_index (source : InterruptSource) :
    fromIndex source.index = some source := by
  cases source <;> rfl

end InterruptSource

/-- The implemented status and mask bits. -/
def validBits : Word := 0x03ffffff

/-- Address of the interrupt status register. -/
def iStat : ℕ := 0x1f801070

/-- Address of the interrupt mask register. -/
def iMask : ℕ := 0x1f801074

/-- Invalid interrupt-controller access. -/
structure IrqError where
  address : ℕ
  deriving DecidableEq, Repr

/-- Instance-owned IOP interrupt controller. -/
structure InterruptController where
  status : Word
  mask : Word
  levels : Word
  deriving DecidableEq, Repr

namespace InterruptController

/-- Reset state, with all sources masked. -/
def new : InterruptController := ⟨0, 0, 0⟩

/-- Enabled, latched sources. -/
def pendingBits (irq : InterruptController) : Word := irq.status &&& irq.mask

/-- The lowest-numbered enabled, latched source. -/
def firstPending (irq : InterruptController) : Option InterruptSource :=
  ((List.range 32).find? fun index => irq.pendingBits.getLsbD index).bind InterruptSource.fromIndex

/-- Whether the external interrupt line is asserted. -/
def pending (irq : InterruptController) : Bool := irq.pendingBits != 0

/-- Acknowledges by zeros: zero clears, one keeps. -/
def acknowledge (irq : InterruptController) (value : Word) : InterruptController :=
  { irq with status := irq.status &&& (value &&& validBits) ||| irq.levels }

/-- Replaces the implemented bits of the mask. -/
def setMask (irq : InterruptController) (value : Word) : InterruptController :=
  { irq with mask := value &&& validBits }

/-- Reads an interrupt register. -/
def read (irq : InterruptController) (address : ℕ) : Except IrqError Word :=
  if address = iStat then .ok irq.status
  else if address = iMask then .ok irq.mask
  else .error ⟨address⟩

/-- Writes an interrupt register. -/
def write (irq : InterruptController) (address : ℕ) (value : Word) :
    Except IrqError InterruptController :=
  if address = iStat then .ok (irq.acknowledge value)
  else if address = iMask then .ok (irq.setMask value)
  else .error ⟨address⟩

/-- Latches a pulse from one source. -/
def request (irq : InterruptController) (source : InterruptSource) : InterruptController :=
  { irq with status := irq.status ||| source.bit }

/-- Changes a level-sensitive source. -/
def setLevel (irq : InterruptController) (source : InterruptSource) (asserted : Bool) :
    InterruptController :=
  if asserted then
    { irq with levels := irq.levels ||| source.bit, status := irq.status ||| source.bit }
  else { irq with levels := irq.levels &&& ~~~source.bit }

end InterruptController

end Upse
