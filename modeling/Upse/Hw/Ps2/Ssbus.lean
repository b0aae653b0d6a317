import Upse.Support.Integers

/-!
# The IOP subsystem bus

Address and delay registers of the bus behind the IOP.
-/

namespace Upse.Iop

/-- Number of SSBUS device selectors. -/
def deviceCount : ℕ := 13

/-- Shared delay-configuration register. -/
def commonDelay : ℕ := 0x1f801020

def baseRegisters : List (Option ℕ) :=
  [some 0x1f801000, some 0x1f801400, none, none, some 0x1f801404, some 0x1f801408, none, none,
    some 0x1f801004, some 0x1f80140c, none, some 0x1f801410, none]

def delayRegisters : List (Option ℕ) :=
  [some 0x1f801008, some 0x1f80100c, some 0x1f801010, none, some 0x1f801014, some 0x1f801018, none,
    none, some 0x1f80101c, some 0x1f801414, some 0x1f801418, some 0x1f80141c, some 0x1f801420]

/-- The physical address is not an implemented SSBUS register. -/
structure SsbusError where
  address : ℕ
  deriving DecidableEq, Repr

/-- Instance-owned subsystem-bus configuration. -/
structure SsbusController where
  bases : Vector Word deviceCount
  delays : Vector Word deviceCount
  commonDelay : Word
  deriving DecidableEq, Repr

/-- The device whose register of a kind has an address. -/
def registerDevice (registers : List (Option ℕ)) (address : ℕ) : Option ℕ :=
  registers.findIdx? (· = some address)

namespace SsbusController

/-- Cleared registers. -/
def new : SsbusController := ⟨.replicate _ 0, .replicate _ 0, 0⟩

/-- Whether an aligned word belongs to this component. -/
def contains (address : ℕ) : Bool :=
  address = Iop.commonDelay || baseRegisters.contains (some address) ||
    delayRegisters.contains (some address)

/-- Reads one aligned physical register. -/
def readU32 (ssbus : SsbusController) (address : ℕ) : Except SsbusError Word :=
  if address = Iop.commonDelay then .ok ssbus.commonDelay
  else
    match registerDevice baseRegisters address, registerDevice delayRegisters address with
    | some device, _ => .ok (ssbus.bases[device]?.getD 0)
    | none, some device => .ok (ssbus.delays[device]?.getD 0)
    | none, none => .error ⟨address⟩

/-- Writes one aligned physical register. -/
def writeU32 (ssbus : SsbusController) (address : ℕ) (value : Word) :
    Except SsbusError SsbusController :=
  if address = Iop.commonDelay then .ok { ssbus with commonDelay := value }
  else
    match registerDevice baseRegisters address, registerDevice delayRegisters address with
    | some device, _ => .ok { ssbus with bases := ssbus.bases.setIfInBounds device value }
    | none, some device => .ok { ssbus with delays := ssbus.delays.setIfInBounds device value }
    | none, none => .error ⟨address⟩

end SsbusController

end Upse.Iop
