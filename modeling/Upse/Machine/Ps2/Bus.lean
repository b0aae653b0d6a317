import Upse.Hw.Ps2.Memory
import Upse.Hw.Ps2.Ssbus
import Upse.Hw.Ps2.Timers
import Upse.Hw.Shared.R3000

/-!
# The bus of the PS2 machine

The devices of the IOP with an injected sound endpoint, and the router of every guest access to
memory or to the registers of a device.
-/

namespace Upse.Iop

open ErrorState R3000

/-- Registers of an SPU2 with state `E`; a failed access leaves a state as well. -/
structure Spu2MmioEndpoint (E : Type) where
  readRegister : ℕ → E → Except EndpointError (BitVec 16) × E
  writeRegister : ℕ → BitVec 16 → E → Except EndpointError Unit × E

/-- Device-specific contents of one observable hardware event. -/
inductive HardwareEventKind where
  | timing (event : TimingEvent)
  | dma (event : DmaEvent)
  deriving DecidableEq, Repr

/-- Timestamped hardware event available to a later BIOS composition layer. -/
structure HardwareEvent where
  moment : Deadline
  kind : HardwareEventKind
  deriving DecidableEq, Repr

/-- Why a bus transaction failed. -/
inductive BusFault where
  | memory (source : MemoryError)
  | irq (source : IrqError)
  | timer (source : TimerError)
  | dma (source : DmaFault)
  | ssbus (source : SsbusError)
  | sound (source : EndpointError)
  | unmodeledRead (address : ℕ)
  | unmodeledWrite (address : ℕ)
  deriving DecidableEq, Repr

variable {E : Type}

/-- The devices on the CPU's bus, and what they reported. -/
structure Devices (E : Type) where
  memory : Memory
  irq : InterruptController
  timers : IopTimers
  dma : DmaController
  ssbus : SsbusController
  scheduler : Scheduler
  sound : E
  hardwareEvents : List HardwareEvent

/-- The devices as one step sees them, with the instruction already fetched for it. -/
structure BusState (E : Type) where
  devices : Devices E
  prefetchedInstruction : Option (Word × Word)

/-- Programs of the bus. -/
abbrev BusM (E : Type) := EStateM BusFault (Devices E)

namespace Devices

/-- A read that changes nothing. -/
def reading {α : Type} (f : Devices E → Except BusFault α) : BusM E α := do
  ErrorState.ofExcept (f (← get))

/-- Runs an access of the memory. -/
def onMemory (f : Memory → Except MemoryError Memory) : BusM E Unit := do
  let devices ← get
  let memory ← ErrorState.ofExcept ((f devices.memory).mapError .memory)
  set { devices with memory := memory }

/-- Runs an access of the interrupt controller. -/
def onIrq (f : InterruptController → Except IrqError InterruptController) : BusM E Unit := do
  let devices ← get
  let irq ← ErrorState.ofExcept ((f devices.irq).mapError .irq)
  set { devices with irq := irq }

/-- Runs an access of the bus controller. -/
def onSsbus (f : SsbusController → Except SsbusError SsbusController) : BusM E Unit := do
  let devices ← get
  let ssbus ← ErrorState.ofExcept ((f devices.ssbus).mapError .ssbus)
  set { devices with ssbus := ssbus }

/-- Runs an access of the timers. -/
def onTimers {α : Type} (m : EStateM TimerError IopTimers α) : BusM E α :=
  zoom Devices.timers (fun timers devices => { devices with timers := timers }) .timer m

/-- An access to the sound registers. -/
def onSound {α : Type} (f : E → Except EndpointError α × E) : BusM E α := do
  let devices ← get
  let (result, sound) := f devices.sound
  set { devices with sound := sound }
  ErrorState.ofExcept (result.mapError .sound)

/-- An operation of the DMA controller: its requests are latched, and its events are recorded with
the time. -/
def onDma {α : Type} (now : Deadline) (m : EStateM DmaFault (DmaMachine E) α) : BusM E α :=
  zoom (fun devices =>
      ⟨devices.dma, devices.scheduler, [], [], devices.memory.ram, devices.sound, []⟩)
    (fun machine devices =>
      { devices with
        dma := machine.dma
        scheduler := machine.scheduler
        irq := machine.requests.foldl InterruptController.request devices.irq
        memory.ram := machine.ram
        sound := machine.endpoint
        hardwareEvents := devices.hardwareEvents ++
          machine.events.map fun event => ⟨now, .dma event⟩ })
    .dma m

/-- Reads an interrupt register. -/
def readIrq (address : ℕ) : BusM E Word :=
  reading fun devices => (devices.irq.read address).mapError .irq

/-- Reads a word of the DMA controller. -/
def readDma (address : ℕ) : BusM E Word :=
  reading fun devices => (devices.dma.readU32 address).mapError fun source => .dma (.error source)

/-- Reads a word of the bus controller. -/
def readSsbus (address : ℕ) : BusM E Word :=
  reading fun devices => (devices.ssbus.readU32 address).mapError .ssbus

end Devices

open Devices

/-! ### Register addresses -/

def irqRegisterEnd : ℕ := iMask + 2

/-- An interrupt register. -/
def isIrqAddress (address : ℕ) : Bool := iStat ≤ address && address ≤ irqRegisterEnd

/-- A timer register. -/
def isTimerAddress (address : ℕ) : Bool :=
  [timer0Base, timer1Base, timer2Base, timer3Base, timer4Base, timer5Base].any fun base =>
    base ≤ address && address ≤ base + 0x0a

/-- A DMA register. -/
def isDmaAddress (address : ℕ) : Bool :=
  (dma1ChannelStart ≤ address && address ≤ dma1ChannelEnd + 2) ||
    (dma2ChannelStart ≤ address && address ≤ dma2ChannelEnd + 2) ||
    (dpcr1 ≤ address && address ≤ dicr1 + 2) ||
    (0x1f801560 ≤ address && address ≤ 0x1f80156a) ||
    (dpcr2 ≤ address && address ≤ dmacEnable + 2) ||
    address == dicr2

def isSsbusAddress (address : ℕ) : Bool := SsbusController.contains (address - address % 4)

/-- The halfword of a register word an address selects. -/
def half (value : Word) (address : ℕ) : BitVec 16 :=
  if address / 2 % 2 = 0 then value.setWidth 16 else (value >>> 16).setWidth 16

/-- A register word with the halfword an address selects replaced. -/
def mergeHalf (old : Word) (address : ℕ) (value : BitVec 16) : Word :=
  if address / 2 % 2 = 0 then (old &&& 0xffff0000) ||| value.setWidth 32
  else (old &&& 0x0000ffff) ||| (value.setWidth 32 <<< 16)

/-- The byte of a halfword an address selects. -/
def byteOf (value : BitVec 16) (address : ℕ) : BitVec 8 :=
  if address % 2 = 0 then value.setWidth 8 else (value >>> 8).setWidth 8

/-- A halfword with the byte an address selects replaced. -/
def mergeByte (old : BitVec 16) (address : ℕ) (value : BitVec 8) : BitVec 16 :=
  if address % 2 = 0 then (old &&& 0xff00) ||| value.setWidth 16
  else (old &&& 0x00ff) ||| (value.setWidth 16 <<< 8)

section Bus

variable (spu2 : Spu2MmioEndpoint E) (now : Deadline)

/-! ### Reads -/

/-- Reads a halfword of a device. -/
def readMmioU16 (address : ℕ) : BusM E (BitVec 16) :=
  let aligned := address - address % 4
  if isIrqAddress address then (half · address) <$> readIrq aligned
  else if isTimerAddress address then BitVec.ofNat 16 <$> onTimers (IopTimers.readU16 address)
  else if isDmaAddress address then (half · address) <$> readDma aligned
  else if isSsbusAddress address then (half · address) <$> readSsbus aligned
  else throw (.unmodeledRead address)

/-- Reads a sound register. -/
def readSpu2U16 (address : ℕ) : BusM E (BitVec 16) := onSound (spu2.readRegister address)

/-- The region of an address. -/
def classify (address : Word) : BusM E MemoryRegion :=
  ErrorState.ofExcept ((Memory.classify address).mapError .memory)

/-- Reads a byte of memory or of a device. -/
def readU8 (address : Word) : BusM E (BitVec 8) := do
  match ← classify address with
  | .mmio physical => (byteOf · physical) <$> readMmioU16 (physical - physical % 2)
  | .spu2 physical => (byteOf · physical) <$> readSpu2U16 spu2 (physical - physical % 2)
  | _ => reading fun devices => (devices.memory.readU8 address).mapError .memory

/-- Reads a halfword of memory or of a device. -/
def readU16 (address : Word) : BusM E (BitVec 16) := do
  match ← classify address with
  | .mmio physical => readMmioU16 physical
  | .spu2 physical => readSpu2U16 spu2 physical
  | _ => reading fun devices => (devices.memory.readU16 address).mapError .memory

/-- Reads a word of a device. -/
def readMmioU32 (physical : ℕ) : BusM E Word :=
  if physical = iStat ∨ physical = iMask then readIrq physical
  else if isTimerAddress physical then BitVec.ofNat 32 <$> onTimers (IopTimers.readU32 physical)
  else if isDmaAddress physical then readDma physical
  else if isSsbusAddress physical then readSsbus physical
  else throw (.unmodeledRead physical)

/-- A word read that is not the prefetched one. -/
def readDevicesU32 (address : Word) : BusM E Word := do
  match ← classify address with
  | .mmio physical => readMmioU32 physical
  | .spu2 physical => do
    let low ← readSpu2U16 spu2 physical
    let high ← readSpu2U16 spu2 (physical + 2)
    return low.setWidth 32 ||| (high.setWidth 32 <<< 16)
  | _ => reading fun devices => (devices.memory.readU32 address).mapError .memory

/-! ### Writes -/

/-- Writes a halfword of a device. -/
def writeMmioU16 (address : ℕ) (value : BitVec 16) : BusM E Unit := do
  let aligned := address - address % 4
  if isIrqAddress address then
    let old ← readIrq aligned
    onIrq (·.write aligned (mergeHalf old address value))
  else if isTimerAddress address then onTimers (IopTimers.writeU16 address value)
  else if isDmaAddress address then onDma now (DmaMachine.writeU16 address value now)
  else if isSsbusAddress address then
    let old ← readSsbus aligned
    onSsbus (·.writeU32 aligned (mergeHalf old address value))
  else throw (.unmodeledWrite address)

/-- Writes a sound register. -/
def writeSpu2U16 (address : ℕ) (value : BitVec 16) : BusM E Unit :=
  onSound (spu2.writeRegister address value)

/-- Writes a byte of memory or of a device. -/
def writeU8 (address : Word) (value : BitVec 8) : BusM E Unit := do
  match ← classify address with
  | .mmio physical =>
    let aligned := physical - physical % 2
    let old ← readMmioU16 aligned
    writeMmioU16 now aligned (mergeByte old physical value)
  | .spu2 physical =>
    let aligned := physical - physical % 2
    let old ← readSpu2U16 spu2 aligned
    writeSpu2U16 spu2 aligned (mergeByte old physical value)
  | _ => onMemory (·.writeU8 address value)

/-- Writes a halfword of memory or of a device. -/
def writeU16 (address : Word) (value : BitVec 16) : BusM E Unit := do
  match ← classify address with
  | .mmio physical => writeMmioU16 now physical value
  | .spu2 physical => writeSpu2U16 spu2 physical value
  | _ => onMemory (·.writeU16 address value)

/-- Writes a word of a device. -/
def writeMmioU32 (physical : ℕ) (value : Word) : BusM E Unit :=
  if physical = iStat ∨ physical = iMask then onIrq (·.write physical value)
  else if isTimerAddress physical then onTimers (IopTimers.writeU32 physical value.toNat)
  else if isDmaAddress physical then onDma now (DmaMachine.writeU32 physical value now)
  else if isSsbusAddress physical then onSsbus (·.writeU32 physical value)
  else throw (.unmodeledWrite physical)

/-- Writes a word of memory or of a device. -/
def writeU32 (address value : Word) : BusM E Unit := do
  match ← classify address with
  | .mmio physical => writeMmioU32 now physical value
  | .spu2 physical =>
    writeSpu2U16 spu2 physical (value.setWidth 16)
    writeSpu2U16 spu2 (physical + 2) ((value >>> 16).setWidth 16)
  | _ => onMemory (·.writeU32 address value)

/-! ### The bus of one step -/

/-- A bus program that does not concern the prefetched instruction. -/
def onDevices {α : Type} (m : BusM E α) : EStateM BusFault (BusState E) α :=
  zoom BusState.devices (fun devices s => { s with devices := devices }) id m

/-- Reads a word; the instruction already fetched is taken instead of its first read. -/
def readU32 (address : Word) : EStateM BusFault (BusState E) Word := do
  match (← get).prefetchedInstruction with
  | some (prefetchedAddress, instruction) =>
    if prefetchedAddress = address then
      modify fun s => { s with prefetchedInstruction := none }
      return instruction
    else onDevices (readDevicesU32 spu2 address)
  | none => onDevices (readDevicesU32 spu2 address)

/-- The bus of one step at the time `now`. -/
def machineBus : Bus BusFault (BusState E) where
  readU8 address := onDevices (readU8 spu2 address)
  readU16 address := onDevices (readU16 spu2 address)
  readU32 := readU32 spu2
  writeU8 address value := onDevices (writeU8 spu2 now address value)
  writeU16 address value := onDevices (writeU16 spu2 now address value)
  writeU32 address value := onDevices (writeU32 spu2 now address value)
  interruptPending s := s.devices.irq.pending

end Bus

end Upse.Iop
