import Upse.Machine.Ps1.State

/-!
# The bus of the PS1 machine

Every guest access is routed to memory or to the registers of a device, as the device is at the
moment of the access: nothing here advances a device.
-/

namespace Upse.Ps1

open ErrorState R3000

variable {C : Components}

/-- The devices as one step sees them, with the instruction already fetched for it. -/
structure BusState (C : Components) where
  devices : Devices C
  prefetchedInstruction : Option (Word × Word)

/-- Programs of the bus. -/
abbrev BusM (C : Components) := EStateM (BusFault C) (Devices C)

namespace Devices

/-- A read that changes nothing. -/
def reading {α : Type} (f : Devices C → Except (BusFault C) α) : BusM C α := do
  ErrorState.ofExcept (f (← get))

/-- Runs an access of the memory. -/
def onMemory (f : Memory → Except MemoryError Memory) : BusM C Unit := do
  let devices ← get
  let memory ← ErrorState.ofExcept ((f devices.memory).mapError .memory)
  set { devices with memory := memory }

/-- Runs an access of the interrupt controller. -/
def onIrq (f : InterruptController → Except IrqError InterruptController) : BusM C Unit := do
  let devices ← get
  let irq ← ErrorState.ofExcept ((f devices.irq).mapError .irq)
  set { devices with irq := irq }

/-- Runs an access of the root counters. -/
def onTimers {α : Type} (m : EStateM TimerError RootCounters α) : BusM C α :=
  zoom Devices.timers (fun timers devices => { devices with timers := timers }) .timer m

/-- Runs an access of the drive. -/
def onCdrom {α : Type} (m : EStateM C.Fault C.Cdrom α) : BusM C α :=
  zoom Devices.cdrom (fun cdrom devices => { devices with cdrom := cdrom }) .device m

/-- Runs an access of the graphics unit. -/
def onGpu {α : Type} (m : EStateM C.Fault C.Gpu α) : BusM C α :=
  zoom Devices.gpu (fun gpu devices => { devices with gpu := gpu }) .device m

/-- Runs an access of the decoder. -/
def onMdec {α : Type} (m : EStateM C.Fault C.Mdec α) : BusM C α :=
  zoom Devices.mdec (fun mdec devices => { devices with mdec := mdec }) .device m

/-- Runs an access of the sound unit. -/
def onSpu {α : Type} (m : EStateM C.Fault C.Spu α) : BusM C α :=
  zoom Devices.spu (fun spu devices => { devices with spu := spu }) .device m

/-- Reads a word of the memory control. -/
def readControl (address : ℕ) : BusM C Word :=
  reading fun devices => (devices.memory.readControl address).mapError .memory

/-- Reads an interrupt register. -/
def readIrq (address : ℕ) : BusM C Word :=
  reading fun devices => (devices.irq.read address).mapError .irq

/-- Reads a word of the DMA controller. -/
def readDma (address : ℕ) : BusM C Word :=
  reading fun devices => (C.dmaRead address devices.dma).mapError .device

/-- Reads a sound register. -/
def readSpu (address : ℕ) : BusM C (BitVec 16) :=
  reading fun devices => (C.spuRead address devices.spu).mapError .device

end Devices

open Devices

/-- Latches a device's request in the interrupt controller. -/
def latch (source : InterruptSource) (irq : InterruptController) : InterruptController :=
  irq.request source

/-- Writes a word of the DMA controller, which may schedule a transfer. -/
def writeDma (now : Deadline) (address : ℕ) (value : Word) : BusM C Unit := do
  zoom (fun devices => (devices.dma, devices.scheduler, devices.irq))
    (fun (dma, scheduler, irq) devices =>
      { devices with dma := dma, scheduler := scheduler, irq := irq })
    .device (C.dmaWrite latch address value now)
  let memory := (← get).memory
  (fun _ => ()) <$> zoom (fun devices => (devices.dma, devices.mdec, devices.irq))
    (fun (dma, mdec, irq) devices => { devices with dma := dma, mdec := mdec, irq := irq })
    BusFault.device (C.dmaServiceMdecIn latch memory)

/-- Address ranges of the registers, by the device behind them. -/
def isMemoryControl (address : ℕ) : Bool :=
  memoryControlStart ≤ address && address ≤ memoryControlEnd

/-- An interrupt register. -/
def isIrq (address : ℕ) : Bool := address == iStat || address == iMask

/-- A counter register. -/
def isTimer (address : ℕ) : Bool := timerBase ≤ address && address ≤ timerEnd

def isDmaHalfword (address : ℕ) : Bool :=
  (dmaChannelStart ≤ address && address ≤ dmaChannelHalfwordEnd) ||
    (dpcr ≤ address && address ≤ dmaControlEnd)

def isDmaWord (address : ℕ) : Bool :=
  (dmaChannelStart ≤ address && address ≤ dmaChannelEnd) || address == dpcr || address == dicr

/-- A sound register. -/
def isSpu (address : ℕ) : Bool := spuBase ≤ address && address ≤ spuEnd

def isGpu (address : ℕ) : Bool := address == gp0 || address == gp1

def isMdec (address : ℕ) : Bool := address == mdecData || address == mdecControlStatus

/-- A drive register. -/
def isCdrom (address : ℕ) : Bool := cdromBase ≤ address && address ≤ cdromEnd

/-- The halfword of a register word an address selects. -/
def halfOf (value : Word) (address : ℕ) : BitVec 16 :=
  if address / 2 % 2 = 0 then value.setWidth 16 else (value >>> 16).setWidth 16

/-- A register word with the halfword an address selects replaced. -/
def mergeHalf (old : Word) (address : ℕ) (value : BitVec 16) : Word :=
  if address / 2 % 2 = 0 then (old &&& 0xffff0000) ||| value.setWidth 32
  else (old &&& 0x0000ffff) ||| (value.setWidth 32 <<< 16)

/-- The byte of a halfword an address selects. -/
def byteOf (value : BitVec 16) (address : ℕ) : BitVec 8 :=
  if address % 2 = 0 then value.setWidth 8 else (value >>> 8).setWidth 8

/-- A halfword with the byte an address selects replaced. -/
def mergeByte (old : BitVec 16) (address : ℕ) (value : BitVec 8) : BitVec 16 :=
  if address % 2 = 0 then (old &&& 0xff00) ||| value.setWidth 16
  else (old &&& 0x00ff) ||| (value.setWidth 16 <<< 8)

/-- Reads a halfword of a device. -/
def readMmioU16 (address : ℕ) : BusM C (BitVec 16) :=
  let aligned := address - address % 4
  if isMemoryControl address then (halfOf · address) <$> readControl aligned
  else if isIrq address then (·.setWidth 16) <$> readIrq address
  else if isTimer address then (·.setWidth 16) <$> onTimers (RootCounters.read address)
  else if isDmaHalfword address then (halfOf · address) <$> readDma aligned
  else if isSpu address then readSpu address
  else throw (.unmodeledRead address)

/-- Writes a halfword of a device. -/
def writeMmioU16 (now : Deadline) (address : ℕ) (value : BitVec 16) : BusM C Unit := do
  let aligned := address - address % 4
  if isMemoryControl address then
    let old ← readControl aligned
    onMemory (·.writeControl aligned (mergeHalf old address value))
  else if isIrq address then onIrq (·.write address (value.setWidth 32))
  else if isTimer address then onTimers (RootCounters.write address (value.setWidth 32))
  else if isDmaHalfword address then
    let old ← readDma aligned
    writeDma now aligned (mergeHalf old address value)
  else if isSpu address then onSpu (C.spuWrite address value)
  else throw (.unmodeledWrite address)

/-- The region of an address. -/
def classify (address : Word) : BusM C MemoryRegion :=
  ErrorState.ofExcept ((Memory.classify address).mapError .memory)

/-- Reads a byte of memory or of a device. -/
def readU8 (biosRegion : BitVec 8) (address : Word) : BusM C (BitVec 8) := do
  match ← classify address with
  | .mmio physical =>
    if isCdrom physical then onCdrom (C.cdromRead physical)
    else (byteOf · physical) <$> readMmioU16 (physical - physical % 2)
  | .hleRom physical =>
    if physical = biosRegionByte then return biosRegion
    else reading fun devices => (devices.memory.readU8 address).mapError .memory
  | _ => reading fun devices => (devices.memory.readU8 address).mapError .memory

/-- Reads a halfword of memory or of a device. -/
def readU16 (address : Word) : BusM C (BitVec 16) := do
  match ← classify address with
  | .mmio physical => readMmioU16 physical
  | region => reading fun devices => (devices.memory.readDecodedU16 address region).mapError .memory

/-- Reads a word of a device. -/
def readMmioU32 (physical : ℕ) : BusM C Word := do
  if isMemoryControl physical then readControl physical
  else if isIrq physical then readIrq physical
  else if isTimer physical then onTimers (RootCounters.read physical)
  else if isDmaWord physical then readDma physical
  else if isGpu physical then
    reading fun devices => (C.gpuRead physical devices.gpu).mapError .device
  else if isMdec physical then
    reading fun devices => (C.mdecRead physical devices.mdec).mapError .device
  else if isSpu physical then
    let low ← readSpu physical
    let high ← readSpu (physical + 2)
    return low.setWidth 32 ||| (high.setWidth 32 <<< 16)
  else throw (.unmodeledRead physical)

/-- A word read that is not the prefetched one. -/
def readDevicesU32 (address : Word) : BusM C Word := do
  match ← classify address with
  | .mmio physical => readMmioU32 physical
  | .hleRom physical =>
    if physical = biosKernelPaddingWord then return 0
    else if physical = biosKernelNameWord then return biosKernelNameValue
    else if physical = biosKernelCodeWord then return biosKernelCodeValue
    else reading fun devices =>
      (devices.memory.readDecodedU32 address (.hleRom physical)).mapError .memory
  | region => reading fun devices => (devices.memory.readDecodedU32 address region).mapError .memory

/-- Writes a byte of memory or of a device. -/
def writeU8 (now : Deadline) (address : Word) (value : BitVec 8) : BusM C Unit := do
  match ← classify address with
  | .mmio physical =>
    if isCdrom physical then onCdrom (C.cdromWrite physical value)
    else
      let aligned := physical - physical % 2
      let old ← readMmioU16 aligned
      writeMmioU16 now aligned (mergeByte old physical value)
  | _ => onMemory (·.writeU8 address value)

/-- Writes a halfword of memory or of a device. -/
def writeU16 (now : Deadline) (address : Word) (value : BitVec 16) : BusM C Unit := do
  match ← classify address with
  | .mmio physical => writeMmioU16 now physical value
  | region => onMemory (·.writeDecodedU16 address region value)

/-- Writes a word of a device. -/
def writeMmioU32 (now : Deadline) (physical : ℕ) (value : Word) : BusM C Unit := do
  if isMemoryControl physical then onMemory (·.writeControl physical value)
  else if isIrq physical then onIrq (·.write physical value)
  else if isTimer physical then onTimers (RootCounters.write physical value)
  else if isDmaWord physical then writeDma now physical value
  else if isGpu physical then onGpu (C.gpuWrite physical value)
  else if isMdec physical then onMdec (C.mdecWrite physical value)
  else if isSpu physical then
    onSpu (C.spuWrite physical (value.setWidth 16))
    onSpu (C.spuWrite (physical + 2) ((value >>> 16).setWidth 16))
  else throw (.unmodeledWrite physical)

/-- Writes a word of memory or of a device. -/
def writeU32 (now : Deadline) (address value : Word) : BusM C Unit := do
  match ← classify address with
  | .mmio physical => writeMmioU32 now physical value
  | region => onMemory (·.writeDecodedU32 address region value)

/-- A bus program that does not concern the prefetched instruction. -/
def onDevices {α : Type} (m : BusM C α) : EStateM (BusFault C) (BusState C) α :=
  zoom BusState.devices (fun devices s => { s with devices := devices }) id m

/-- Reads a word; the instruction already fetched is taken instead of its first read. -/
def readU32 (address : Word) : EStateM (BusFault C) (BusState C) Word := do
  match (← get).prefetchedInstruction with
  | some (prefetchedAddress, instruction) =>
    if prefetchedAddress = address then
      modify fun s => { s with prefetchedInstruction := none }
      return instruction
    else onDevices (readDevicesU32 address)
  | none => onDevices (readDevicesU32 address)

/-- The bus of one step at the time `now`.  The interrupt line stays low: requests are translated
into firmware events after each boundary. -/
def machineBus (C : Components) (now : Deadline) (biosRegion : BitVec 8) :
    Bus (BusFault C) (BusState C) where
  readU8 address := onDevices (readU8 biosRegion address)
  readU16 address := onDevices (readU16 address)
  readU32 := readU32
  writeU8 address value := onDevices (writeU8 now address value)
  writeU16 address value := onDevices (writeU16 now address value)
  writeU32 address value := onDevices (writeU32 now address value)
  interruptPending _ := false

end Upse.Ps1
