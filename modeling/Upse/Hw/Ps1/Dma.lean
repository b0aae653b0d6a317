import Upse.Hw.Ps1.Irq
import Upse.Hw.Ps1.Memory
import Upse.Support.Scheduler

/-!
# PS1 DMA

The seven channels' registers, with the two that move words: MDEC input (channel 0), served at once,
and sound (channel 4), whose completion is an event of the scheduler.  Every write to channel 4's
control or to the priority control cancels that event and schedules it again where the channel is
active.
-/

namespace Upse.Ps1

open ErrorState

/-- First DMA channel register. -/
def dmaChannelStart : ℕ := 0x1f801080

/-- Channel 4 memory address register. -/
def d4Madr : ℕ := 0x1f8010c0

/-- Channel 4 block control register. -/
def d4Bcr : ℕ := 0x1f8010c4

/-- Channel 4 channel control register. -/
def d4Chcr : ℕ := 0x1f8010c8

/-- DMA priority control register. -/
def dpcr : ℕ := 0x1f8010f0

/-- DMA interrupt control register. -/
def dicr : ℕ := 0x1f8010f4

/-- Scheduler identity reserved for DMA channel 4 completion. -/
def channel4Event : EventId := 0x00040004

def dpcrReset : Word := 0x07654321

def channel0Enable : Word := 1 <<< 3

def channel4Enable : Word := 1 <<< 19

def chcrDirectionFromRam : Word := 1 <<< 0

def chcrDecrement : Word := 1 <<< 1

def chcrSyncMask : Word := 3 <<< 9

def chcrStart : Word := 1 <<< 24

def chcrTrigger : Word := 1 <<< 28

def chcrWritable : Word :=
  chcrDirectionFromRam ||| chcrDecrement ||| chcrSyncMask ||| chcrStart ||| chcrTrigger

def dicrForce : Word := 1 <<< 15

def dicrChannelMasks : Word := 0x007f0000

def dicrMasterEnable : Word := 1 <<< 23

def dicrChannelFlags : Word := 0x7f000000

def dicrWritableControl : Word := 0x00ff803f

def dicrChannel4Flag : Word := 1 <<< 28

def dicrChannel0Flag : Word := 1 <<< 24

def ramAddressMask : Word := 0x00fffffc

def cyclesPerWord : ℕ := 4

/-- Words of main RAM. -/
def maxRamWords : ℕ := 2 * 1024 * 1024 / 4

/-- A device endpoint rejected or failed a transfer word. -/
structure EndpointError where
  message : String
  deriving DecidableEq, Repr

/-- MDEC command port with state `D`; a word that fails leaves a state as well. -/
structure MdecDmaEndpoint (D : Type) where
  writeWord : Word → D → Except EndpointError Unit × D

/-- Sound-device port with state `E`. -/
structure SoundDmaEndpoint (E : Type) where
  writeWord : Word → E → Except EndpointError Unit × E
  readWord : E → Except EndpointError Word × E

/-- Invalid DMA programming or transfer failure. -/
inductive DmaError where
  | invalidRegister (address : ℕ)
  | unsupportedSync (mode : ℕ)
  | transferTooLarge (words : ℕ)
  | ramRange (base words : ℕ) (decrement : Bool)
  | staleEvent
  | endpoint (source : EndpointError)
  | mdecDirection
  | unsupportedMdecSync (mode : ℕ)
  | scheduler
  | clockOverflow
  deriving DecidableEq, Repr

/-- How an operation stops early: with an error, or at a slice access outside RAM. -/
inductive DmaFault where
  | error (source : DmaError)
  | panic
  deriving DecidableEq, Repr

/-- A transfer that completes at its deadline. -/
structure PendingTransfer where
  deadline : Deadline
  words : ℕ
  deriving DecidableEq, Repr

/-- Instance-owned PS1 DMA controller with MDEC input and sound channels. -/
structure DmaController where
  madr : Word
  bcr : Word
  chcr : Word
  registerOnlyChannels : Fin 7 → Fin 3 → Word
  dpcr : Word
  dicrControl : Word
  dicrFlags : Word
  pending : Option PendingTransfer

/-- The channel and the register an address selects. -/
def channelRegister (address : ℕ) : Option (Fin 7 × Fin 3) :=
  if h : dmaChannelStart ≤ address ∧ (address - dmaChannelStart) / 0x10 < 7 ∧
      (address - dmaChannelStart) % 4 = 0 ∧ (address - dmaChannelStart) % 0x10 / 4 < 3 then
    some (⟨(address - dmaChannelStart) / 0x10, h.2.1⟩,
      ⟨(address - dmaChannelStart) % 0x10 / 4, h.2.2.2⟩)
  else none

/-- The synchronisation of a transfer. -/
def syncMode (chcr : Word) : ℕ := ((chcr &&& chcrSyncMask) >>> 9).toNat

/-- The word count a block-control register asks for. -/
def transferWords (bcr : Word) (sync : ℕ) : Except DmaError ℕ := do
  let low := (bcr &&& 0xffff).toNat
  let low := if low = 0 then 0x10000 else low
  let words ←
    if sync = 0 then .ok low
    else
      let high := (bcr >>> 16).toNat
      let high := if high = 0 then 0x10000 else high
      match checkedMul 64 low high with
      | some words => .ok words
      | none => .error (.transferTooLarge u64Max)
  if maxRamWords < words then .error (.transferTooLarge words) else .ok words

/-- The address of a word of a transfer. -/
def transferAddress (base index : ℕ) (decrement : Bool) : Except DmaError ℕ :=
  match checkedMul 64 index 4 with
  | none => .error .clockOverflow
  | some offset =>
    if offset < 2 ^ 32 then
      match if decrement then checkedSub base offset else checkedAdd 32 base offset with
      | some address => .ok address
      | none => .error (.ramRange base (index + 1) decrement)
    else .error .clockOverflow

/-- The first and the last word of a transfer lie in RAM. -/
def validateRamRange (base words : ℕ) (decrement : Bool) (ramLen : ℕ) : Except DmaError Unit := do
  let last ← transferAddress base (words - 1) decrement
  if ramLen < base + 4 ∨ ramLen < last + 4 then .error (.ramRange base words decrement) else .ok ()

namespace DmaController

/-- Reset DMA registers with channel 4 disabled. -/
def new : DmaController := ⟨0, 0, 0, fun _ _ => 0, dpcrReset, 0, 0, none⟩

/-- The scheduled channel 4 completion, if active. -/
def completionDeadline (dma : DmaController) : Option Deadline := dma.pending.map (·.deadline)

/-- Whether an interrupt is asserted. -/
def masterIrq (dma : DmaController) : Bool :=
  dma.dicrControl &&& dicrForce != 0 ||
    (dma.dicrControl &&& dicrMasterEnable != 0 &&
      ((dma.dicrControl &&& dicrChannelMasks) <<< 8) &&& dma.dicrFlags != 0)

/-- Changes one register of a channel other than 4. -/
def setRegister (dma : DmaController) (channel : Fin 7) (register : Fin 3) (value : Word) :
    DmaController :=
  { dma with registerOnlyChannels := fun c r =>
      if c = channel ∧ r = register then value else dma.registerOnlyChannels c r }

end DmaController

/-- The controller with what its operations reach: the scheduler, the interrupt sink (as the list of
what it was told), memory and the two endpoints. -/
structure DmaMachine (D E : Type) where
  dma : DmaController
  scheduler : Scheduler
  requests : List InterruptSource
  memory : Memory
  mdec : D
  sound : E

/-- The programs of the controller. -/
abbrev DmaM (D E α : Type) := EStateM DmaFault (DmaMachine D E) α

namespace DmaMachine

variable {D E : Type}

/-- A reset controller beside its memory and endpoints. -/
def reset (memory : Memory) (mdec : D) (sound : E) : DmaMachine D E :=
  ⟨.new, .new, [], memory, mdec, sound⟩

/-- Changes the controller. -/
def modifyDma (f : DmaController → DmaController) : DmaM D E Unit :=
  modify fun m => { m with dma := f m.dma }

/-- Changes the controller, and requests the DMA interrupt when that asserts the line. -/
def modifyFlags (f : DmaController → DmaController) : DmaM D E Unit :=
  modify fun m =>
    { m with
      dma := f m.dma
      requests := if !m.dma.masterIrq && (f m.dma).masterIrq then m.requests ++ [.dma]
        else m.requests }

/-- Writes `DICR`, and acknowledges flags. -/
def writeDicr (value : Word) : DmaM D E Unit :=
  modifyFlags fun dma =>
    { dma with
      dicrControl := value &&& dicrWritableControl
      dicrFlags := dma.dicrFlags &&& ~~~(value &&& dicrChannelFlags) }

/-- Sets the flag of the sound channel. -/
def finishChannel4 : DmaM D E Unit :=
  modifyFlags fun dma => { dma with dicrFlags := dma.dicrFlags ||| dicrChannel4Flag }

/-- Sets the flag of the decoder's channel. -/
def finishChannel0 : DmaM D E Unit :=
  modifyFlags fun dma => { dma with dicrFlags := dma.dicrFlags ||| dicrChannel0Flag }

/-- Whether a control word asks for work in its synchronization mode. -/
def activeMode (sync : ℕ) (chcr : Word) (unsupported : ℕ → DmaError) : Except DmaError Bool :=
  match sync with
  | 0 => .ok (chcr &&& chcrTrigger != 0)
  | 1 => .ok true
  | mode => .error (unsupported mode)

/-- Cancels the completion of channel 4, and schedules it where the channel is active. -/
def reschedule (now : Deadline) : DmaM D E Unit := do
  modify fun m =>
    { m with
      scheduler := (m.scheduler.cancel channel4Event).2
      dma := { m.dma with pending := none } }
  let m ← get
  if m.dma.dpcr &&& channel4Enable = 0 ∨ m.dma.chcr &&& chcrStart = 0 then return
  let sync := syncMode m.dma.chcr
  let active ← ErrorState.ofExcept ((activeMode sync m.dma.chcr .unsupportedSync).mapError .error)
  if !active then return
  let words ← ErrorState.ofExcept ((transferWords m.dma.bcr sync).mapError .error)
  let cycles ← okOr (checkedMul 64 words cyclesPerWord) (.error .clockOverflow)
  let deadline ← ErrorState.ofExcept
    ((now.checkedAdvance cycles).mapError fun _ => .error .clockOverflow)
  let scheduler ← ErrorState.ofExcept
    ((m.scheduler.schedule channel4Event deadline).mapError fun _ => .error .scheduler)
  modify fun m =>
    { m with
      scheduler := scheduler
      dma := { m.dma with pending := some ⟨deadline, words⟩ } }

/-- Writes a modeled DMA register and schedules newly active channel 4 work. -/
def write (address : ℕ) (value : Word) (now : Deadline) : DmaM D E Unit := do
  match channelRegister address with
  | some (channel, register) =>
    if channel = 4 then
      match register with
      | 0 => modifyDma fun dma => { dma with madr := value &&& ramAddressMask }
      | 1 => modifyDma fun dma => { dma with bcr := value }
      | 2 => do
        modifyDma fun dma => { dma with chcr := value &&& chcrWritable }
        reschedule now
    else if channel = 0 then
      modifyDma fun dma => dma.setRegister channel register
        (match register with
        | 0 => value &&& ramAddressMask
        | 1 => value
        | 2 => value &&& chcrWritable)
    else
      modifyDma fun dma => dma.setRegister channel register
        (match register with
        | 0 => value &&& ramAddressMask
        | 1 => value
        | 2 => value &&& ~~~(chcrStart ||| chcrTrigger))
  | none =>
    if address = Ps1.dpcr then
      modifyDma fun dma => { dma with dpcr := value }
      reschedule now
    else if address = Ps1.dicr then writeDicr value
    else throw (.error (.invalidRegister address))

/-! ### Transfers -/

/-- Reads a little-endian word, or panics outside RAM. -/
def readRamWord (offset : ℕ) : DmaM D E Word := do
  let m ← get
  throwIf (ramSize < offset + 4) .panic
  return Memory.word (m.memory.ram offset) (m.memory.ram (offset + 1)) (m.memory.ram (offset + 2))
    (m.memory.ram (offset + 3))

/-- Writes a little-endian word, or panics outside RAM. -/
def writeRamWord (offset : ℕ) (value : Word) : DmaM D E Unit := do
  throwIf (ramSize < offset + 4) .panic
  modify fun m =>
    { m with memory := { m.memory with
        ram := Memory.replaceBytes m.memory.ram (offset + ·) (Memory.littleEndian value 4) } }

/-- Sends one word to the MDEC. -/
def mdecWrite (mdec : MdecDmaEndpoint D) (value : Word) : DmaM D E Unit := do
  let m ← get
  let (result, state) := mdec.writeWord value m.mdec
  set { m with mdec := state }
  ErrorState.ofExcept (result.mapError fun e => .error (.endpoint e))

/-- Sends one word to the sound device. -/
def soundWrite (sound : SoundDmaEndpoint E) (value : Word) : DmaM D E Unit := do
  let m ← get
  let (result, state) := sound.writeWord value m.sound
  set { m with sound := state }
  ErrorState.ofExcept (result.mapError fun e => .error (.endpoint e))

/-- Takes one word from the sound device. -/
def soundRead (sound : SoundDmaEndpoint E) : DmaM D E Word := do
  let m ← get
  let (result, state) := sound.readWord m.sound
  set { m with sound := state }
  ErrorState.ofExcept (result.mapError fun e => .error (.endpoint e))

/-- Moves the words from `index` on, each with `move`. -/
def transferLoop (move : ℕ → DmaM D E Unit) (base : ℕ) (decrement : Bool) : ℕ → ℕ → DmaM D E Unit
  | 0, _ => return
  | remaining + 1, index => do
    let offset ← ErrorState.ofExcept ((transferAddress base index decrement).mapError .error)
    move offset
    transferLoop move base decrement remaining (index + 1)

/-- The address after a transfer. -/
def advanceAddress (madr : Word) (words : ℕ) (decrement : Bool) : Except DmaError Word :=
  match checkedMul 64 words 4 with
  | some byteCount =>
    if byteCount < 2 ^ 32 then
      .ok ((if decrement then madr - BitVec.ofNat 32 byteCount else madr + BitVec.ofNat 32 byteCount)
        &&& ramAddressMask)
    else .error .clockOverflow
  | none => .error .clockOverflow

/-- Immediately services one active MDEC-input transfer. -/
def serviceMdecIn (mdec : MdecDmaEndpoint D) : DmaM D E Bool := do
  let m ← get
  let madr := m.dma.registerOnlyChannels 0 0
  let bcr := m.dma.registerOnlyChannels 0 1
  let chcr := m.dma.registerOnlyChannels 0 2
  if m.dma.dpcr &&& channel0Enable = 0 ∨ chcr &&& chcrStart = 0 then return false
  throwIf (chcr &&& chcrDirectionFromRam = 0) (.error .mdecDirection)
  let sync := syncMode chcr
  let active ← ErrorState.ofExcept ((activeMode sync chcr .unsupportedMdecSync).mapError .error)
  if !active then return false
  let words ← ErrorState.ofExcept ((transferWords bcr sync).mapError .error)
  let decrement := chcr &&& chcrDecrement != 0
  ErrorState.ofExcept ((validateRamRange madr.toNat words decrement ramSize).mapError .error)
  transferLoop (fun offset => do mdecWrite mdec (← readRamWord offset)) madr.toNat decrement words 0
  let next ← ErrorState.ofExcept ((advanceAddress madr words decrement).mapError .error)
  modifyDma fun dma =>
    (dma.setRegister 0 0 next).setRegister 0 2 (chcr &&& ~~~(chcrStart ||| chcrTrigger))
  finishChannel0
  return true

/-- Moves one word between RAM and the sound device. -/
def soundWord (sound : SoundDmaEndpoint E) (fromRam : Bool) (offset : ℕ) : DmaM D E Unit := do
  if fromRam then soundWrite sound (← readRamWord offset)
  else writeRamWord offset (← soundRead sound)

/-- Completes the scheduler event and transfers exact words through the port. -/
def complete (sound : SoundDmaEndpoint E) (event : DueEvent) : DmaM D E Unit := do
  let m ← get
  let pending ← okOr m.dma.pending (.error .staleEvent)
  throwIf (event.id ≠ channel4Event ∨ event.deadline ≠ pending.deadline) (.error .staleEvent)
  modifyDma fun dma => { dma with pending := none }
  let decrement := m.dma.chcr &&& chcrDecrement != 0
  let fromRam := m.dma.chcr &&& chcrDirectionFromRam != 0
  ErrorState.ofExcept
    ((validateRamRange m.dma.madr.toNat pending.words decrement ramSize).mapError .error)
  transferLoop (soundWord sound fromRam) m.dma.madr.toNat decrement pending.words 0
  let next ← ErrorState.ofExcept ((advanceAddress m.dma.madr pending.words decrement).mapError .error)
  modifyDma fun dma =>
    { dma with madr := next, chcr := dma.chcr &&& ~~~(chcrStart ||| chcrTrigger) }
  finishChannel4

end DmaMachine

end Upse.Ps1
