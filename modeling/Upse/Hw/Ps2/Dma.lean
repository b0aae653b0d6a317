import Upse.Bios.Error
import Upse.Hw.Ps2.Irq
import Upse.Lib.ErrorState
import Upse.Lib.Runs

/-!
# IOP sound DMA

The DMA register banks, and the transfers of channels 4 and 7 between IOP RAM and the two SPU2
cores.  A register write that leaves a sound channel started and enabled schedules its completion;
the due completion event moves all its words at once.  A slice access outside RAM is a panic of the
source, kept apart from the errors it returns.
-/

namespace Upse

open ErrorState

/-- First register of DMA channel 0. -/
def dma1ChannelStart : ℕ := 0x1f801080

/-- Last channel-register word in the first DMA bank. -/
def dma1ChannelEnd : ℕ := 0x1f8010ec

/-- First register of DMA channel 7. -/
def dma2ChannelStart : ℕ := 0x1f801500

/-- Last channel-register word in the second DMA bank. -/
def dma2ChannelEnd : ℕ := 0x1f80155c

/-- DMA priority control for channels 0 through 6. -/
def dpcr1 : ℕ := 0x1f8010f0

/-- DMA interrupt control for channels 0 through 6. -/
def dicr1 : ℕ := 0x1f8010f4

/-- DMA priority control for channels 7 through 12. -/
def dpcr2 : ℕ := 0x1f801570

/-- DMA interrupt control for channels 7 through 12. -/
def dicr2 : ℕ := 0x1f801574

/-- Second DMA controller enable register. -/
def dmacEnable : ℕ := 0x1f801578

/-- The extended registers of the second controller. -/
def extendedStart : ℕ := 0x1f801560

/-- Scheduler identity for channel 4 completion. -/
def channel4Event : EventId := 0x02040004

/-- Scheduler identity for channel 7 completion. -/
def channel7Event : EventId := 0x02070007

def ramAddressMask : Word := 0x00fffffc

def chcrDirectionFromRam : Word := 1 <<< 0

def chcrDecrement : Word := 1 <<< 1

def chcrSyncMask : Word := 3 <<< 9

def chcrStart : Word := 1 <<< 24

def dpcr1Reset : Word := 0x07654321

def dpcrEnable : Word := 1 <<< 3

def dicrForce : Word := 1 <<< 15

def dicrMasterEnable : Word := 1 <<< 23

def dicrMasterFlag : Word := 1 <<< 31

/-- Sound payloads become visible at the next scheduler boundary. -/
def completionCycles : Ticks := 0

/-- Bytes of IOP RAM. -/
def ramSize : ℕ := 2 * 1024 * 1024

/-- Words of IOP RAM. -/
def maxRamWords : ℕ := 2 * 1024 * 1024 / 4

/-- Physical main RAM. -/
abbrev Ram := Fin ramSize → BitVec 8

/-- SPU2 core selected by an IOP DMA channel. -/
inductive SoundDmaChannel where
  | core0
  | core1
  deriving DecidableEq, Repr

/-- The channel number. -/
def SoundDmaChannel.channel : SoundDmaChannel → Fin 13
  | .core0 => 4
  | .core1 => 7

/-- The completion event. -/
def SoundDmaChannel.event : SoundDmaChannel → EventId
  | .core0 => channel4Event
  | .core1 => channel7Event

/-- Direction of one sound DMA transfer. -/
inductive DmaDirection where
  | fromRam
  | toRam
  deriving DecidableEq, Repr

/-- Hardware DMA event exposed to machine and BIOS layers. -/
inductive DmaEvent where
  | started (channel : SoundDmaChannel) (direction : DmaDirection) (words : ℕ)
      (deadline : Deadline)
  | completed (channel : SoundDmaChannel) (direction : DmaDirection) (words : ℕ)
  deriving DecidableEq, Repr

/-- A sound endpoint rejected or failed one transfer word. -/
structure EndpointError where
  message : String
  deriving DecidableEq, Repr

/-- SPU2 transfer endpoint with state `E`; a word that fails leaves a state as well. -/
structure Spu2DmaEndpoint (E : Type) where
  writeWord : SoundDmaChannel → Word → E → Except EndpointError Unit × E
  readWord : SoundDmaChannel → E → Except EndpointError Word × E

/-- Invalid DMA programming or transfer failure. -/
inductive DmaError where
  | invalidRegister (address : ℕ)
  | unsupportedSync (channel mode : ℕ)
  | transferTooLarge (words : ℕ)
  | ramRange (channel base words : ℕ) (decrement : Bool)
  | staleEvent (event : EventId)
  | endpoint (source : EndpointError)
  | scheduler
  | clockOverflow
  deriving DecidableEq, Repr

/-- How an operation stops early: with an error, or at a slice access outside RAM. -/
inductive DmaFault where
  | error (source : DmaError)
  | panic
  deriving DecidableEq, Repr

instance : Coe DmaError DmaFault := ⟨.error⟩

/-- The registers of a channel. -/
structure ChannelRegisters where
  madr : Word
  bcr : Word
  chcr : Word
  tadr : Word
  deriving DecidableEq, Repr

/-- A transfer that completes at its deadline. -/
structure PendingTransfer where
  deadline : Deadline
  address : ℕ
  words : ℕ
  direction : DmaDirection
  decrement : Bool
  deriving DecidableEq, Repr

/-- Instance-owned IOP DMA controller. -/
structure DmaController where
  channels : Fin 13 → ChannelRegisters
  dpcr1 : Word
  dpcr2 : Word
  dicr1Control : Word
  dicr1Flags : Word
  dicr2Control : Word
  dicr2Flags : Word
  extended : Fin 3 → Word
  dmacEnable : Word
  pending : SoundDmaChannel → Option PendingTransfer

/-- The sound channel with this number. -/
def soundChannel (channel : Fin 13) : Option SoundDmaChannel :=
  if channel = 4 then some .core0 else if channel = 7 then some .core1 else none

/-- A register of a channel. -/
def channelValue (channel : ChannelRegisters) (register : Fin 4) : Word :=
  match register with
  | 0 => channel.madr
  | 1 => channel.bcr
  | 2 => channel.chcr
  | 3 => channel.tadr

/-- Sets a register of a channel. -/
def setChannelValue (channel : ChannelRegisters) (register : Fin 4) (value : Word) :
    ChannelRegisters :=
  match register with
  | 0 => { channel with madr := value }
  | 1 => { channel with bcr := value }
  | 2 => { channel with chcr := value }
  | 3 => { channel with tadr := value }

/-- The channel, the register and the halfword an offset of a bank selects. -/
def decodeOffset (first offset : ℕ) : Option (Fin 13 × Fin 4 × ℕ) :=
  if h : first + offset / 0x10 < 13 ∧ offset % 2 = 0 then
    some (⟨first + offset / 0x10, h.1⟩, ⟨offset % 0x10 / 4, by omega⟩, offset % 0x10 % 4 / 2)
  else none

/-- The channel, register and byte at an address. -/
def decodeChannelRegister (address : ℕ) : Option (Fin 13 × Fin 4 × ℕ) :=
  if dma1ChannelStart ≤ address ∧ address ≤ dma1ChannelEnd + 2 then
    decodeOffset 0 (address - dma1ChannelStart)
  else if dma2ChannelStart ≤ address ∧ address ≤ dma2ChannelEnd + 2 then
    decodeOffset 7 (address - dma2ChannelStart)
  else none

/-- The word count a block-control register asks for. -/
def transferWords (bcr : Word) (sync : ℕ) : Option ℕ :=
  let blockWords := (bcr &&& 0xffff).toNat
  let blockWords := if blockWords = 0 then 0x10000 else blockWords
  match sync with
  | 0 => some blockWords
  | 1 =>
    let blocks := (bcr >>> 16).toNat
    let blocks := if blocks = 0 then 0x10000 else blocks
    checkedMul 64 blockWords blocks
  | _ => none

/-- The flags of enabled channels. -/
def enabledFlags (control flags : Word) (channels : ℕ) : Word :=
  let mask := (1 <<< channels) - 1
  ((control >>> 16) &&& mask) &&& ((flags >>> 24) &&& mask)

namespace DmaController

/-- Reset DMA state. -/
def new : DmaController where
  channels _ := ⟨0, 0, 0, 0⟩
  dpcr1 := dpcr1Reset
  dpcr2 := 0
  dicr1Control := 0
  dicr1Flags := 0
  dicr2Control := 0
  dicr2Flags := 0
  extended _ := 0
  dmacEnable := 0
  pending _ := none

/-- Whether an interrupt is asserted. -/
def masterIrq (dma : DmaController) : Bool :=
  dma.dicr1Control &&& dicrForce != 0 ||
    (dma.dicr1Control &&& dicrMasterEnable != 0 &&
      (enabledFlags dma.dicr1Control dma.dicr1Flags 7 != 0 ||
        enabledFlags dma.dicr2Control dma.dicr2Flags 6 != 0))

def dicr1 (dma : DmaController) : Word :=
  dma.dicr1Control ||| dma.dicr1Flags ||| if dma.masterIrq then dicrMasterFlag else 0

def dicr2 (dma : DmaController) : Word :=
  dma.dicr2Control ||| dma.dicr2Flags ||| if dma.masterIrq then dicrMasterFlag else 0

/-- Reads one aligned 32-bit DMA register. -/
def readU32 (dma : DmaController) (address : ℕ) : Except DmaError Word :=
  match decodeChannelRegister address with
  | some (channel, register, half) =>
    if half ≠ 0 then .error (.invalidRegister address)
    else .ok (channelValue (dma.channels channel) register)
  | none =>
    if address = Upse.dpcr1 then .ok dma.dpcr1
    else if address = Upse.dicr1 then .ok dma.dicr1
    else if address = extendedStart then .ok (dma.extended 0)
    else if address = extendedStart + 4 then .ok (dma.extended 1)
    else if address = extendedStart + 8 then .ok (dma.extended 2)
    else if address = Upse.dpcr2 then .ok dma.dpcr2
    else if address = Upse.dicr2 then .ok dma.dicr2
    else if address = Upse.dmacEnable then .ok dma.dmacEnable
    else .error (.invalidRegister address)

/-- Whether `DPCR` enables a channel. -/
def channelEnabled (dma : DmaController) (channel : SoundDmaChannel) : Bool :=
  let channel := channel.channel.val
  if channel < 7 then dma.dpcr1 &&& (dpcrEnable <<< (channel * 4)) != 0
  else dma.dpcr2 &&& (dpcrEnable <<< ((channel - 7) * 4)) != 0

/-- Changes the registers of one channel. -/
def setChannel (dma : DmaController) (channel : Fin 13) (f : ChannelRegisters → ChannelRegisters) :
    DmaController :=
  { dma with channels := fun c => if c = channel then f (dma.channels c) else dma.channels c }

/-- Changes the pending transfer of one sound channel. -/
def setPending (dma : DmaController) (channel : SoundDmaChannel)
    (pending : Option PendingTransfer) : DmaController :=
  { dma with pending := fun c => if c = channel then pending else dma.pending c }

end DmaController

/-- The controller with what its operations reach: the scheduler, the interrupt sink and the
observer (as the lists of what they were told), RAM and the endpoint.  `touched` lists the RAM
addresses of the last completion, in order. -/
structure DmaMachine (E : Type) where
  dma : DmaController
  scheduler : Scheduler
  requests : List InterruptSource
  events : List DmaEvent
  ram : Ram
  endpoint : E
  touched : List ℕ

namespace DmaMachine

variable {E : Type}

/-- A reset controller beside an endpoint and arbitrary RAM. -/
def reset (ram : Ram) (endpoint : E) : DmaMachine E :=
  ⟨.new, .new, [], [], ram, endpoint, []⟩

/-- Changes the controller. -/
def modifyDma (f : DmaController → DmaController) : EStateM DmaFault (DmaMachine E) Unit :=
  modify fun m => { m with dma := f m.dma }

/-- Changes the controller, and requests the DMA interrupt when that asserts the line. -/
def modifyFlags (f : DmaController → DmaController) : EStateM DmaFault (DmaMachine E) Unit :=
  modify fun m =>
    { m with
      dma := f m.dma
      requests := if !m.dma.masterIrq && (f m.dma).masterIrq then m.requests ++ [.dma]
        else m.requests }

/-- Writes `DICR1`, and acknowledges flags. -/
def writeDicr1 (value writeMask : Word) : EStateM DmaFault (DmaMachine E) Unit :=
  modifyFlags fun dma =>
    let controlMask := writeMask &&& 0x00ffffff
    { dma with
      dicr1Control := dma.dicr1Control &&& ~~~controlMask ||| value &&& controlMask &&& 0x00ffffff
      dicr1Flags := dma.dicr1Flags &&& ~~~(value &&& writeMask &&& 0x7f000000) }

/-- Writes `DICR2`, and acknowledges flags. -/
def writeDicr2 (value writeMask : Word) : EStateM DmaFault (DmaMachine E) Unit :=
  modifyFlags fun dma =>
    let controlMask := writeMask &&& 0x003fffff
    { dma with
      dicr2Control := dma.dicr2Control &&& ~~~controlMask ||| value &&& controlMask &&& 0x003fffff
      dicr2Flags := dma.dicr2Flags &&& ~~~(value &&& writeMask &&& 0x3f000000) }

/-- Sets the flag of a finished channel. -/
def finishChannel (channel : SoundDmaChannel) : EStateM DmaFault (DmaMachine E) Unit :=
  modifyFlags fun dma =>
    match channel with
    | .core0 => { dma with dicr1Flags := dma.dicr1Flags ||| 1 <<< (24 + 4) }
    | .core1 => { dma with dicr2Flags := dma.dicr2Flags ||| 1 <<< 24 }

/-- Schedules the completion of a channel that is started and enabled. -/
def scheduleIfReady (channel : SoundDmaChannel) (now : Deadline) :
    EStateM DmaFault (DmaMachine E) Unit := do
  let m ← get
  if (m.dma.pending channel).isSome ∨ !m.dma.channelEnabled channel then return
  let registers := m.dma.channels channel.channel
  if registers.chcr &&& chcrStart = 0 then return
  let sync := ((registers.chcr &&& chcrSyncMask) >>> 9).toNat
  let words ← okOr (transferWords registers.bcr sync)
    (DmaError.unsupportedSync channel.channel sync : DmaFault)
  throwIf (maxRamWords < words) (.error (.transferTooLarge words))
  let direction :=
    if registers.chcr &&& chcrDirectionFromRam ≠ 0 then DmaDirection.fromRam else .toRam
  let deadline ← ErrorState.ofExcept
    ((now.checkedAdvance completionCycles).mapError fun _ => .error .clockOverflow)
  let pending : PendingTransfer :=
    ⟨deadline, registers.madr.toNat, words, direction, registers.chcr &&& chcrDecrement != 0⟩
  let scheduler ← ErrorState.ofExcept
    ((m.scheduler.schedule channel.event deadline).mapError fun _ => .error .scheduler)
  modify fun m =>
    { m with
      scheduler := scheduler
      dma := m.dma.setPending channel (some pending)
      events := m.events ++ [.started channel direction words deadline] }

/-- Schedules the channels that are ready. -/
def scheduleAll (now : Deadline) : EStateM DmaFault (DmaMachine E) Unit := do
  scheduleIfReady .core0 now
  scheduleIfReady .core1 now

/-- Writes one aligned 32-bit register and schedules newly active sound transfers. -/
def writeU32 (address : ℕ) (value : Word) (now : Deadline) :
    EStateM DmaFault (DmaMachine E) Unit := do
  match decodeChannelRegister address with
  | some (channel, register, half) =>
    throwIf (half ≠ 0) (.error (.invalidRegister address))
    modifyDma fun dma => dma.setChannel channel fun c =>
      let c := setChannelValue c register value
      if register = 0 then { c with madr := c.madr &&& ramAddressMask } else c
    match soundChannel channel with
    | some sound =>
      if register = 2 then
        modify fun m =>
          { m with
            scheduler := (m.scheduler.cancel sound.event).2
            dma := m.dma.setPending sound none }
      scheduleIfReady sound now
    | none =>
      if register = 2 then
        modifyDma fun dma => dma.setChannel channel fun c =>
          { c with chcr := c.chcr &&& ~~~chcrStart }
  | none =>
    if address = Upse.dpcr1 then
      modifyDma fun dma => { dma with dpcr1 := value }
      scheduleAll now
    else if address = Upse.dicr1 then writeDicr1 value 0xffffffff
    else if address = extendedStart then
      modifyDma fun dma => { dma with extended := Function.update dma.extended 0 value }
    else if address = extendedStart + 4 then
      modifyDma fun dma => { dma with extended := Function.update dma.extended 1 value }
    else if address = extendedStart + 8 then
      modifyDma fun dma => { dma with extended := Function.update dma.extended 2 value }
    else if address = Upse.dpcr2 then
      modifyDma fun dma => { dma with dpcr2 := value }
      scheduleAll now
    else if address = Upse.dicr2 then writeDicr2 value 0xffffffff
    else if address = Upse.dmacEnable then modifyDma fun dma => { dma with dmacEnable := value }
    else throw (.error (.invalidRegister address))

/-- Writes one register halfword. -/
def writeU16 (address : ℕ) (value : BitVec 16) (now : Deadline) :
    EStateM DmaFault (DmaMachine E) Unit := do
  let base := address - address % 4
  let low := address % 4 < 2
  let shifted : Word := if low then value.setWidth 32 else value.setWidth 32 <<< 16
  let mask : Word := if low then 0x0000ffff else 0xffff0000
  if base = Upse.dicr1 then writeDicr1 shifted mask
  else if base = Upse.dicr2 then writeDicr2 shifted mask
  else
    let m ← get
    let old ← ErrorState.ofExcept ((m.dma.readU32 base).mapError .error)
    writeU32 base (old &&& ~~~mask ||| shifted) now

/-! ### Transfers -/

/-- Validates the range of a transfer against the length of RAM. -/
def validateRamRange (channel base words : ℕ) (decrement : Bool) (ramLen : ℕ) :
    Except DmaError Unit :=
  if words = 0 then .ok ()
  else
    match (checkedSub words 1).bind fun value => checkedMul 64 value 4 with
    | none => .error .clockOverflow
    | some byteSpan =>
      let valid : Bool :=
        if decrement then byteSpan ≤ base
        else
          match (checkedAdd 64 base byteSpan).bind fun last => checkedAdd 64 last 4 with
          | some stop => stop ≤ ramLen
          | none => false
      if !valid then .error (.ramRange channel base words decrement) else .ok ()

/-- The address of a word; `none` where the 32-bit sum or difference overflows. -/
def transferAddress (base index : ℕ) (decrement : Bool) : Option ℕ :=
  let byteOffset := index * 4 % 2 ^ 32
  if decrement then checkedSub base byteOffset else checkedAdd 32 base byteOffset

/-- Reads a little-endian word, or panics outside RAM. -/
def readRamWord (offset : ℕ) : EStateM DmaFault (DmaMachine E) Word := do
  modify fun m => { m with touched := m.touched ++ [offset] }
  let m ← get
  if h : offset + 4 ≤ ramSize then
    return m.ram ⟨offset + 3, by omega⟩ ++ m.ram ⟨offset + 2, by omega⟩ ++
      m.ram ⟨offset + 1, by omega⟩ ++ m.ram ⟨offset, by omega⟩
  else throw .panic

/-- Writes a little-endian word, or panics outside RAM. -/
def writeRamWord (offset : ℕ) (value : Word) : EStateM DmaFault (DmaMachine E) Unit := do
  modify fun m => { m with touched := m.touched ++ [offset] }
  if offset + 4 ≤ ramSize then
    modify fun m => { m with ram := fun i =>
      if offset ≤ i ∧ i < offset + 4 then value.extractLsb' (8 * (i - offset)) 8 else m.ram i }
  else throw .panic

/-- Moves one word. -/
def transferWord (endpoint : Spu2DmaEndpoint E) (channel : SoundDmaChannel)
    (direction : DmaDirection) (offset : ℕ) : EStateM DmaFault (DmaMachine E) Unit := do
  match direction with
  | .fromRam =>
    let value ← readRamWord offset
    let m ← get
    let (result, state) := endpoint.writeWord channel value m.endpoint
    set { m with endpoint := state }
    ErrorState.ofExcept (result.mapError fun e => .error (.endpoint e))
  | .toRam =>
    let m ← get
    let (result, state) := endpoint.readWord channel m.endpoint
    set { m with endpoint := state }
    let value ← ErrorState.ofExcept (result.mapError fun e => .error (.endpoint e))
    writeRamWord offset value

/-- Moves the words from `index` on. -/
def transferLoop (endpoint : Spu2DmaEndpoint E) (channel : SoundDmaChannel)
    (pending : PendingTransfer) : ℕ → ℕ → EStateM DmaFault (DmaMachine E) Unit
  | 0, _ => return
  | remaining + 1, index => do
    let offset ← okOr (transferAddress pending.address index pending.decrement) .panic
    transferWord endpoint channel pending.direction offset
    transferLoop endpoint channel pending remaining (index + 1)

/-- Moves the words of a transfer. -/
def transfer (endpoint : Spu2DmaEndpoint E) (channel : SoundDmaChannel)
    (pending : PendingTransfer) : EStateM DmaFault (DmaMachine E) Unit := do
  ErrorState.ofExcept ((validateRamRange channel.channel pending.address pending.words
    pending.decrement ramSize).mapError .error)
  transferLoop endpoint channel pending pending.words 0

/-- The sound channel an event completes. -/
def eventChannel (event : EventId) : Option SoundDmaChannel :=
  if event = channel4Event then some .core0
  else if event = channel7Event then some .core1
  else none

/-- Completes one due sound transfer. -/
def complete (endpoint : Spu2DmaEndpoint E) (event : DueEvent) :
    EStateM DmaFault (DmaMachine E) Unit := do
  modify fun m => { m with touched := [] }
  let channel ← okOr (eventChannel event.id) (.error (.staleEvent event.id))
  let m ← get
  let pending ← okOr (m.dma.pending channel) (.error (.staleEvent event.id))
  throwIf (pending.deadline ≠ event.deadline) (.error (.staleEvent event.id))
  transfer endpoint channel pending
  modifyDma fun dma => dma.setPending channel none
  throwIf (2 ^ 32 ≤ pending.words * 4) (.error .clockOverflow)
  let byteCount : Word := BitVec.ofNat 32 (pending.words * 4)
  modifyDma fun dma => dma.setChannel channel.channel fun c =>
    { c with
      madr := (if pending.decrement then c.madr - byteCount else c.madr + byteCount) &&&
        ramAddressMask
      chcr := c.chcr &&& ~~~chcrStart }
  modify fun m => { m with events := m.events ++ [.completed channel pending.direction pending.words] }
  finishChannel channel

end DmaMachine

/-- One step of the guest or of the scheduler: a register write, or a due event. -/
inductive DmaOp where
  | writeU32 (address : ℕ) (value : Word) (now : Deadline)
  | writeU16 (address : ℕ) (value : BitVec 16) (now : Deadline)
  | complete (event : DueEvent)
  deriving DecidableEq, Repr

/-- Runs one step. -/
def DmaOp.perform {E : Type} (endpoint : Spu2DmaEndpoint E) :
    DmaOp → EStateM DmaFault (DmaMachine E) Unit
  | .writeU32 address value now => DmaMachine.writeU32 address value now
  | .writeU16 address value now => DmaMachine.writeU16 address value now
  | .complete event => DmaMachine.complete endpoint event

/-- One step leaves this state, whether it returned or failed. -/
def DmaMachine.Next {E : Type} (endpoint : Spu2DmaEndpoint E) (m : DmaMachine E) (op : DmaOp)
    (m' : DmaMachine E) : Prop :=
  leaves ((op.perform endpoint).run m) = m'

/-- The little-endian word of RAM at an offset. -/
def ramWord (ram : Ram) (offset : ℕ) : Word :=
  if h : offset + 4 ≤ ramSize then
    ram ⟨offset + 3, by omega⟩ ++ ram ⟨offset + 2, by omega⟩ ++ ram ⟨offset + 1, by omega⟩ ++
      ram ⟨offset, by omega⟩
  else 0

end Upse
