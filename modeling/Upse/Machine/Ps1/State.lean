import Upse.Bios.Ps1.Context
import Upse.Hw.Ps1.Dma
import Upse.Hw.Ps1.Timers
import Upse.Hw.Shared.R3000
import Upse.Lib.Pulled
import Upse.Support.RateConverter

/-!
# The state of the PS1 machine

The CPU, the devices on its bus and the machine's own clocks.  The machine composes its devices and
does not look into the disc drive, the graphics and movie decoders, the DMA controller, the sound
unit or the firmware: these are parameters, with the operations the machine uses of them.
-/

namespace Upse.Ps1

open ErrorState R3000

/-- A scalar audio sample. -/
abbrev Sample := BitVec 16

/-- First physical address of the disc-drive registers, and the last one. -/
def cdromBase : ℕ := 0x1f801800
def cdromEnd : ℕ := cdromBase + 3

def dmaChannelEnd : ℕ := 0x1f8010e8
def dmaChannelHalfwordEnd : ℕ := dmaChannelEnd + 2
def dmaControlEnd : ℕ := 0x1f8010f6
def gp0 : ℕ := 0x1f801810
def gp1 : ℕ := 0x1f801814
def mdecData : ℕ := 0x1f801820
def mdecControlStatus : ℕ := 0x1f801824
def spuBase : ℕ := 0x1f801c00
def spuEnd : ℕ := 0x1f801dff
def timerEnd : ℕ := timerBase + 0x28

/-- Frames the sound unit renders a second. -/
def sampleRate : ℕ := 44100

def audioChunkFrames : ℕ := 256

/-- Ticks the devices may lag behind the CPU before they are advanced. -/
def deviceSyncCycles : ℕ := 256

def idleAdvanceCycles : ℕ := 256

def eventSpecInterrupted : Word := 0x00000002
def eventSpecCommandComplete : Word := 0x00000020
def eventSpecInterrupt : Word := 0x00001000
def eventClassSpu : Word := 0xf0000009
def biosKernelPaddingWord : ℕ := 0x1fc000fc
def biosKernelNameWord : ℕ := 0x1fc0012c
def biosKernelNameValue : Word := 0x2d584543
def biosKernelCodeWord : ℕ := 0x1fc01000
def biosKernelCodeValue : Word := 0x26730004
def biosRegionByte : ℕ := 0x1fc7ff52
def akaoDriverEventReturn : Word := 0x8005b0d0
def akaoDriverEventHandle : Word := 0xf1000001
def akaoDriverArgumentPreload : Word := 0x800980bc
def akaoDriverSequenceCall : Word := 0x800980c0
def akaoDriverSequenceDelay : Word := 0x800980c4

/-- The sentinel a guest callback returns to. -/
def callbackReturnPc : Word := 0xffffff00

/-- The devices and the firmware the machine composes, as the operations it uses of them.  An
operation that requests interrupts is given the sink and how to make a request. -/
structure Components where
  Fault : Type
  Cdrom : Type
  cdromRead : ℕ → EStateM Fault Cdrom (BitVec 8)
  cdromWrite : ℕ → BitVec 8 → EStateM Fault Cdrom Unit
  Gpu : Type
  gpuRead : ℕ → Gpu → Except Fault Word
  gpuWrite : ℕ → Word → EStateM Fault Gpu Unit
  gpuSynchronize : Gpu → Word × Gpu
  Mdec : Type
  mdecRead : ℕ → Mdec → Except Fault Word
  mdecWrite : ℕ → Word → EStateM Fault Mdec Unit
  Spu : Type
  spuRead : ℕ → Spu → Except Fault (BitVec 16)
  spuWrite : ℕ → BitVec 16 → EStateM Fault Spu Unit
  spuRenderFrame : EStateM Fault Spu (Sample × Sample)
  spuDrainIrq : Spu → Bool × Spu
  Dma : Type
  dmaRead : ℕ → Dma → Except Fault Word
  dmaWrite : {S : Type} → (InterruptSource → S → S) → ℕ → Word → Deadline →
    EStateM Fault (Dma × Scheduler × S) Unit
  dmaServiceMdecIn : {S : Type} → (InterruptSource → S → S) → Memory →
    EStateM Fault (Dma × Mdec × S) Bool
  dmaComplete : {S : Type} → (InterruptSource → S → S) → DueEvent →
    EStateM Fault (Dma × Memory × Spu × S) Unit
  Bios : Type
  Callback : Type
  interruptsEnabled : Bios → Bool
  interruptHook : Bios → Option Word
  callbackActive : Bios → Bool
  libcCallbackActive : Bios → Bool
  clearRootCounter : Bios → ℕ → Option Bool
  takeCallback : Bios → Option Callback × Bios
  signalEvent : Word → Word → EStateM Fault Bios ℕ
  enterCallback : Callback → EStateM Fault (Bios × CpuContext) Unit
  returnFromCallback : EStateM Fault (Bios × CpuContext) Unit
  dispatchSyscall : Word → EStateM Fault (Bios × CpuContext) HleOutcome
  resumeLibcCallback : EStateM Fault (Bios × Memory × CpuContext) HleOutcome
  prepareInterruptHook : EStateM Fault (Bios × Memory × CpuContext) Bool
  dispatch : BiosVector → EStateM Fault (Bios × Memory × CpuContext) HleOutcome

/-- Same-cycle device event recorded by optional tracing. -/
inductive MachineEvent where
  | interrupt (source : InterruptSource)
  | dmaComplete
  | audioFrames (frames : ℕ)
  deriving DecidableEq, Repr

/-- Kind of execution performed by one machine step. -/
inductive MachineStepKind where
  | cpu (event : StepEvent)
  | bios (vector : BiosVector)
  | syscall (number : Word)
  | callbackReturn
  | libcCallback
  | nullCall
  | halt
  | interrupt (source : InterruptSource)
  | idle
  deriving DecidableEq, Repr

/-- Observable result of one CPU or firmware boundary plus device advancement. -/
structure MachineStep where
  cycles : ℕ
  kind : MachineStepKind
  deriving DecidableEq, Repr

variable (C : Components)

/-- Why a bus transaction failed. -/
inductive BusFault where
  | memory (source : MemoryError)
  | irq (source : IrqError)
  | timer (source : TimerError)
  | device (source : C.Fault)
  | unmodeledRead (address : ℕ)
  | unmodeledWrite (address : ℕ)

/-- End-to-end machine failure. -/
inductive MachineError where
  | memory (source : MemoryError)
  | cpu (source : CpuError (BusFault C))
  | bios (vector : BiosVector) (function : BitVec 8) (ra a0 a1 a2 a3 : Word) (source : C.Fault)
  | gpu (source : C.Fault)
  | biosState (source : C.Fault)
  | callbackCpuState
  | syscall (number pc : Word) (source : C.Fault)
  | timer (source : TimerError)
  | dma (source : C.Fault)
  | spu (source : C.Fault)
  | clockOverflow
  | outputSize (expected actual : ℕ)

/-- The devices on the CPU's bus. -/
structure Devices where
  memory : Memory
  cdrom : C.Cdrom
  gpu : C.Gpu
  mdec : C.Mdec
  irq : InterruptController
  timers : RootCounters
  dma : C.Dma
  spu : C.Spu
  scheduler : Scheduler

/-- The machine without its queued audio. -/
structure Core where
  cpu : Cpu
  devices : Devices C
  refresh : VBlankClock
  hblankClock : RateConverter
  bios : C.Bios
  now : Deadline
  sampleClock : RateConverter
  deferredDeviceTicks : ℕ
  audioBuffer : Vector Sample (audioChunkFrames * 2)
  callbackCpu : Option Cpu
  libcCpu : Option Cpu
  interruptCpu : Option Cpu
  halted : Bool
  traceEvents : Bool
  eventLog : List MachineEvent

/-- The complete machine state: the queued audio and the frames to discard are those of `Pulled`. -/
abbrev MachineState := Pulled (Core C) Sample

variable {C}

/-- Where devices send interrupt requests while they are advanced: each is latched and, when tracing,
recorded, and the machine reports it to the firmware afterwards. -/
structure EventSink where
  irq : InterruptController
  trace : Bool
  events : List MachineEvent
  requests : List InterruptSource

/-- Requests an interrupt, and records it. -/
def EventSink.request (source : InterruptSource) (sink : EventSink) : EventSink :=
  { sink with
    irq := sink.irq.request source
    requests := sink.requests ++ [source]
    events := if sink.trace then sink.events ++ [.interrupt source] else sink.events }

namespace Core

/-- Changes the devices. -/
def modifyDevices (f : Devices C → Devices C) : EStateM (MachineError C) (Core C) Unit :=
  modify fun core => { core with devices := f core.devices }

/-- Changes the processor. -/
def modifyCpu (f : Cpu → Cpu) : EStateM (MachineError C) (Core C) Unit :=
  modify fun core => { core with cpu := f core.cpu }

end Core

/-! ### Saved registers -/

/-- The registers as the firmware sees them. -/
def cpuContext (cpu : Cpu) : CpuContext :=
  { (List.range 32).foldl (fun context index =>
      context.setRegister index ((cpu.register index).getD 0))
      (CpuContext.reset cpu.pc ((cpu.register 29).getD 0)) with
    hi := cpu.hi
    lo := cpu.lo }

/-- Puts the firmware's registers into the processor. -/
def applyContext (cpu : Cpu) (context : CpuContext) : Cpu :=
  ((List.range 32).foldl (fun cpu index =>
    cpu.setRegister index ((context.register index).getD 0)) cpu).setPc context.pc

end Upse.Ps1
