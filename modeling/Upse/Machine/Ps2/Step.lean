import Mathlib.Data.Finset.Basic
import Upse.Bios.Modules.Registry
import Upse.Lib.Pulled
import Upse.Machine.Ps2.Callbacks
import Upse.Machine.Ps2.Idle
import Upse.Support.RateConverter

/-!
# One step of the PS2 machine

The IOP on its bus, the firmware, and the clock of the sound unit.  The machine composes its parts
and does not look into the sound unit, the refresh clock or the firmware: these are parameters, with
the operations the machine uses of them.  A step returns from a callback, a module or a thread,
enters a pending callback, idles, or executes one instruction; the sound unit's frames are queued as
the devices advance, or discarded while an advance owes some.
-/

namespace Upse.Ps2

open ErrorState R3000 Iop

/-- A scalar audio sample. -/
abbrev Sample := BitVec 16

def iopClockHz : ℕ := 36864000

/-- Frames the sound unit renders a second. -/
def sampleRate : ℕ := 48000

def audioChunkFrames : ℕ := 256
def idleAdvanceCycles : ℕ := 768

/-- The rendered samples of one chunk. -/
abbrev AudioBuffer := Vector Sample (audioChunkFrames * 2)

/-- The start of a module that has not returned yet. -/
structure ModuleFrame where
  moduleId : ℕ
  threadId : ℕ
  requester : Option ℕ
  argumentAllocation : Option ℕ
  resultAddress : Option ℕ
  deriving DecidableEq, Repr

/-- How a service hands control back. -/
inductive ServiceAction where
  | returnToCaller
  | contextSwitch
  | callModule
  | halt
  deriving DecidableEq, Repr

/-- What a named import is given to work on. -/
structure ServiceMachine (Sound Bios : Type) where
  bios : Bios
  memory : Memory
  sound : Sound
  irq : InterruptController
  timers : IopTimers
  context : CpuContext
  interruptsEnabled : Bool
  enabledInterrupts : Finset ℕ
  threadStacks : ℕ → Option ℕ
  moduleFrames : List ModuleFrame

/-- The parts the machine composes, as the operations it uses of them. -/
structure Components where
  Fault : Type
  Sound : Type
  spu2 : Spu2MmioEndpoint Sound
  soundDma : Spu2DmaEndpoint Sound
  render : ℕ → EStateM Fault (Sound × AudioBuffer) Unit
  drainIrq : Sound × InterruptController → Sound × InterruptController
  Refresh : Type
  advanceRefresh : ℕ → EStateM Fault Refresh (List (TimingEvent × InterruptSource))
  Bios : Type
  Import : Type
  currentThread : Bios → Option ℕ
  reschedule : EStateM Fault (Bios × CpuContext) (Option ℕ)
  exitCurrent : EStateM Fault (Bios × CpuContext) (Option ℕ)
  exitDeleteCurrent : EStateM Fault (Bios × CpuContext) (Option ℕ)
  dispatchInterrupt : ℕ → Bios → Option CallbackRequest
  dispatchVblank : ℕ → Bios → Option (List CallbackRequest)
  enterInterrupt : EStateM Fault (Bios × Memory × CpuContext) Unit
  returnFromException : Memory → EStateM Fault (Bios × CpuContext) Unit
  enterCallback : CallbackRequest → EStateM Fault (Bios × CpuContext) Unit
  returnFromCallback : EStateM Fault (Bios × CpuContext) Unit
  timerCallback : TimerId → Bios → Option CallbackRequest × Bios
  finishTimerCallback : TimerId → Bios → Bios
  takeTty : Bios → List Str × Bios
  completeStart : ℕ → ResidentState → EStateM Fault (Bios × Memory) Unit
  completeModuleStart : ℕ → ℕ → ℕ → Word → EStateM Fault Bios Unit
  freeMemory : ℕ → Bios → Bios
  notifyVblank : ℕ → EStateM Fault Bios Unit
  advanceTo : Deadline → EStateM Fault Bios (List KernelEvent)
  containing : Word → Bios → Option ℕ
  resolve : Word → ℕ → Word → Bios → Except Fault Import
  dispatch : Import → Bool → Bool → EStateM Fault (ServiceMachine Sound Bios) ServiceAction

/-- Kind of work performed by one step. -/
inductive MachineStepKind where
  | cpu (event : StepEvent)
  | importCall
  | moduleReturn
  | callbackReturn
  | threadReturn
  | idle
  deriving DecidableEq, Repr

/-- Observable result of one step. -/
structure MachineStep where
  cycles : ℕ
  kind : MachineStepKind
  deriving DecidableEq, Repr

variable (C : Components)

/-- Why the IOP failed. -/
inductive HardwareError where
  | cpu (source : CpuError BusFault)
  | timer (source : TimerError)
  | refresh (source : C.Fault)
  | dma (source : BusFault)
  | clockOverflow

/-- End-to-end machine failure. -/
inductive MachineError where
  | firmware (source : C.Fault)
  | kernel (source : KernelError)
  | hardware (source : HardwareError C)
  | memory (source : MemoryError)
  | spu2 (source : C.Fault)
  | clockOverflow
  | unhandledException (exception : R3000.Exception) (pc : Word)
  | unexpectedReturn (pc : Word)
  | outputSize (expected actual : ℕ)
  | residentCode (moduleId : ℕ) (value : Word)

/-- The machine without its queued audio. -/
structure Core where
  iop : IopCore C.Sound
  refresh : C.Refresh
  timingEvents : List TimingEvent
  bios : C.Bios
  sampleClock : RateConverter
  audioBuffer : AudioBuffer
  moduleFrames : List ModuleFrame
  threadStacks : ℕ → Option ℕ
  callbacks : List CallbackRequest
  interruptCallbacks : List CallbackRequest
  timerCallbacks : List (TimerId × CallbackRequest)
  dmaEvents : ℕ
  callbackActive : Option ActiveCallback
  interruptsEnabled : Bool
  enabledInterrupts : Finset ℕ
  halted : Bool

/-- The complete machine state: the queued audio and the frames to discard are those of `Pulled`. -/
abbrev MachineState := Pulled (Core C) Sample

/-- Programs of the machine that do not touch the queued audio. -/
abbrev CoreM := EStateM (MachineError C) (Core C)

/-- Programs of the machine. -/
abbrev MachineM := EStateM (MachineError C) (MachineState C)

variable {C}

/-! ### The parts of the machine -/

namespace Core

/-- The processor. -/
def cpu (core : Core C) : Cpu := core.iop.cpu

/-- Replaces the processor. -/
def setCpu (cpu : Cpu) (core : Core C) : Core C := { core with iop := { core.iop with cpu := cpu } }

/-- Replaces the devices. -/
def setDevices (devices : Devices C.Sound) (core : Core C) : Core C :=
  { core with iop := { core.iop with devices := devices } }

/-- Replaces the memory. -/
def setMemory (memory : Memory) (core : Core C) : Core C :=
  core.setDevices { core.iop.devices with memory := memory }

/-- Replaces the interrupt controller. -/
def setIrq (irq : InterruptController) (core : Core C) : Core C :=
  core.setDevices { core.iop.devices with irq := irq }

end Core

/-- Changes the core. -/
def modifyCore (f : Core C → Core C) : CoreM C Unit := modify f

/-- An operation of the firmware on its own state. -/
def onBios {α : Type} (m : EStateM C.Fault C.Bios α) : CoreM C α :=
  zoom Core.bios (fun bios core => { core with bios := bios }) MachineError.firmware m

/-- An operation of the firmware on guest memory. -/
def onBiosMemory {α : Type} (m : EStateM C.Fault (C.Bios × Memory) α) : CoreM C α :=
  zoom (fun core => (core.bios, core.iop.devices.memory))
    (fun (bios, memory) core => { core.setMemory memory with bios := bios }) MachineError.firmware m

/-- An operation of the firmware on saved registers, which come back with the result. -/
def onContext {α : Type} (context : CpuContext) (m : EStateM C.Fault (C.Bios × CpuContext) α) :
    CoreM C (α × CpuContext) := fun core =>
  match m.run (core.bios, context) with
  | .ok a (bios, context) => .ok (a, context) { core with bios := bios }
  | .error e (bios, _) => .error (.firmware e) { core with bios := bios }

/-- Enters the interrupt vector from saved registers. -/
def enterInterrupt (context : CpuContext) : CoreM C CpuContext := fun core =>
  match C.enterInterrupt.run (core.bios, core.iop.devices.memory, context) with
  | .ok _ (bios, memory, context) => .ok context { core.setMemory memory with bios := bios }
  | .error e (bios, memory, _) =>
    .error (.firmware e) { core.setMemory memory with bios := bios }

/-- Installs the registers the scheduler has chosen, or halts without any. -/
def switchTo (current : Option ℕ) (context : CpuContext) : CoreM C Unit :=
  modifyCore fun core =>
    if current.isSome then { core.setCpu (applyBiosContext core.cpu context) with halted := false }
    else { core with halted := true }

/-! ### Returns -/

/-- Installs BIOS-visible registers, and clears the pipeline where they go elsewhere. -/
def applyBiosContextPreservingPipeline (cpu : Cpu) (context : CpuContext) : Cpu :=
  let interruptedPc := cpu.pc
  let cpu := (List.range 32).foldl
    (fun (cpu : Cpu) index => cpu.setRegister index ((context.register index).getD 0)) cpu
  let cpu := cpu.setHiLo context.hi context.lo
  let cpu := { cpu with cop0 := { cpu.cop0 with
    status := context.status, cause := context.cause, epc := context.epc } }
  if context.pc ≠ interruptedPc then cpu.setPc context.pc else cpu

/-- The interrupt of a timer. -/
def timerInterrupt : TimerId → InterruptSource
  | .timer0 => .timer0
  | .timer1 => .timer1
  | .timer2 => .timer2
  | .timer3 => .timer3
  | .timer4 => .timer4
  | .timer5 => .timer5

/-- Returns from the handler of a timer, whose latched request it has served. -/
def returnFromTimer (timer : TimerId) (context : CpuContext) : CoreM C CpuContext := do
  let (_, context) ← onContext context C.returnFromCallback
  modifyCore fun core =>
    let irq := core.iop.devices.irq
    let retained := irq.status &&& ~~~(timerInterrupt timer).bit
    { core.setIrq (irq.acknowledge retained) with bios := C.finishTimerCallback timer core.bios }
  return context

/-- Returns from a callback to the CPU it interrupted. -/
def returnFrom (active : ActiveCallback) : CoreM C MachineStep := do
  let core ← get
  let context := biosContext core.cpu
  let context ← match active.kind with
    | .kernel => Prod.snd <$> onContext context C.returnFromCallback
    | .interrupt => Prod.snd <$> onContext context (C.returnFromException core.iop.devices.memory)
    | .timer timer => returnFromTimer timer context
  modifyCore fun core =>
    { core.setCpu (applyBiosContextPreservingPipeline active.interruptedCpu context) with
      callbackActive := none }
  return ⟨1, .callbackReturn⟩

/-- What the entry of a module has returned. -/
def residentState (moduleId : ℕ) (value : Word) : Except (MachineError C) ResidentState :=
  match value.toNat with
  | 0 => .ok .resident
  | 1 => .ok .notResident
  | 2 => .ok .removable
  | _ => .error (.residentCode moduleId value)

/-- Completes the start of the module whose frame is on top. -/
def completeStart (frame : ModuleFrame) : CoreM C MachineStep := do
  let result := ((← get).cpu.register v0).getD 0
  let residency ← ErrorState.ofExcept (residentState frame.moduleId result)
  onBiosMemory (C.completeStart frame.moduleId residency)
  if let some address := frame.argumentAllocation then
    modifyCore fun core => { core with bios := C.freeMemory address core.bios }
  if let some address := frame.resultAddress then
    let memory ← ErrorState.ofExcept
      (((← get).iop.devices.memory.writeU32 (BitVec.ofNat 32 address) result).mapError .memory)
    modifyCore (·.setMemory memory)
  throwIf (C.currentThread (← get).bios ≠ some frame.threadId) (.kernel .illegalContext)
  if let some requester := frame.requester then
    onBios (C.completeModuleStart requester frame.threadId frame.moduleId result)
  let (current, context) ← onContext (biosContext (← get).cpu) C.exitDeleteCurrent
  if let some stack := (← get).threadStacks frame.threadId then
    modifyCore fun core =>
      { core with
        threadStacks := Function.update core.threadStacks frame.threadId none
        bios := C.freeMemory stack core.bios }
  switchTo current context
  return ⟨1, .moduleReturn⟩

/-- The return of a callback, or else of a module's entry. -/
def handleReturn : CoreM C MachineStep := do
  let core ← get
  match core.callbackActive, core.moduleFrames.getLast? with
  | some active, _ => returnFrom active
  | none, none => throw (.unexpectedReturn returnEntry)
  | none, some frame =>
    modifyCore fun core => { core with moduleFrames := core.moduleFrames.dropLast }
    completeStart frame

/-- A thread has returned from its entry. -/
def handleThreadReturn : CoreM C MachineStep := do
  let (current, context) ← onContext (biosContext (← get).cpu) C.exitCurrent
  switchTo current context
  return ⟨1, .threadReturn⟩

/-! ### Callbacks -/

/-- Installs the registers of a callback, and remembers the CPU it interrupts. -/
def activate (kind : ActiveCallbackKind) (context : CpuContext) : CoreM C Unit :=
  modifyCore fun core =>
    { core.setCpu (applyBiosContext core.cpu context) with
      callbackActive := some ⟨kind, core.cpu⟩ }

/-- Enters a callback through the interrupt vector. -/
def enterHandler (callback : CallbackRequest) : CoreM C Unit := do
  let context ← enterInterrupt (biosContext (← get).cpu)
  activate .interrupt (callback.apply context)

/-- Enters a callback through the kernel. -/
def enterKernelCallback (kind : ActiveCallbackKind) (callback : CallbackRequest) : CoreM C Unit := do
  let (_, context) ← onContext (biosContext (← get).cpu) (C.enterCallback callback)
  activate kind context

/-- The handler of the controller's first pending source, if it has one. -/
def pendingHandler (core : Core C) : Option CallbackRequest :=
  core.iop.devices.irq.firstPending.bind fun source => C.dispatchInterrupt source.index core.bios

/-- Enters at most one pending callback. -/
def enterPendingCallback : CoreM C Unit := do
  let core ← get
  if core.callbackActive.isSome ∨ !core.interruptsEnabled then return ()
  else
    match pendingHandler core, core.interruptCallbacks, core.timerCallbacks, core.callbacks with
    | some callback, _, _, _ => enterHandler callback
    | none, callback :: rest, _, _ =>
      modifyCore fun core => { core with interruptCallbacks := rest }
      enterHandler callback
    | none, [], (timer, callback) :: rest, _ =>
      modifyCore fun core => { core with timerCallbacks := rest }
      enterKernelCallback (.timer timer) callback
    | none, [], [], callback :: rest =>
      modifyCore fun core => { core with callbacks := rest }
      enterKernelCallback .kernel callback
    | none, [], [], [] => return ()

/-! ### The start of a step -/

/-- What a step goes on with. -/
inductive Head where
  | done (outcome : MachineStep)
  | idle
  | execute (prefetched : Option Word)

/-- Reads the program at the program counter. -/
def probe : CoreM C (Bool × Option Word) :=
  zoom Core.iop (fun iop core => { core with iop := iop })
    (fun
      | .memory source => .memory source
      | .cpu source => .hardware (.cpu source)) probeIdleLoop

/-- Goes on with the guest, unless it halts or loops without effect. -/
def guestHead : CoreM C Head := do
  if (← get).halted then return .idle
  else
    let (idle, instruction) ← probe
    if idle then return .idle else return .execute instruction

/-- A return, or else the guest after at most one pending callback, when there is a thread to run. -/
def head : CoreM C Head := do
  let pc := (← get).cpu.pc
  if pc = returnEntry then .done <$> handleReturn
  else if pc = threadReturnEntry then .done <$> handleThreadReturn
  else
    enterPendingCallback
    let core ← get
    if core.callbackActive.isNone ∧ (C.currentThread core.bios).isNone then
      let (current, context) ← onContext (biosContext core.cpu) C.reschedule
      if current.isSome then
        switchTo current context
        guestHead
      else return .idle
    else guestHead

/-! ### Device time -/

/-- Completes every due transfer; no more rounds are needed than events are queued. -/
def completeDue (now : Deadline) : ℕ → CoreM C Unit
  | 0 => return ()
  | rounds + 1 => do
    let core ← get
    let (event, scheduler) := core.iop.devices.scheduler.popDue now
    set (core.setDevices { core.iop.devices with scheduler := scheduler })
    match event with
    | none => return ()
    | some event =>
      zoom (fun core => core.iop.devices) Core.setDevices (fun source => .hardware (.dma source))
        (Devices.onDma event.deadline (DmaMachine.complete C.soundDma event))
      completeDue now rounds

/-- The counters' requests are latched, and their events collected. -/
def settleTimers (timers : IopTimers) (core : Core C) : Core C :=
  { core.setDevices { core.iop.devices with
      timers := { timers with requests := [], events := [] }
      irq := timers.requests.foldl InterruptController.request core.iop.devices.irq } with
    timingEvents := core.timingEvents ++ timers.events }

/-- The blanking gates follow an event, which is recorded with the time. -/
def observe (event : TimingEvent) (core : Core C) : Core C :=
  let devices := core.iop.devices
  let timers := match event with
    | .vBlankStart => (devices.timers.setGate .timer1 true).setGate .timer3 true
    | .vBlankEnd => (devices.timers.setGate .timer1 false).setGate .timer3 false
    | .counter _ _ => devices.timers
  core.setDevices { devices with
    timers := timers
    hardwareEvents := devices.hardwareEvents ++ [⟨core.iop.now, .timing event⟩] }

/-- Advances the devices of the IOP: due transfers, counters, refresh. -/
def advanceDevices (cycles : ℕ) : CoreM C Unit := do
  let now ← ErrorState.ofExcept (((← get).iop.now.checkedAdvance cycles).mapError
    fun _ => .hardware .clockOverflow)
  modifyCore fun core => { core with iop := { core.iop with now := now } }
  completeDue now (← get).iop.devices.scheduler.queue.toList.length
  modifyCore fun core => { core with timingEvents := [] }
  zoom (fun core => core.iop.devices.timers) settleTimers (fun source => .hardware (.timer source))
    (IopTimers.advanceCpu cycles)
  let crossed ← zoom Core.refresh (fun refresh core => { core with refresh := refresh })
    (fun source => MachineError.hardware (.refresh source)) (C.advanceRefresh cycles)
  modifyCore fun core =>
    let core := core.setIrq
      ((crossed.map Prod.snd).foldl InterruptController.request core.iop.devices.irq)
    (core.timingEvents ++ crossed.map Prod.fst).foldl (fun core event => observe event core)
      { core with timingEvents := [] }

/-- One instruction, and the devices through its cycle. -/
def executeInstruction (prefetched : Option Word) : CoreM C StepOutcome := do
  let outcome ← zoom Core.iop (fun iop core => { core with iop := iop })
    (fun
      | .memory source => MachineError.memory source
      | .cpu source => .hardware (.cpu source)) (Iop.executeInstruction C.spu2 prefetched)
  advanceDevices 1
  return outcome

/-! ### Sound -/

/-- One chunk of frames: the samples it leaves at the front of the audio buffer. -/
def renderChunk (chunk : ℕ) :
    CoreM C (Vector Sample (min (chunk * 2) (audioChunkFrames * 2))) := do
  zoom (fun core => (core.iop.devices.sound, core.audioBuffer))
    (fun (sound, audioBuffer) core =>
      { core.setDevices { core.iop.devices with sound := sound } with audioBuffer := audioBuffer })
    MachineError.spu2 (C.render chunk)
  return (← get).audioBuffer.take (chunk * 2)

/-- Queues the samples of a chunk after the frames an advance still owes. -/
def queueChunk (frames chunk : ℕ) (samples : List Sample) : MachineM C Unit :=
  modify fun s =>
    let discarded := min (min frames s.discard) chunk
    { s with
      discard := s.discard - discarded
      pending := s.pending ++ samples.drop (discarded * 2) }

/-- The due frames, chunk by chunk; no more rounds are needed than frames are due. -/
def renderDueFrames : ℕ → ℕ → MachineM C Unit
  | 0, _ => return ()
  | rounds + 1, frames => do
    if frames = 0 then return ()
    else
      let chunk := min frames audioChunkFrames
      let samples ← Pulled.onCore (renderChunk chunk)
      queueChunk frames chunk samples.toList
      renderDueFrames rounds (frames - chunk)

/-! ### Events of the devices -/

/-- The interrupt number of a sound transfer. -/
def dmaInterrupt : SoundDmaChannel → ℕ
  | .core0 => 36
  | .core1 => 40

/-- Queues the handler of a transfer that has completed. -/
def queueCompletion (event : DmaEvent) (core : Core C) : Core C :=
  match event with
  | .completed channel _ _ =>
    let interrupt := dmaInterrupt channel
    if interrupt ∈ core.enabledInterrupts then
      { core with interruptCallbacks :=
          core.interruptCallbacks ++ (C.dispatchInterrupt interrupt core.bios).toList }
    else core
  | _ => core

/-- Queues the handler of a counter that has reached its target. -/
def queueTimer (timer : TimerId) (core : Core C) : Core C :=
  let (callback, bios) := C.timerCallback timer core.bios
  { core with
    bios := bios
    timerCallbacks := core.timerCallbacks ++ callback.toList.map fun callback => (timer, callback) }

/-- Wakes the threads that wait for a blank, and queues its handlers. -/
def notifyVblank (event : ℕ) : CoreM C Unit := do
  onBios (C.notifyVblank event)
  modifyCore fun core =>
    { core with callbacks := core.callbacks ++ ((C.dispatchVblank event core.bios).getD []) }

/-- What the machine does about one event of the devices. -/
def handleEvent (event : HardwareEvent) : CoreM C Unit :=
  match event.kind with
  | .dma event =>
    modifyCore fun core =>
      queueCompletion event { core with dmaEvents := min (core.dmaEvents + 1) u64Max }
  | .timing (.counter timer .target) => modifyCore (queueTimer timer)
  | .timing (.counter _ _) => return ()
  | .timing .vBlankStart => notifyVblank 0
  | .timing .vBlankEnd => notifyVblank 1

/-- The sound unit's request, the events of the devices, and the alarms of the kernel. -/
def deliverEvents : CoreM C Unit := do
  modifyCore fun core =>
    let (sound, irq) := C.drainIrq (core.iop.devices.sound, core.iop.devices.irq)
    core.setDevices { core.iop.devices with sound := sound, irq := irq }
  let core ← get
  set (core.setDevices { core.iop.devices with hardwareEvents := [] })
  core.iop.devices.hardwareEvents.forM handleEvent
  let events ← onBios (C.advanceTo (← get).iop.now)
  modifyCore fun core =>
    { core with callbacks := core.callbacks ++ events.filterMap fun
        | .alarm _ callback => some callback
        | .threadReady _ => none }

/-- Everything after the devices have advanced: the frames they make due, then their events. -/
def afterDeviceAdvance (cycles : ℕ) : MachineM C Unit := do
  let dueFrames ← Pulled.onCore (zoom Core.sampleClock
    (fun clock core => { core with sampleClock := clock })
    (fun _ => MachineError.clockOverflow) (RateConverter.advance cycles))
  renderDueFrames dueFrames dueFrames
  Pulled.onCore deliverEvents

/-! ### A step -/

/-- Executes the named import whose stub the CPU was about to enter. -/
def dispatchImport (cpu : Cpu) (entry : Word) : CoreM C Unit := do
  let returnAddress := (cpu.register ra).getD 0
  let callerPc := returnAddress - 8
  let core ← get
  let moduleId := (C.containing callerPc core.bios).getD 0
  let call ← ErrorState.ofExcept ((C.resolve entry moduleId callerPc core.bios).mapError .firmware)
  let saved := biosContext cpu
  let interruptContext := core.callbackActive.isSome || !core.interruptsEnabled
  let machine : ServiceMachine C.Sound C.Bios :=
    { bios := core.bios
      memory := core.iop.devices.memory
      sound := core.iop.devices.sound
      irq := core.iop.devices.irq
      timers := core.iop.devices.timers
      context := { saved with pc := (saved.register ra).getD 0 }
      interruptsEnabled := core.interruptsEnabled
      enabledInterrupts := core.enabledInterrupts
      threadStacks := core.threadStacks
      moduleFrames := core.moduleFrames }
  let leave (machine : ServiceMachine C.Sound C.Bios) (core : Core C) : Core C :=
    { core.setDevices { core.iop.devices with
        memory := machine.memory, sound := machine.sound, irq := machine.irq,
        timers := machine.timers } with
      bios := machine.bios
      interruptsEnabled := machine.interruptsEnabled
      enabledInterrupts := machine.enabledInterrupts
      threadStacks := machine.threadStacks
      moduleFrames := machine.moduleFrames }
  match (C.dispatch call (!core.moduleFrames.isEmpty) interruptContext).run machine with
  | .error e machine =>
    modifyCore (leave machine)
    throw (.firmware e)
  | .ok action machine =>
    let context := if action = .returnToCaller then
        { machine.context with pc := (machine.context.register ra).getD 0 }
      else machine.context
    modifyCore fun core =>
      let core := leave machine core
      { core.setCpu (applyBiosContext core.cpu context) with
        halted := core.halted || action == .halt }

/-- Advances the devices while the guest does nothing. -/
def advanceIdle (cycles : ℕ) : MachineM C Unit := do
  Pulled.onCore (advanceDevices cycles)
  afterDeviceAdvance cycles

/-- Whether an instruction enters an import stub. -/
def entersImport (instruction : Word) : Bool := instruction &&& 0xfc00003f == 0x0000000d

/-- What an instruction comes to: an import when it has entered a stub, else its own effect. -/
def finishInstruction (before : Cpu) (prefetched : Option Word) (outcome : StepOutcome) :
    CoreM C MachineStep := do
  match outcome.event with
  | .instruction => return ⟨outcome.cycles, .cpu .instruction⟩
  | .exception .breakpoint =>
    if prefetched.any entersImport then
      dispatchImport before outcome.pc
      return ⟨outcome.cycles, .importCall⟩
    else throw (.unhandledException .breakpoint outcome.pc)
  | .exception exception => throw (.unhandledException exception outcome.pc)

/-- Executes one guest instruction, and the import it enters. -/
def executeGuest (prefetched : Option Word) : MachineM C MachineStep := do
  let before ← Pulled.onCore (Core.cpu <$> get)
  let outcome ← Pulled.onCore (executeInstruction prefetched)
  afterDeviceAdvance outcome.cycles
  Pulled.onCore (finishInstruction before prefetched outcome)

/-- Executes one guest instruction, import, return, or idle period. -/
def step : MachineM C MachineStep := do
  match ← Pulled.onCore head with
  | .done outcome => return outcome
  | .idle =>
    advanceIdle idleAdvanceCycles
    return ⟨idleAdvanceCycles, .idle⟩
  | .execute prefetched => executeGuest prefetched

/-- Advances without retaining the kind of a step. -/
def stepUnit : MachineM C Unit := (fun _ => ()) <$> step

/-- The machine assembled around the loaded IOP and the booted firmware, with the root module about
to start on its thread. -/
def assemble (iop : IopCore C.Sound) (refresh : C.Refresh) (bios : C.Bios)
    (rootId loaderThread stack : ℕ) : Except ClockError (MachineState C) := do
  let sampleClock ← RateConverter.new iopClockHz sampleRate
  return {
    core :=
      { iop := iop
        refresh := refresh
        timingEvents := []
        bios := bios
        sampleClock := sampleClock
        audioBuffer := .replicate _ 0
        moduleFrames := [⟨rootId, loaderThread, none, none, none⟩]
        threadStacks := Function.update (fun _ => none) loaderThread (some stack)
        callbacks := []
        interruptCallbacks := []
        timerCallbacks := []
        dmaEvents := 0
        callbackActive := none
        interruptsEnabled := true
        enabledInterrupts := ∅
        halted := false }
    pending := []
    discard := 0 }

end Upse.Ps2
