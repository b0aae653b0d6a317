import Upse.Machine.Ps1.Bus

/-!
# One boundary of the PS1 machine

What a step does before the devices advance: a firmware return sentinel, an interrupt or a deferred
callback, a firmware call, an idle loop, or one guest instruction.  Each reports the cycles it
charges and whether the devices must be synchronised.
-/

namespace Upse.Ps1

open ErrorState R3000 Upse.Ps1.Core

variable {C : Components}

/-- Programs of the machine that do not touch the queued audio. -/
abbrev CoreM (C : Components) := EStateM (MachineError C) (Core C)

/-- What a boundary charges. -/
structure Boundary where
  cycles : ℕ
  synchronize : Bool
  kind : MachineStepKind
  deriving DecidableEq, Repr

/-! ### Calls into the firmware -/

/-- A firmware call on saved registers and guest memory; the registers come back with the result. -/
def callBios {α : Type} (context : CpuContext) (fail : C.Fault → CpuContext → MachineError C)
    (m : EStateM C.Fault (C.Bios × Memory × CpuContext) α) : CoreM C (α × CpuContext) := fun core =>
  match m.run (core.bios, core.devices.memory, context) with
  | .ok a (bios, memory, context) =>
    .ok (a, context) { core with bios := bios, devices.memory := memory }
  | .error e (bios, memory, context) =>
    .error (fail e context) { core with bios := bios, devices.memory := memory }

/-- A firmware operation that leaves guest memory alone. -/
def withoutMemory {α : Type} (m : EStateM C.Fault (C.Bios × CpuContext) α) :
    EStateM C.Fault (C.Bios × Memory × CpuContext) α :=
  zoom (fun (bios, _, context) => (bios, context))
    (fun (bios, context) (_, memory, _) => (bios, memory, context)) id m

/-- Delivers an event to the firmware. -/
def signalEvent (event spec : Word) : CoreM C Unit :=
  (fun _ => ()) <$> zoom Core.bios (fun bios core => { core with bios := bios })
    MachineError.biosState (C.signalEvent event spec)

/-- Reads a word of memory. -/
def readMemoryU32 (address : Word) : CoreM C Word := do
  ErrorState.ofExcept (((← get).devices.memory.readU32 address).mapError .memory)

/-! ### Interrupts and callbacks -/

/-- The counters of the default interrupt handler, in the order it looks at them. -/
def defaultInterruptOrder : List (InterruptSource × ℕ) :=
  [(.vBlank, 3), (.timer2, 2), (.timer1, 1), (.timer0, 0)]

/-- Signals the pending counters in order, up to the first one the firmware acknowledges itself. -/
def handleDefaultInterruptLoop (pending : BitVec 16) :
    List (InterruptSource × ℕ) → CoreM C (Option InterruptSource)
  | [] => return none
  | (source, counter) :: rest => do
    if pending &&& source.bit = 0 then handleDefaultInterruptLoop pending rest
    else
      signalEvent (0xf2000000 ||| BitVec.ofNat 32 counter) eventSpecInterrupted
      if C.clearRootCounter (← get).bios counter = some true then
        modifyDevices fun devices =>
          { devices with irq := devices.irq.acknowledge (~~~source.bit) }
        return some source
      else handleDefaultInterruptLoop pending rest

/-- Serves the interrupts no hook takes. -/
def handleDefaultInterrupt : CoreM C (Option InterruptSource) := do
  let irq := (← get).devices.irq
  handleDefaultInterruptLoop (irq.status &&& irq.mask) defaultInterruptOrder

/-- Enters the guest's interrupt hook. -/
def enterInterruptHook : CoreM C Unit := do
  let savedCpu := (← get).cpu
  let (prepared, context) ← callBios (cpuContext savedCpu) (fun e _ => .biosState e)
    C.prepareInterruptHook
  if prepared then
    modify fun core =>
      { core with interruptCpu := some savedCpu, cpu := applyContext core.cpu context }
  else return ()

/-- Delivers a pending interrupt: the default handler's answer ends the step, a hook is entered. -/
def deliverInterrupt : CoreM C (Option InterruptSource) := do
  let core ← get
  if core.interruptCpu.isNone ∧ core.callbackCpu.isNone ∧ core.libcCpu.isNone ∧
      C.interruptsEnabled core.bios ∧ core.devices.irq.pending then
    match ← handleDefaultInterrupt with
    | some source => return some source
    | none =>
      if (C.interruptHook (← get).bios).isSome then
        enterInterruptHook
        return none
      else return none
  else return none

/-- Enters the oldest deferred event callback. -/
def enterDeferredCallback : CoreM C Unit := do
  let core ← get
  if C.interruptsEnabled core.bios ∧ core.interruptCpu.isNone ∧ !C.callbackActive core.bios then
    let (callback, bios) := C.takeCallback core.bios
    set { core with bios := bios }
    match callback with
    | none => return ()
    | some callback =>
      let (_, context) ← callBios (cpuContext core.cpu) (fun e _ => .biosState e)
        (withoutMemory (C.enterCallback callback))
      modify fun core =>
        { core with callbackCpu := some core.cpu, cpu := applyContext core.cpu context }
  else return ()

/-- The guest returned to the callback sentinel. -/
def returnBoundary (synchronize : Bool) : CoreM C Boundary := do
  let core ← get
  let context := cpuContext core.cpu
  if C.libcCallbackActive core.bios then
    let (outcome, context) ← callBios context (fun e _ => .biosState e) C.resumeLibcCallback
    let cpu ← okOr core.libcCpu .callbackCpuState
    modify fun core =>
      { core with
        cpu := applyContext cpu context
        libcCpu := if outcome.action = .call then core.libcCpu else none }
    return ⟨outcome.cycles, synchronize, .libcCallback⟩
  else
    (fun _ => ()) <$> callBios context (fun e _ => .biosState e) (withoutMemory C.returnFromCallback)
    let cpu ← okOr core.callbackCpu .callbackCpuState
    modify fun core => { core with cpu := cpu, callbackCpu := none }
    return ⟨1, synchronize, .callbackReturn⟩

/-! ### Firmware calls -/

/-- The firmware vector at an address. -/
def biosVector (pc : Word) : Option BiosVector :=
  match (pc &&& 0x1fffffff).toNat with
  | 0xa0 => some .a0
  | 0xb0 => some .b0
  | 0xc0 => some .c0
  | _ => none

/-- Leaves the exception mode: the return address, with the mode stack popped. -/
def restoreExceptionStatus : CoreM C Word := do
  let cop0 := (← get).cpu.cop0
  modifyCpu fun cpu =>
    { cpu with cop0.status := (cop0.status &&& ~~~(0x0f : Word)) ||| ((cop0.status >>> 2) &&& 0x0f) }
  return cop0.epc

/-- The interrupt and the counter a root-counter handle names. -/
def rootCounterHandle (handle : Word) : InterruptSource × Option TimerId :=
  match (handle &&& 3).toNat with
  | 0 => (.timer0, some .timer0)
  | 1 => (.timer1, some .timer1)
  | 2 => (.timer2, some .timer2)
  | _ => (.vBlank, none)

/-- The counter mode a root-counter set-up call programs. -/
def rootCounterMode (timer : TimerId) (flags : Word) : CounterMode :=
  let clock : CounterMode := match timer with
    | .timer0 | .timer1 => 1 <<< 8
    | .timer2 => 1 <<< 9
  let mode : CounterMode := 1 <<< 3 ||| clock
  if flags &&& 0x1000 ≠ 0 then mode ||| (1 <<< 4 ||| 1 <<< 6) else mode

/-- What a root-counter call does to the devices besides the firmware's own part. -/
def applyRootCounterBiosCall (vector : BiosVector) (function : BitVec 8) (a0 a1 a2 : Word)
    (context : CpuContext) : CoreM C CpuContext := do
  if vector ≠ .b0 ∨ a0 &&& 0xfffffffc ≠ 0xf2000000 then return context
  else
    let (interrupt, timer) := rootCounterHandle a0
    match function.toNat, timer with
    | 0x02, some timer =>
      modifyDevices fun devices =>
        { devices with timers := (devices.timers.writeRegister timer .target (a1.setWidth 16))
            |>.writeRegister timer .mode (rootCounterMode timer a2) }
      return context
    | 0x03, some timer =>
      let (value, timers) := (← get).devices.timers.readRegister timer .counter
      modifyDevices fun devices => { devices with timers := timers }
      return context.setRegister 2 (value.setWidth 32)
    | 0x04, _ =>
      modifyDevices fun devices =>
        { devices with irq := devices.irq.setMask (devices.irq.mask ||| interrupt.bit) }
      return context
    | 0x05, _ =>
      modifyDevices fun devices =>
        { devices with irq := devices.irq.setMask (devices.irq.mask &&& ~~~interrupt.bit) }
      return context
    | 0x06, some timer =>
      modifyDevices fun devices =>
        { devices with
          timers := devices.timers.writeRegister timer .counter 0
          irq := devices.irq.acknowledge (~~~interrupt.bit) }
      return context
    | _, _ => return context

/-- The sequence pointer of the one driver whose start-up code is recognised. -/
def akaoDriverSequenceArgument (memory : Memory) : Option Word := do
  let preload ← (memory.readU32 akaoDriverArgumentPreload).toOption
  let sequenceCall ← (memory.readU32 akaoDriverSequenceCall).toOption
  let sequenceDelay ← (memory.readU32 akaoDriverSequenceDelay).toOption
  if preload &&& 0xffff0000 = 0x3c040000 ∧ sequenceCall = 0x0220f809 ∧ sequenceDelay = 0x24050001 then
    some ((preload &&& 0xffff) <<< 16)
  else none

/-- What some drivers expect of a return. -/
def applyDriverBiosReturnQuirks (memory : Memory) (vector : BiosVector) (function : BitVec 8)
    (context : CpuContext) : CpuContext :=
  if vector = .b0 ∧ function = 0x0c ∧ context.register 31 = some akaoDriverEventReturn ∧
      context.register 4 = some akaoDriverEventHandle then
    match akaoDriverSequenceArgument memory with
    | some argument => context.setRegister 4 argument
    | none => context
  else context

/-- The call itself: the one graphics call is the machine's, every other one the firmware's. -/
def dispatchBios (vector : BiosVector) (function : BitVec 8) (context : CpuContext)
    (arguments : ℕ → Word) : CoreM C (HleOutcome × CpuContext) := do
  if vector = .a0 ∧ function = 0x49 then
    let (result, gpu) := C.gpuSynchronize (← get).devices.gpu
    modifyDevices fun devices => { devices with gpu := gpu }
    zoom (fun core => core.devices.gpu) (fun gpu core => { core with devices.gpu := gpu })
      MachineError.gpu (C.gpuWrite gp0 (arguments 0))
    let context := context.setRegister 2 result
    return (⟨12, .return⟩, { context with pc := (context.register 31).getD 0 })
  else
    callBios context (fun source context => .bios vector function ((context.register 31).getD 0)
      (arguments 0) (arguments 1) (arguments 2) (arguments 3) source) (C.dispatch vector)

/-- Continues as the firmware asks. -/
def finishBios (outcome : HleOutcome) (savedCpu : Cpu) (context : CpuContext) : CoreM C Unit := do
  match outcome.action with
  | .call =>
    modify fun core =>
      { core with libcCpu := some savedCpu, cpu := applyContext core.cpu context }
  | .halt =>
    modify fun core => { core with halted := true, cpu := applyContext core.cpu context }
  | .returnFromException =>
    match (← get).interruptCpu with
    | some savedCpu => modify fun core => { core with cpu := savedCpu, interruptCpu := none }
    | none =>
      modifyCpu (applyContext · context)
      let epc ← restoreExceptionStatus
      modifyCpu (·.setPc epc)
  | .return | .wait => modifyCpu (applyContext · context)

/-- Runs a firmware call. -/
def stepBios (vector : BiosVector) : CoreM C Boundary := do
  let savedCpu := (← get).cpu
  let context := cpuContext savedCpu
  let function := ((context.register 9).getD 0).setWidth 8
  let arguments := fun index => (context.register (4 + index)).getD 0
  let (outcome, context) ← dispatchBios vector function context arguments
  let context ← applyRootCounterBiosCall vector function (arguments 0) (arguments 1) (arguments 2)
    context
  let context := applyDriverBiosReturnQuirks (← get).devices.memory vector function context
  finishBios outcome savedCpu context
  return ⟨outcome.cycles, true, .bios vector⟩

/-- Runs a system call. -/
def stepSyscall (cpuCycles : ℕ) : CoreM C Boundary := do
  let cpu := (← get).cpu
  let pc := cpu.cop0.epc
  let context := { cpuContext cpu with pc := pc }
  let number := (context.register 4).getD 0
  let (outcome, context) ← callBios context (fun source _ => .syscall number pc source)
    (withoutMemory (C.dispatchSyscall number))
  modifyCpu (applyContext · context)
  (fun _ => ()) <$> restoreExceptionStatus
  let cycles ← okOr (checkedAdd 32 cpuCycles outcome.cycles) .clockOverflow
  return ⟨cycles, true, .syscall number⟩

/-! ### Guest code -/

/-- A call through a null pointer, into low memory that still holds nothing. -/
def isNullCall : CoreM C Bool := do
  if (← get).cpu.pc ≠ 0 then return false
  else if (← readMemoryU32 0) ≠ 0 then return false
  else return (← readMemoryU32 4) = 0

/-- Whether the CPU is at a loop that does nothing, and the instruction read to find out. -/
def probeIdleLoop : CoreM C (Bool × Option Word) := do
  let pc := (← get).cpu.pc
  if pc &&& 3 ≠ 0 then return (false, none)
  else
    let instruction ← readMemoryU32 pc
    let branchToSelf := instruction = 0x1000ffff
    let jumpToSelf := (instruction >>> 26).toNat = 2 ∧ jumpTarget pc instruction = pc
    if ¬ branchToSelf ∧ ¬ jumpToSelf then return (false, some instruction)
    else return ((← readMemoryU32 (pc + 4)) = 0, some instruction)

/-- One instruction on the devices as they are. -/
def executeInstruction (prefetched : Option Word) : CoreM C StepOutcome := do
  let core ← get
  let biosRegion : BitVec 8 := match core.refresh.standard with
    | .pal => 0x45
    | .ntsc => 0x41
  zoom (fun core => ⟨core.cpu, ⟨core.devices, prefetched.map fun instruction =>
      (core.cpu.pc, instruction)⟩⟩)
    (fun s core => { core with cpu := s.cpu, devices := s.devices.devices }) MachineError.cpu
    (stepWithoutExternalInterrupts (machineBus C core.now biosRegion))

/-- Executes an instruction, and what it asks for. -/
def cpuBoundary (synchronize : Bool) (prefetched : Option Word) : CoreM C Boundary := do
  let outcome ← executeInstruction prefetched
  if outcome.event = .exception .syscall then stepSyscall outcome.cycles
  else return ⟨outcome.cycles, synchronize, .cpu outcome.event⟩

/-- One boundary of the guest. -/
def guestBoundary (synchronize : Bool) : CoreM C Boundary := do
  if ← isNullCall then
    modifyCpu fun cpu => cpu.setPc ((cpu.register 31).getD 0)
    return ⟨2, synchronize, .nullCall⟩
  else
    match biosVector (← get).cpu.pc with
    | some vector => stepBios vector
    | none =>
      if synchronize then cpuBoundary synchronize none
      else
        let (idle, instruction) ← probeIdleLoop
        if idle then return ⟨idleAdvanceCycles, true, .idle⟩
        else cpuBoundary synchronize instruction

/-- Everything a step does before the devices advance. -/
def boundary (synchronize : Bool) : CoreM C Boundary := do
  let core ← get
  if core.halted then return ⟨idleAdvanceCycles, true, .halt⟩
  else if core.cpu.pc = callbackReturnPc then returnBoundary synchronize
  else
    match ← deliverInterrupt with
    | some source => return ⟨12, synchronize, .interrupt source⟩
    | none =>
      enterDeferredCallback
      guestBoundary synchronize

end Upse.Ps1
