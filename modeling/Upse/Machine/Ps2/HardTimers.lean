import Upse.Machine.Ps2.Callbacks

/-!
# Hard timers

The timer services of the PS2 machine over the counters, and the way of a counter's target to the
handler of its slot: the boundary queues a callback, an instruction boundary enters it, and its return
makes room for the next.
-/

namespace Upse.Iop

open ErrorState R3000

/-- What a hard timer's owner has set up. -/
structure TimerSlot where
  allocated : Bool
  control : TimerMode
  compare : Word
  handler : Option (Word × Word)
  callbackPending : Bool
  deriving DecidableEq, Repr

/-- A timer that is not allocated. -/
def TimerSlot.default : TimerSlot := ⟨false, 0, 0, none, false⟩

/-- Where a timer's registers lie. -/
def timerBase : TimerId → Word
  | .timer0 => BitVec.ofNat 32 timer0Base
  | .timer1 => BitVec.ofNat 32 timer1Base
  | .timer2 => BitVec.ofNat 32 timer2Base
  | .timer3 => BitVec.ofNat 32 timer3Base
  | .timer4 => BitVec.ofNat 32 timer4Base
  | .timer5 => BitVec.ofNat 32 timer5Base

/-- The number of a timer. -/
def timerIndex : TimerId → ℕ
  | .timer0 => 0
  | .timer1 => 1
  | .timer2 => 2
  | .timer3 => 3
  | .timer4 => 4
  | .timer5 => 5

/-- The order in which timers are tried. -/
def timerAllocationOrder : List TimerId := [.timer2, .timer5, .timer4, .timer3, .timer0, .timer1]

/-- The handle the guest gets. -/
def timerHandle (timer : TimerId) : Word :=
  (BitVec.ofNat 32 (timerIndex timer + 1) <<< 28) ||| (timerBase timer >>> 4)

/-- The timer whose number a handle carries. -/
def handleTimer (handle : Word) : Option TimerId :=
  match (handle >>> 28).toNat with
  | 0 => none
  | n + 1 => TimerId.all[n]?

/-- A result code as a word. -/
def kernelCode (value : ℤ) : Word := BitVec.ofInt 32 value

/-- Whether a timer serves a request. -/
def compatible (source size prescale : Word) : TimerId → Bool
  | .timer0 => source &&& 0x0b ≠ 0 && size = 16 && prescale ≤ 1
  | .timer1 => source &&& 0x0d ≠ 0 && size = 16 && prescale ≤ 1
  | .timer2 => source &&& 1 ≠ 0 && size = 16 && prescale ≤ 8
  | .timer3 => source &&& 5 ≠ 0 && size = 32 && prescale ≤ 1
  | .timer4 | .timer5 => source &&& 1 ≠ 0 && size = 32 && prescale ≤ 256

/-- The part of the machine hard timers live in. -/
structure TimerHost where
  machine : CallbackMachine
  timers : IopTimers
  slots : TimerId → TimerSlot

/-- Why a timer service failed. -/
inductive TimerFault where
  | counter (source : TimerError)
  | callback (source : CallbackFault)
  | notRunning
  deriving DecidableEq, Repr

/-- Programs of the timer services. -/
abbrev TimerM := EStateM TimerFault TimerHost

namespace TimerHost

/-- Changes one slot. -/
def modifySlot (timer : TimerId) (f : TimerSlot → TimerSlot) (host : TimerHost) : TimerHost :=
  { host with slots := Function.update host.slots timer (f (host.slots timer)) }

/-- The allocated timer a handle names. -/
def index (host : TimerHost) (handle : Word) : Option TimerId :=
  (handleTimer handle).filter fun timer =>
    (host.slots timer).allocated && handle <<< 4 = timerBase timer

/-- Runs an access of the timers. -/
def onTimers {α : Type} (m : EStateM TimerError IopTimers α) : TimerM α :=
  zoom timers (fun timers host => { host with timers := timers }) .counter m

/-- Runs a call of the callback machine. -/
def onMachine {α : Type} (m : CallbackM α) : TimerM α :=
  zoom machine (fun machine host => { host with machine := machine }) .callback m

/-- Writes a register of a timer. -/
def writeRegister (timer : TimerId) (offset : ℕ) (value : Word) : TimerM Unit :=
  onTimers (IopTimers.writeU32 ((timerBase timer).toNat + offset) value.toNat)

/-- Changes the interrupt mask. -/
def modifyMask (f : Word → Word) : TimerM Unit :=
  modify fun host =>
    { host with machine := { host.machine with
        irq := host.machine.irq.setMask (f host.machine.irq.mask) } }

/-! ### Services -/

/-- A service on an allocated timer. -/
def withTimer (handle : Word) (service : TimerId → TimerM Word) : TimerM Word := do
  match (← get).index handle with
  | none => return kernelCode (-157)
  | some timer => service timer

/-- Allocates the first timer that fits. -/
def allocHardTimer (source size prescale : Word) : TimerM Word := do
  let host ← get
  match timerAllocationOrder.find? fun timer =>
    compatible source size prescale timer && !(host.slots timer).allocated with
  | none => return kernelCode (-150)
  | some timer =>
    modify (modifySlot timer fun _ => { TimerSlot.default with allocated := true })
    return timerHandle timer

/-- Stops and frees a timer. -/
def freeHardTimer (handle : Word) : TimerM Word :=
  withTimer handle fun timer => do
    writeRegister timer 4 0
    modify (modifySlot timer fun _ => .default)
    return 0

/-- Reads the count of a timer. -/
def getTimerCounter (handle : Word) : TimerM Word :=
  withTimer handle fun timer => do
    return BitVec.ofNat 32 (← onTimers (IopTimers.readU32 (timerBase timer).toNat))

/-- Sets the target and the handler of a timer. -/
def setTimerHandler (handle compare entry argument : Word) : TimerM Word :=
  withTimer handle fun timer => do
    let host ← get
    if entry ≠ 0 ∧ !(host.machine.guest.range.validate entry.toNat 4 4).isOk then
      return kernelCode (-402)
    else if (host.slots timer).control ≠ 0 then return kernelCode (-156)
    else
      modify (modifySlot timer fun slot =>
        { slot with
          compare := compare
          handler := if entry ≠ 0 then some (entry, argument) else none })
      return 0

/-- The mode bits of a mode, a source and a prescale of `SetupHardTimer`, or its error. -/
def setupControl (timer : TimerId) (source mode prescale : Word) : Except Word TimerMode := do
  let mode ← if mode = 0 ∨ mode = 1 ∨ mode = 3 ∨ mode = 5 ∨ mode = 7 then .ok (mode.setWidth 16)
    else .error (kernelCode (-405))
  let external ← if source = 1 then .ok 0 else if source = 2 ∨ source = 4 then .ok 0x0100
    else .error (kernelCode (-152))
  let prescale ← if prescale = 1 then .ok 0
    else if prescale = 8 then .ok (if timerIndex timer < 3 then 0x0200 else 0x2000)
    else if prescale = 16 then .ok 0x4000
    else if prescale = 256 then .ok 0x6000
    else .error (kernelCode (-153))
  return mode ||| external ||| prescale

/-- Sets the mode a timer starts in. -/
def setupHardTimer (handle source mode prescale : Word) : TimerM Word :=
  withTimer handle fun timer => do
    match setupControl timer source mode prescale with
    | .error code => return code
    | .ok control =>
      if ((← get).slots timer).control ≠ 0 then return kernelCode (-154)
      else
        modify (modifySlot timer fun slot => { slot with control := control })
        return 0

/-- A timer with a handler counts to its comparison value and may interrupt there. -/
def armTarget (timer : TimerId) (slot : TimerSlot) : TimerM Unit :=
  if slot.handler.isSome then do
    writeRegister timer 8 slot.compare
    modifyMask (· ||| timer.interrupt.bit)
  else pure ()

/-- Starts a timer. -/
def startHardTimer (handle : Word) : TimerM Word :=
  withTimer handle fun timer => do
    let slot := (← get).slots timer
    let control := if slot.handler.isSome then slot.control ||| 0x0058 else slot.control
    armTarget timer slot
    writeRegister timer 0 0
    writeRegister timer 4 (control.setWidth 32)
    modify (modifySlot timer fun slot => { slot with control := control })
    return 0

/-- Stops a timer. -/
def stopHardTimer (handle : Word) : TimerM Word :=
  withTimer handle fun timer => do
    writeRegister timer 4 0
    modifyMask (· &&& ~~~timer.interrupt.bit)
    modify (modifySlot timer fun slot => { slot with control := 0 })
    return 0

/-! ### Callbacks -/

/-- Queues the handler of a timer, unless its last callback has not returned. -/
def queueCallback (timer : TimerId) (host : TimerHost) : TimerHost :=
  match (host.slots timer).handler with
  | none => host
  | some (entry, argument) =>
    if (host.slots timer).callbackPending then host
    else
      let host := host.modifySlot timer fun slot => { slot with callbackPending := true }
      { host with machine := { host.machine with
          timerCallbacks := host.machine.timerCallbacks ++
            [(timer, ⟨entry.toNat, argument, returnEntry, timerIndex timer⟩)] } }

/-- What the machine does with a timing event. -/
def observe (host : TimerHost) : TimingEvent → TimerHost
  | .counter timer .target => host.queueCallback timer
  | _ => host

/-- Time passes for the counters, and the machine takes their events. -/
def elapse (ops : List TimerOp) : TimerM Unit := do
  onTimers (ops.forM TimerOp.perform)
  modify fun host => host.timers.events.foldl observe
    { host with timers := { host.timers with events := [] } }

/-- Restores BIOS-visible registers in an interrupted CPU, whose pipeline goes on where it was. -/
def applyPreservingPipeline (cpu : Cpu) (context : CpuContext) : Cpu :=
  let restored := (List.range 32).foldl
    (fun (cpu : Cpu) index => cpu.setRegister index ((context.register index).getD 0)) cpu
  let restored := restored.setHiLo context.hi context.lo
  let restored := { restored with cop0 := { restored.cop0 with
      status := context.status, cause := context.cause, epc := context.epc } }
  if context.pc ≠ cpu.pc then restored.setPc context.pc else restored

/-- The return of a timer's callback: the slot may queue the next. -/
def returnFromTimer : TimerM Unit := do
  match (← get).machine.callbackActive with
  | some ⟨.timer timer, interruptedCpu⟩ =>
    let context ← onMachine (zoom CallbackMachine.kernel (fun kernel m => { m with kernel := kernel })
      .bios returnFromCallback)
    modify (modifySlot timer fun slot => { slot with callbackPending := false })
    modify fun host => { host with machine := { host.machine with
      irq := host.machine.irq.acknowledge (host.machine.irq.status &&& ~~~timer.interrupt.bit)
      callbackActive := none
      cpu := applyPreservingPipeline interruptedCpu context } }
  | _ => throw .notRunning

end TimerHost

/-- A call of the timer services. -/
inductive TimerCall where
  | alloc (source size prescale : Word)
  | free (handle : Word)
  | counter (handle : Word)
  | setHandler (handle compare entry argument : Word)
  | setup (handle source mode prescale : Word)
  | start (handle : Word)
  | stop (handle : Word)
  deriving DecidableEq, Repr

/-- The service behind a call; the result is what the caller finds in `v0`. -/
def TimerCall.perform : TimerCall → TimerM Word
  | .alloc source size prescale => TimerHost.allocHardTimer source size prescale
  | .free handle => TimerHost.freeHardTimer handle
  | .counter handle => TimerHost.getTimerCounter handle
  | .setHandler handle compare entry argument =>
    TimerHost.setTimerHandler handle compare entry argument
  | .setup handle source mode prescale => TimerHost.setupHardTimer handle source mode prescale
  | .start handle => TimerHost.startHardTimer handle
  | .stop handle => TimerHost.stopHardTimer handle

/-- What happens to the hard timers in a run of the machine. -/
inductive TimerStep where
  | call (call : TimerCall) (code : Word)
  | access (op : TimerOp)
  | elapse (ops : List TimerOp)
  | enter
  | finish
  | elsewhere (machine : CallbackMachine)

end Upse.Iop
