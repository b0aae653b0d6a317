import Upse.Bios.Kernel.Time
import Upse.Hw.Ps2.Timers
import Upse.Hw.Shared.R3000

/-!
# Entering callbacks

At the start of a step the PS2 machine enters one callback: the handler of the controller's first
pending interrupt, or else the first of the queued completion, timer and kernel callbacks.  The
controller chooses its source without looking at the handlers, so a source without one hides the
pending sources above it.
-/

namespace Upse.Iop

open ErrorState R3000

/-- Guest address of the saved exception frame. -/
def exceptionFrameAddress : ℕ := 0x280

/-- HLE entry of the interrupt vector. -/
def interruptEntry : Word := 0x410

def interruptHandlerCount : ℕ := 64

def statusModeMask : Word := 0x3f

def causeExceptionMask : Word := 0x7c

def causeInterruptPending : Word := 1 <<< 10

/-- The code of a hardware interrupt. -/
def interruptCode : Word := 0

/-- A registered interrupt handler. -/
structure Handler where
  entry : ℕ
  argument : Word
  mode : ℕ
  deriving DecidableEq, Repr

/-- Fixed interrupt handler registrations. -/
abbrev HandlerRegistry := Fin interruptHandlerCount → Option Handler

namespace HandlerRegistry

/-- The slot of an interrupt number. -/
def slot (interrupt : ℕ) : Except KernelError (Fin interruptHandlerCount) :=
  if h : interrupt < interruptHandlerCount then .ok ⟨interrupt, h⟩ else .error .illegalInterruptCode

/-- Registers one IOP interrupt handler. -/
def registerInterrupt (handlers : HandlerRegistry) (interrupt mode entry : ℕ) (argument : Word)
    (guestRange : GuestRange) : Except KernelError HandlerRegistry := do
  let index ← slot interrupt
  if 2 < mode then throw .illegalObject
  match guestRange.validate entry 4 4 with
  | .error _ => throw .illegalEntry
  | .ok _ =>
    if (handlers index).isSome then throw .foundHandler
    return Function.update handlers index (some ⟨entry, argument, mode⟩)

/-- Selects a registered interrupt callback. -/
def dispatchInterrupt (handlers : HandlerRegistry) (interrupt : ℕ) :
    Except KernelError CallbackRequest := do
  let index ← slot interrupt
  match handlers index with
  | some handler => return ⟨handler.entry, handler.argument, returnEntry, interrupt⟩
  | none => throw .handlerNotFound

end HandlerRegistry

/-- The BIOS-visible registers of a CPU. -/
def biosContext (cpu : Cpu) : CpuContext :=
  let registers := (List.range 32).foldl
    (fun context index => context.setRegister index ((cpu.register index).getD 0))
    (CpuContext.reset cpu.pc ((cpu.register sp).getD 0))
  { registers with
    hi := cpu.hi, lo := cpu.lo, status := cpu.cop0.status, cause := cpu.cop0.cause,
    epc := cpu.cop0.epc }

/-- Installs BIOS-visible registers in a CPU and clears its pipeline. -/
def applyBiosContext (cpu : Cpu) (context : CpuContext) : Cpu :=
  let cpu := (List.range 32).foldl
    (fun (cpu : Cpu) index => cpu.setRegister index ((context.register index).getD 0)) cpu
  let cpu := cpu.setHiLo context.hi context.lo
  { cpu with cop0 := { cpu.cop0 with
      status := context.status, cause := context.cause, epc := context.epc } }.setPc context.pc

/-- The frame of a context: its registers in order, as little-endian words. -/
def encodeFrame (context : CpuContext) : List (BitVec 8) :=
  (context.registers.toList ++
    [context.hi, context.lo, context.status, context.cause, context.epc, context.pc]).flatMap
      fun word => leBytes 4 word.toNat

/-- What the running callback was entered for. -/
inductive ActiveCallbackKind where
  | kernel
  | interrupt
  | timer (timer : TimerId)
  deriving DecidableEq, Repr

/-- The callback being run, with the CPU it interrupted. -/
structure ActiveCallback where
  kind : ActiveCallbackKind
  interruptedCpu : Cpu
  deriving DecidableEq, Repr

/-- Why entering a callback failed. -/
inductive CallbackFault where
  | invalidState (message : String)
  | memory (source : WriteError)
  | bios (source : BiosError)
  deriving DecidableEq, Repr

/-- What entering a callback reads and changes of the machine. -/
structure CallbackMachine where
  cpu : Cpu
  irq : InterruptController
  guest : GuestMemory
  kernel : Kernel
  handlers : HandlerRegistry
  exceptionActive : Bool
  interruptCallbacks : List CallbackRequest
  timerCallbacks : List (TimerId × CallbackRequest)
  callbacks : List CallbackRequest
  callbackActive : Option ActiveCallback
  interruptsEnabled : Bool

/-- Programs of the machine's callbacks. -/
abbrev CallbackM := EStateM CallbackFault CallbackMachine

/-- The context an exception saves. -/
def savedContext (code : Word) (context : CpuContext) : CpuContext :=
  let cause := (context.cause &&& ~~~causeExceptionMask) ||| (code <<< 2)
  { context with
    epc := context.pc
    cause := if code = interruptCode then cause ||| causeInterruptPending else cause }

/-- The context in the interrupt vector. -/
def interruptContext (context : CpuContext) : CpuContext :=
  { context with
    epc := (savedContext interruptCode context).epc
    cause := (savedContext interruptCode context).cause
    status := (context.status &&& ~~~statusModeMask) ||| ((context.status <<< 2) &&& statusModeMask)
    pc := interruptEntry }

namespace CallbackMachine

/-- Saves an interrupt exception frame and enters the interrupt vector. -/
def enterInterrupt (context : CpuContext) : CallbackM CpuContext := do
  throwIf ((← get).exceptionActive = true) (.invalidState "nested HLE exception")
  zoom guest (fun guest m => { m with guest := guest }) .memory
    (GuestMemory.writeGuest exceptionFrameAddress (encodeFrame (savedContext interruptCode context)))
  modify fun m => { m with exceptionActive := true }
  return interruptContext context

/-- Saves the interrupted context in the kernel and enters a guest callback. -/
def enterKernelCallback (context : CpuContext) (callback : CallbackRequest) : CallbackM CpuContext :=
  zoom kernel (fun kernel m => { m with kernel := kernel }) .bios (enterCallback context callback)

/-- Installs the context of a callback, and remembers the CPU it interrupts. -/
def activate (kind : ActiveCallbackKind) (context : CpuContext) : CallbackM Unit :=
  modify fun m =>
    { m with cpu := applyBiosContext m.cpu context, callbackActive := some ⟨kind, m.cpu⟩ }

/-- Enters a callback through the interrupt vector. -/
def enterHandler (callback : CallbackRequest) : CallbackM Unit := do
  let context ← enterInterrupt (biosContext (← get).cpu)
  activate .interrupt (callback.apply context)

/-- The callback of the controller's first pending source, if it has a handler. -/
def pendingHandler (m : CallbackMachine) : Option CallbackRequest :=
  m.irq.firstPending.bind fun source => (m.handlers.dispatchInterrupt source.index).toOption

/-- Enters at most one pending callback. -/
def enterPendingCallback : CallbackM Unit := do
  let m ← get
  if m.callbackActive.isSome ∨ !m.interruptsEnabled then return
  match m.pendingHandler with
  | some callback => enterHandler callback
  | none =>
    match m.interruptCallbacks with
    | callback :: rest =>
      modify fun m => { m with interruptCallbacks := rest }
      enterHandler callback
    | [] =>
      match m.timerCallbacks with
      | (timer, callback) :: rest =>
        modify fun m => { m with timerCallbacks := rest }
        let context ← enterKernelCallback (biosContext m.cpu) callback
        activate (.timer timer) context
      | [] =>
        match m.callbacks with
        | callback :: rest =>
          modify fun m => { m with callbacks := rest }
          let context ← enterKernelCallback (biosContext m.cpu) callback
          activate .kernel context
        | [] => return

/-- What a step goes on with. -/
inductive StepHead where
  | callbackReturn
  | threadReturn
  | guest
  deriving DecidableEq, Repr

/-- The start of a step: a return of a callback or of a thread, or else the guest after at most one
pending callback. -/
def beginStep : CallbackM StepHead := do
  let m ← get
  if m.cpu.pc = returnEntry then return .callbackReturn
  if m.cpu.pc = threadReturnEntry then return .threadReturn
  enterPendingCallback
  return .guest

end CallbackMachine

end Upse.Iop
