import Upse.Bios.Kernel.Step
import Upse.Machine.Ps2.Arguments
import Upse.Machine.Ps2.Step

/-!
# Kernel services of the machine

The imports of the thread, semaphore, event-flag and vertical-blank libraries, as the machine serves
them: arguments and structures come from the registers and the memory of the caller, the kernel does
the work, and the answer goes to the caller's registers.
-/

namespace Upse.Iop.Services

open ErrorState

def defaultThreadStack : ℕ := 16 * 1024

/-- Boot epoch of the system clock. -/
def systemClockEpoch : ℕ := 0x0be00000

def vblankHandlerCount : ℕ := 8

/-- The handlers of the two vertical-blank phases, by priority. -/
abbrev VblankHandlers := Fin 2 → Fin vblankHandlerCount → Option Handler

/-- The parts of the machine the kernel services work on. -/
structure Host where
  kernel : Kernel
  systemMemory : SystemMemory
  threadStacks : ℕ → Option ℕ
  vblank : VblankHandlers
  memory : Memory
  context : CpuContext
  moduleEntryActive : Bool

/-- Why a service stops the machine. -/
inductive Fault where
  | bios (source : BiosError)
  | memory (source : MemoryError)
  | unsupported (library : String) (ordinal : ℕ)
  deriving DecidableEq

abbrev ServiceM := EStateM Fault Host

/-- What a service hands back to its caller. -/
structure BackendResponse where
  v0 : Word
  v1 : Option Word
  action : Ps2.ServiceAction
  deriving DecidableEq

/-- A normal return of one register. -/
def BackendResponse.returning (value : ℕ) : BackendResponse :=
  ⟨BitVec.ofNat 32 value, none, .returnToCaller⟩

/-- A normal return of the code of an error. -/
def BackendResponse.failing (e : KernelError) : BackendResponse :=
  ⟨BitVec.ofInt 32 e.code, none, .returnToCaller⟩

/-- The libraries of the kernel's services. -/
inductive ServiceFamily where
  | thread
  | semaphore
  | eventFlag
  | vblank
  deriving DecidableEq, Repr

/-- An imported function of one of the families. -/
structure Service where
  family : ServiceFamily
  ordinal : ℕ
  deriving DecidableEq, Repr

/-- The argument register `a0 + index`. -/
def Host.argument (host : Host) (index : ℕ) : Word := (host.context.register (a0 + index)).getD 0

/-- Replaces the kernel. -/
def Host.setKernel (kernel : Kernel) (host : Host) : Host := { host with kernel := kernel }

/-- The range guest memory covers. -/
def guestRange : GuestRange := ⟨0, ramSize⟩

/-! ### Guest memory -/

/-- Reads a word of the guest's RAM. -/
def readU32 (memory : Memory) (address : Word) : Except MemoryError Word := do
  let bytes ← readIopRam memory address 4
  return BitVec.ofNat 32 (ofLeBytes bytes)

/-- Writes bytes to the guest's RAM. -/
def writeGuest (address : Word) (bytes : Bytes) : ServiceM Unit :=
  zoom Host.memory (fun memory host => { host with memory := memory }) .memory
    (writeIopRam address bytes)

/-- Reads what a caller laid out for a service. -/
def reading {α : Type} (read : Memory → Except MemoryError α) : ServiceM α := do
  ErrorState.ofExcept ((read (← get).memory).mapError .memory)

/-- The parameters of a thread, whose stack is not there yet. -/
def readThreadSpec (address globalPointer : Word) (memory : Memory) : Except MemoryError ThreadSpec := do
  let attributes ← readU32 memory address
  let option ← readU32 memory (address + 4)
  let entry ← readU32 memory (address + 8)
  let stackSize ← readU32 memory (address + 12)
  let priority ← readU32 memory (address + 16)
  return {
    entry := entry.toNat
    stack := 0
    stackSize := max stackSize.toNat defaultThreadStack
    priority := priority.toNat
    globalPointer := globalPointer
    attributes := attributes
    option := option }

/-- Reads a semaphore's parameters. -/
def readSemaphoreSpec (address : Word) (memory : Memory) : Except MemoryError SemaphoreSpec := do
  let attributes ← readU32 memory address
  let initial ← readU32 memory (address + 8)
  let maximum ← readU32 memory (address + 12)
  return ⟨initial.toNat, maximum.toNat, attributes⟩

/-- Reads an event flag's parameters. -/
def readEventFlagSpec (address : Word) (memory : Memory) : Except MemoryError EventFlagSpec := do
  let attributes ← readU32 memory address
  let bits ← readU32 memory (address + 8)
  return ⟨bits, attributes⟩

/-! ### Answers -/

/-- Answers with the result of an operation of the kernel, or with the code of its error. -/
def answer (result : EStateM.Result BiosError Kernel ℕ) : ServiceM BackendResponse :=
  match result with
  | .ok value kernel => do
    modify (Host.setKernel kernel)
    return .returning value
  | .error (.kernel e) kernel => do
    modify (Host.setKernel kernel)
    return .failing e
  | .error e kernel => do
    modify (Host.setKernel kernel)
    throw (.bios e)

/-- A service whose operation's errors are answers. -/
def answering (operation : KernelM ℕ) : ServiceM BackendResponse := do
  answer (operation.run (← get).kernel)

/-- Answers from the registers the kernel has installed. -/
def scheduleResponse (context : CpuContext) (switched : Bool) : BackendResponse where
  v0 := (context.register v0).getD 0
  v1 := context.register v1
  action := if switched then .contextSwitch else .returnToCaller

/-- An operation that may switch to other registers; its errors stop the machine. -/
def switching {α : Type} (operation : CpuContext → KernelM (α × CpuContext)) : ServiceM α := do
  let (result, context) ← zoom Host.kernel Host.setKernel .bios (operation (← get).context)
  modify fun host => { host with context := context }
  return result

/-- A service that may block its caller. -/
def blocking (operation : CpuContext → KernelM (ScheduleAction × CpuContext)) :
    ServiceM BackendResponse := do
  let action ← switching operation
  return scheduleResponse (← get).context action.switched

/-! ### Threads -/

/-- Frees the stack of a thread that is no more, when the machine gave it one. -/
def Host.releaseStack (thread : Option ℕ) (host : Host) : Host :=
  match thread.bind fun id => (host.threadStacks id).map fun stack => (id, stack) with
  | none => host
  | some (id, stack) =>
    { host with
      threadStacks := Function.update host.threadStacks id none
      systemMemory := leaves ((SystemMemory.free stack).run host.systemMemory) }

/-- Keeps the stack of a thread that was created, and frees it otherwise. -/
def Host.settleStack (created : EStateM.Result BiosError Kernel ℕ) (stack : ℕ) (host : Host) :
    Host :=
  match created with
  | .ok id _ => { host with threadStacks := Function.update host.threadStacks id (some stack) }
  | .error _ _ => { host with systemMemory := leaves ((SystemMemory.free stack).run host.systemMemory) }

/-- `CreateThread`. -/
def dispatchCreateThread : ServiceM BackendResponse := do
  let host ← get
  let spec ← reading (readThreadSpec (host.argument 0) ((host.context.register gp).getD 0))
  match (SystemMemory.allocate .first spec.stackSize 0).run host.systemMemory with
  | .error e _ => return .failing e
  | .ok allocation arena =>
    let created :=
      (createThread { spec with stack := allocation.address } guestRange).run host.kernel
    modify fun host => { host with systemMemory := arena }
    modify (Host.settleStack created allocation.address)
    answer created

/-- `DeleteThread`, which gives the stack back. -/
def dispatchDeleteThread : ServiceM BackendResponse := do
  let host ← get
  let id := (host.argument 0).toNat
  match (deleteThread id).run host.kernel with
  | .ok _ kernel =>
    modify (Host.releaseStack (some id))
    answer (.ok 0 kernel)
  | .error e kernel => answer (.error e kernel)

/-- Starts a thread, and lets it run at once unless a module's entry or nothing is running. -/
def dispatchStartThread : ServiceM BackendResponse := do
  let host ← get
  match (startThread (host.argument 0).toNat (host.argument 1)).run host.kernel with
  | .error e kernel => answer (.error e kernel)
  | .ok _ kernel =>
    modify (Host.setKernel kernel)
    if host.moduleEntryActive ∨ kernel.currentThread = none then return .returning 0
    else blocking fun context => reschedule context .hleReturn

/-- The services of `thbase`. -/
def dispatchThread (ordinal : ℕ) : ServiceM BackendResponse := do
  let host ← get
  let id := (host.argument 0).toNat
  match ordinal with
  | 4 => dispatchCreateThread
  | 5 => dispatchDeleteThread
  | 6 | 7 => dispatchStartThread
  | 8 => blocking exitCurrent
  | 9 =>
    let response ← blocking exitDeleteCurrent
    modify (Host.releaseStack host.kernel.currentThread)
    return response
  | 14 => answering (changePriority id (host.argument 1).toNat)
  | 16 => blocking fun context => reschedule context .yield
  | 18 | 19 => answering ((fun _ => 0) <$> releaseWait id)
  | 20 => return .returning (host.kernel.currentThread.getD 0)
  | 24 => blocking sleepCurrent
  | 25 | 26 => answering ((fun _ => 0) <$> wakeupThread id)
  | 33 => blocking (delayCurrent (id * 37))
  | 34 =>
    writeGuest (host.argument 0) (leBytes 8 ((systemClockEpoch + host.kernel.now) % 2 ^ 64))
    return .returning 0
  | _ => throw (.unsupported "thbase" ordinal)

/-! ### Semaphores and event flags -/

/-- `WaitSema`. -/
def dispatchWaitSemaphore : ServiceM BackendResponse := do
  let host ← get
  let action ← switching (waitSemaphore (host.argument 0).toNat none)
  return scheduleResponse (← get).context (action.any (·.switched))

/-- The services of `thsemap`. -/
def dispatchSemaphore (ordinal : ℕ) : ServiceM BackendResponse := do
  let host ← get
  let id := (host.argument 0).toNat
  match ordinal with
  | 4 =>
    let spec ← reading (readSemaphoreSpec (host.argument 0))
    answering (createSemaphore spec)
  | 5 => answering ((fun _ => 0) <$> deleteSemaphore id)
  | 6 | 7 => answering ((fun _ => 0) <$> signalSemaphore id)
  | 8 => dispatchWaitSemaphore
  | 9 => answering ((fun _ => 0) <$> pollSemaphore id)
  | _ => throw (.unsupported "thsemap" ordinal)

/-- Gives the caller the bits of a flag, where it asks for them. -/
def giveBits (address bits : Word) : ServiceM BackendResponse := do
  if address ≠ 0 then writeGuest address (leBytes 4 bits.toNat)
  return .returning 0

/-- The services of `thevent`. -/
def dispatchEvent (ordinal : ℕ) : ServiceM BackendResponse := do
  let host ← get
  let id := (host.argument 0).toNat
  match ordinal with
  | 4 =>
    let spec ← reading (readEventFlagSpec (host.argument 0))
    answering (createEventFlag spec)
  | 5 => answering ((fun _ => 0) <$> deleteEventFlag id)
  | 6 | 7 => answering ((fun _ => 0) <$> setEventFlag id (host.argument 1))
  | 8 | 9 => answering (BitVec.toNat <$> clearEventFlag id (host.argument 1))
  | 10 =>
    let result ← switching (waitEventFlag id (host.argument 1) (host.argument 2) none)
    match result with
    | .inl bits => giveBits (host.argument 3) bits
    | .inr schedule => return scheduleResponse (← get).context schedule.switched
  | 11 =>
    match (pollEventFlag id (host.argument 1) (host.argument 2)).run host.kernel with
    | .ok bits kernel =>
      modify (Host.setKernel kernel)
      giveBits (host.argument 3) bits
    | .error e kernel => answer (.error e kernel)
  | _ => throw (.unsupported "thevent" ordinal)

/-! ### Vertical blanks -/

/-- A phase of the vertical blank. -/
def vblankPhase (phase : ℕ) : Except KernelError (Fin 2) :=
  if h : phase < 2 then .ok ⟨phase, h⟩ else .error .illegalObject

/-- A place in the list of handlers. -/
def vblankPriority (priority : ℕ) : Except KernelError (Fin vblankHandlerCount) :=
  if h : priority < vblankHandlerCount then .ok ⟨priority, h⟩ else .error .illegalPriority

namespace VblankHandlers

/-- The table with one handler replaced. -/
def put (handlers : VblankHandlers) (phase : Fin 2) (priority : Fin vblankHandlerCount)
    (handler : Option Handler) : VblankHandlers :=
  Function.update handlers phase (Function.update (handlers phase) priority handler)

/-- Registers one vertical-blank handler. -/
def register (handlers : VblankHandlers) (phase priority entry : ℕ) (argument : Word) :
    Except KernelError VblankHandlers := do
  let phase ← vblankPhase phase
  let priority ← vblankPriority priority
  match guestRange.validate entry 4 4 with
  | .error _ => throw .illegalEntry
  | .ok _ =>
    if (handlers phase priority).isSome then throw .foundHandler
    return handlers.put phase priority (some ⟨entry, argument, 0⟩)

/-- Releases one vertical-blank handler. -/
def release (handlers : VblankHandlers) (phase priority : ℕ) : Except KernelError VblankHandlers := do
  let phase ← vblankPhase phase
  let priority ← vblankPriority priority
  match handlers phase priority with
  | none => throw .handlerNotFound
  | some _ => return handlers.put phase priority none

end VblankHandlers

/-- Answers with the result of an operation on the handlers. -/
def answerHandlers (result : Except KernelError VblankHandlers) : ServiceM BackendResponse :=
  match result with
  | .ok handlers => do
    modify fun host => { host with vblank := handlers }
    return .returning 0
  | .error e => return .failing e

/-- Registers the handler the arguments name. -/
def Host.registerVblank (host : Host) : Except KernelError VblankHandlers :=
  VblankHandlers.register host.vblank (host.argument 0).toNat (host.argument 1).toNat
    (host.argument 2).toNat (host.argument 3)

/-- Releases the handler the arguments name. -/
def Host.releaseVblank (host : Host) : Except KernelError VblankHandlers :=
  VblankHandlers.release host.vblank (host.argument 0).toNat (host.argument 1).toNat

/-- The services of `vblank`. -/
def dispatchVblank (ordinal : ℕ) : ServiceM BackendResponse := do
  let host ← get
  match ordinal with
  | 4 | 6 => blocking (waitVblank 0)
  | 5 => blocking (waitVblank 1)
  | 8 => answerHandlers host.registerVblank
  | 9 => answerHandlers host.releaseVblank
  | _ => throw (.unsupported "vblank" ordinal)

/-! ### The whole dispatch -/

/-- A service of the kernel's modules. -/
def dispatch (service : Service) : ServiceM BackendResponse :=
  match service.family with
  | .thread => dispatchThread service.ordinal
  | .semaphore => dispatchSemaphore service.ordinal
  | .eventFlag => dispatchEvent service.ordinal
  | .vblank => dispatchVblank service.ordinal

/-- Puts the answer of a service that returns in the caller's registers. -/
def finishBackend (response : BackendResponse) (context : CpuContext) : CpuContext :=
  match response.action with
  | .returnToCaller =>
    let context := context.setRegister v0 response.v0
    match response.v1 with
    | some value => context.setRegister v1 value
    | none => context
  | _ => context

/-- One call of a service by the guest. -/
def call (service : Service) : ServiceM Ps2.ServiceAction := do
  let response ← dispatch service
  modify fun host => { host with context := finishBackend response host.context }
  return response.action

end Upse.Iop.Services
