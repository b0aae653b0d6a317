import Upse.Bios.Kernel.Scheduling

/-!
# Thread operations

Creation, start, exit, sleep, delay and release of threads.
-/

namespace Upse

open ErrorState Kernel

/-- Creates a dormant thread. -/
def createThread (spec : ThreadSpec) (guestRange : GuestRange) : KernelM ℕ := do
  check (validateThreadAttributes spec.attributes)
  check (validatePriority spec.priority)
  failIf (spec.stackSize < minStackSize) .illegalStackSize
  check ((guestRange.validate spec.entry 4 4).mapError fun _ => .illegalEntry)
  check ((guestRange.validate spec.stack spec.stackSize 16).mapError fun _ => .illegalStackSize)
  let stackTop ← orFail (checkedAdd 32 spec.stack spec.stackSize) .illegalStackSize
  let k ← get
  let (id, threads) ← check (k.threads.insert
    { spec := spec
      context := .reset (BitVec.ofNat 32 spec.entry) (BitVec.ofNat 32 stackTop)
      state := .dormant
      currentPriority := spec.priority
      wakeupCount := 0
      readyOrder := 0 })
  set { k with threads := threads }
  return id

/-- The record of a dormant thread that starts with four arguments. -/
def Thread.start (thread : Thread) (arguments : Word × Word × Word × Word) (returnAddress : Word)
    (order : ℕ) : Thread :=
  let context := CpuContext.reset (BitVec.ofNat 32 thread.spec.entry)
    (BitVec.ofNat 32 (thread.spec.stack + thread.spec.stackSize))
  { thread with
    context := (((((context.setRegister a0 arguments.1).setRegister a1 arguments.2.1).setRegister
      a2 arguments.2.2.1).setRegister a3 arguments.2.2.2).setRegister
      gp thread.spec.globalPointer).setRegister ra returnAddress
    currentPriority := thread.spec.priority
    wakeupCount := 0
    readyOrder := order
    state := .ready }

/-- Starts a dormant thread with four arguments and a selected return sentinel. -/
def startThreadWithContext (id : ℕ) (arguments : Word × Word × Word × Word)
    (returnAddress : Word) : KernelM Unit := do
  let thread ← orFail ((← get).threads.get id) .unknownThreadId
  failIf (thread.state ≠ .dormant) .notDormant
  let order ← takeReadyOrder
  modify fun k => k.modifyThread id fun thread => thread.start arguments returnAddress order

/-- Starts a dormant thread and installs its argument in `a0`. -/
def startThread (id : ℕ) (argument : Word) : KernelM Unit :=
  startThreadWithContext id (argument, 0, 0, 0) threadReturnEntry

/-- Blocks the running thread until a temporary module-start thread completes. -/
def waitModuleStart (child : ℕ) (context : CpuContext) : KernelM (ScheduleAction × CpuContext) := do
  failIf (!((← get).threads.get child).any fun thread => thread.state = .ready) .unknownThreadId
  blockCurrent context (.moduleStart child) none

/-- Completes a module-start wait with the two return registers of the requester. -/
def completeModuleStart (requester child moduleId : ℕ) (resident : Word) : KernelM Unit := do
  failIf (!(← get).waitMatches requester (.moduleStart child)) .notWaiting
  failIf (2 ^ 31 ≤ moduleId) .illegalObject
  completeWait requester moduleId (some resident)

/-- Deletes a dormant thread. -/
def deleteThread (id : ℕ) : KernelM Thread := do
  let k ← get
  let thread ← orFail (k.threads.get id) .unknownThreadId
  failIf (thread.state ≠ .dormant) .notDormant
  let removed := k.threads.remove id
  set { k with threads := removed.2 }
  orFail removed.1 .unknownThreadId

/-- Exits the running thread and selects the next one. -/
def exitCurrent (context : CpuContext) : KernelM (ScheduleAction × CpuContext) := do
  let id ← orFail (← get).currentThread .illegalContext
  modify fun k => { k with currentThread := none }
  let _ ← orFail ((← get).threads.get id) .unknownThreadId
  modify fun k => k.modifyThread id fun thread =>
    { thread with context := context, state := .dormant, wakeupCount := 0 }
  modify fun k => { k with scheduler := (k.scheduler.cancel (waitEvent id)).2 }
  select context (some id) true

/-- Exits and deletes the running thread before selecting another. -/
def exitDeleteCurrent (context : CpuContext) : KernelM (ScheduleAction × CpuContext) := do
  let id ← orFail (← get).currentThread .illegalContext
  modify fun k => { k with currentThread := none }
  modify fun k => { k with scheduler := (k.scheduler.cancel (waitEvent id)).2 }
  let removed := (← get).threads.remove id
  modify fun k => { k with threads := removed.2 }
  let _ ← orFail removed.1 .unknownThreadId
  select context (some id) true

/-- Changes a thread priority, or queries it when `priority` is zero. -/
def changePriority (id priority : ℕ) : KernelM ℕ := do
  let thread ← orFail ((← get).threads.get id) .unknownThreadId
  if priority ≠ 0 then
    check (validatePriority priority)
    modify fun k => k.modifyThread id fun thread => { thread with currentPriority := priority }
  return thread.currentPriority

/-- Saves the active context of the running thread before a scheduling decision. -/
def saveCurrent (context : CpuContext) : KernelM Unit := do
  match (← get).currentThread with
  | none => return
  | some id =>
    let thread ← orFail ((← get).threads.get id) .unknownThreadId
    failIf (thread.state ≠ .running) .illegalContext
    modify fun k => k.modifyThread id fun thread => { thread with context := context }

/-- Saves the active context and applies deterministic priority scheduling. -/
def reschedule (context : CpuContext) (reason : RescheduleReason) :
    KernelM (ScheduleAction × CpuContext) := do
  let previous := (← get).currentThread
  saveCurrent context
  select context previous (reason = .yield)

/-- Puts the running thread to sleep or consumes a retained wakeup. -/
def sleepCurrent (context : CpuContext) : KernelM (ScheduleAction × CpuContext) := do
  let id ← orFail (← get).currentThread .illegalContext
  let thread ← orFail ((← get).threads.get id) .unknownThreadId
  if thread.wakeupCount ≠ 0 then
    modify fun k => k.modifyThread id fun thread =>
      { thread with wakeupCount := thread.wakeupCount - 1 }
    return (⟨some id, some id, false⟩, context)
  blockCurrent context .sleep none

/-- Wakes a sleeping thread or retains one future wakeup. -/
def wakeupThread (id : ℕ) : KernelM Bool := do
  let thread ← orFail ((← get).threads.get id) .unknownThreadId
  if thread.state = .waiting .sleep then
    completeWait id 0 none
    return true
  let count ← orFail (checkedAdd 32 thread.wakeupCount 1) .noMemory
  modify fun k => k.modifyThread id fun thread => { thread with wakeupCount := count }
  return false

/-- Delays the running thread for an exact number of ticks. -/
def delayCurrent (ticks : Ticks) (context : CpuContext) :
    KernelM (ScheduleAction × CpuContext) := do
  if ticks = 0 then
    return ← reschedule context .yield
  let deadline ← waitDeadline (some ticks)
  blockCurrent context .delay deadline

/-- The wait reason of a vertical-blank phase: zero is the start and one the end. -/
def vblankReason (phase : ℕ) : Except KernelError WaitReason :=
  match phase with
  | 0 => .ok .vblankStart
  | 1 => .ok .vblankEnd
  | _ => .error .illegalObject

/-- Blocks the running thread until the selected vertical-blank boundary. -/
def waitVblank (phase : ℕ) (context : CpuContext) : KernelM (ScheduleAction × CpuContext) := do
  let reason ← check (vblankReason phase)
  blockCurrent context reason none

/-- Completes the waits of a list of threads, in order. -/
def completeWaits : List ℕ → KernelM Unit
  | [] => return
  | id :: waiters => do
    completeWait id 0 none
    completeWaits waiters

/-- Makes every thread waiting on one vertical-blank boundary runnable. -/
def notifyVblank (phase : ℕ) : KernelM (List ℕ) := do
  let reason ← check (vblankReason phase)
  let waiters := (← get).threads.iter.filterMap fun (id, thread) =>
    if thread.state = .waiting reason then some id else none
  completeWaits waiters
  return waiters

/-- Cancels any wait and makes the thread ready with the release code. -/
def releaseWait (id : ℕ) : KernelM Unit := do
  let thread ← orFail ((← get).threads.get id) .unknownThreadId
  let reason ← orFail thread.state.waitReason .notWaiting
  modify fun k => k.removeWaiter id reason
  completeWait id KernelError.releaseWait.code none

end Upse
