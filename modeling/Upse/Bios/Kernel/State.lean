import Upse.Bios.FixedTable
import Upse.Bios.GuestMemory
import Upse.Bios.Context

/-!
# State of the IOP kernel

Threads, synchronization objects, memory pools and alarms, each in its own fixed table, with the
event scheduler that holds wait timeouts and alarms.  Kernel operations are `KernelM` programs:
they may fail, and a failure leaves the state reached so far.
-/

namespace Upse

open ErrorState

/-! ### Limits and event numbers -/

def threadCapacity : ℕ := 64
def semaphoreCapacity : ℕ := 64
def eventFlagCapacity : ℕ := 64
def messageBoxCapacity : ℕ := 64
def fixedPoolCapacity : ℕ := 32
def variablePoolCapacity : ℕ := 32
def alarmCapacity : ℕ := 32
def callbackDepth : ℕ := 8
def minThreadPriority : ℕ := 1
def maxThreadPriority : ℕ := 126
def minStackSize : ℕ := 0x100
def waitEventBase : ℕ := 0x1000
def alarmEventBase : ℕ := 0x2000
def waitAny : Word := 1
def waitClear : Word := 0x10

/-- Scheduler event of a thread's timed wait. -/
def waitEvent (id : ℕ) : EventId := waitEventBase + id

/-- Scheduler event of an alarm. -/
def alarmEvent (id : ℕ) : EventId := alarmEventBase + id

/-! ### Threads -/

/-- Thread construction parameters. -/
structure ThreadSpec where
  entry : ℕ
  stack : ℕ
  stackSize : ℕ
  priority : ℕ
  globalPointer : Word
  attributes : Word
  option : Word
  deriving DecidableEq, Repr

/-- Reason a thread is not runnable. -/
inductive WaitReason where
  | sleep
  | delay
  | vblankStart
  | vblankEnd
  | moduleStart (child : ℕ)
  | semaphore (id : ℕ)
  | eventFlag (id : ℕ) (pattern mode : Word)
  | messageBox (id : ℕ)
  | fixedPool (id : ℕ)
  | variablePool (id size : ℕ)
  deriving DecidableEq, Repr

/-- Guest-visible thread lifecycle state. -/
inductive ThreadState where
  | dormant
  | ready
  | running
  | waiting (reason : WaitReason)
  deriving DecidableEq, Repr

/-- The reason of a waiting thread. -/
def ThreadState.waitReason : ThreadState → Option WaitReason
  | .waiting reason => some reason
  | _ => none

/-- One BIOS-owned IOP thread record. -/
structure Thread where
  spec : ThreadSpec
  context : CpuContext
  state : ThreadState
  currentPriority : ℕ
  wakeupCount : ℕ
  readyOrder : ℕ
  deriving DecidableEq, Repr

/-- Boundary at which the kernel may select another ready thread. -/
inductive RescheduleReason where
  | hleReturn
  | yield
  | interruptReturn
  | objectSignal
  | timer
  | vblank
  deriving DecidableEq, Repr

/-- Result of one scheduler decision. -/
structure ScheduleAction where
  previous : Option ℕ
  current : Option ℕ
  switched : Bool
  deriving DecidableEq, Repr

/-! ### Synchronization objects and pools -/

/-- Semaphore construction parameters. -/
structure SemaphoreSpec where
  initial : ℕ
  maximum : ℕ
  attributes : Word
  deriving DecidableEq, Repr

/-- Event-flag construction parameters. -/
structure EventFlagSpec where
  bits : Word
  attributes : Word
  deriving DecidableEq, Repr

/-- Message-box construction parameters. -/
structure MessageBoxSpec where
  attributes : Word
  deriving DecidableEq, Repr

/-- Fixed-pool construction parameters. -/
structure FixedPoolSpec where
  base : ℕ
  blockSize : ℕ
  blocks : ℕ
  attributes : Word
  deriving DecidableEq, Repr

/-- Variable-pool construction parameters. -/
structure VariablePoolSpec where
  base : ℕ
  size : ℕ
  attributes : Word
  deriving DecidableEq, Repr

/-- One event emitted while advancing kernel time. -/
inductive KernelEvent where
  | threadReady (id : ℕ)
  | alarm (id : ℕ) (callback : CallbackRequest)
  deriving DecidableEq, Repr

/-- A semaphore, and the threads that wait for a count. -/
structure Semaphore where
  count : ℕ
  maximum : ℕ
  attributes : Word
  waiters : List ℕ
  deriving DecidableEq, Repr

/-- An event flag, and the threads that wait for its bits. -/
structure EventFlag where
  bits : Word
  attributes : Word
  waiters : List ℕ
  deriving DecidableEq, Repr

/-- A message box, and the threads that wait for a message. -/
structure MessageBox where
  attributes : Word
  messages : List Word
  waiters : List ℕ
  deriving DecidableEq, Repr

/-- A pool of blocks of one size, and the threads that wait for one. -/
structure FixedPool where
  attributes : Word
  blockSize : ℕ
  free : List ℕ
  allocated : SortedSet ℕ
  waiters : List ℕ
  deriving DecidableEq

/-- A free region of a variable pool. -/
structure FreeRegion where
  address : ℕ
  size : ℕ
  deriving DecidableEq, Repr

/-- A pool of blocks of any size, and the threads that wait for one. -/
structure VariablePool where
  attributes : Word
  free : List FreeRegion
  allocated : AList fun _ : ℕ => ℕ
  waiters : List ℕ

/-- The handler of an alarm, and its argument. -/
structure Alarm where
  entry : ℕ
  argument : Word
  deriving DecidableEq, Repr

/-! ### The kernel -/

/-- Instance-owned IOP scheduler and synchronization state. -/
structure Kernel where
  threads : FixedTable Thread threadCapacity 1
  semaphores : FixedTable Semaphore semaphoreCapacity 1
  eventFlags : FixedTable EventFlag eventFlagCapacity 1
  messageBoxes : FixedTable MessageBox messageBoxCapacity 1
  fixedPools : FixedTable FixedPool fixedPoolCapacity 1
  variablePools : FixedTable VariablePool variablePoolCapacity 1
  alarms : FixedTable Alarm alarmCapacity 1
  scheduler : Scheduler
  now : Deadline
  currentThread : Option ℕ
  nextReadyOrder : ℕ
  callbackContexts : List CpuContext

/-- A kernel operation. -/
abbrev KernelM := EStateM BiosError Kernel

namespace Kernel

/-- Empty reset kernel state. -/
def new : Kernel where
  threads := .new
  semaphores := .new
  eventFlags := .new
  messageBoxes := .new
  fixedPools := .new
  variablePools := .new
  alarms := .new
  scheduler := .new
  now := 0
  currentThread := none
  nextReadyOrder := 0
  callbackContexts := []

/-- Rewrites one thread record. -/
def modifyThread (k : Kernel) (id : ℕ) (f : Thread → Thread) : Kernel :=
  { k with threads := k.threads.modify id f }

/-- Rewrites one semaphore record. -/
def modifySemaphore (k : Kernel) (id : ℕ) (f : Semaphore → Semaphore) : Kernel :=
  { k with semaphores := k.semaphores.modify id f }

/-- Rewrites one event-flag record. -/
def modifyEventFlag (k : Kernel) (id : ℕ) (f : EventFlag → EventFlag) : Kernel :=
  { k with eventFlags := k.eventFlags.modify id f }

/-- Rewrites one message-box record. -/
def modifyMessageBox (k : Kernel) (id : ℕ) (f : MessageBox → MessageBox) : Kernel :=
  { k with messageBoxes := k.messageBoxes.modify id f }

/-- Rewrites one fixed-pool record. -/
def modifyFixedPool (k : Kernel) (id : ℕ) (f : FixedPool → FixedPool) : Kernel :=
  { k with fixedPools := k.fixedPools.modify id f }

/-- Rewrites one variable-pool record. -/
def modifyVariablePool (k : Kernel) (id : ℕ) (f : VariablePool → VariablePool) : Kernel :=
  { k with variablePools := k.variablePools.modify id f }

end Kernel

/-! ### Argument checks -/

/-- Refuses priorities out of range. -/
def validatePriority (priority : ℕ) : Except KernelError Unit :=
  if minThreadPriority ≤ priority ∧ priority ≤ maxThreadPriority then .ok ()
  else .error .illegalPriority

/-- Refuses attributes other than the orders of a queue. -/
def validateAttributes (attributes : Word) : Except KernelError Unit :=
  if attributes &&& ~~~0x101 = 0 then .ok () else .error .illegalAttribute

/-- Refuses attributes no thread has. -/
def validateThreadAttributes (attributes : Word) : Except KernelError Unit :=
  if attributes &&& ~~~0x03300008 = 0 then .ok () else .error .illegalAttribute

/-- Refuses empty patterns and unknown modes. -/
def validateEventWait (pattern mode : Word) : Except KernelError Unit :=
  if pattern = 0 then .error .eventFlagIllegalPattern
  else if mode &&& ~~~(waitAny ||| waitClear) ≠ 0 then .error .illegalMode
  else .ok ()

/-- A pure check inside a kernel operation. -/
def check {α : Type} (r : Except KernelError α) : KernelM α :=
  match r with
  | .ok a => pure a
  | .error e => throw (.kernel e)

/-- A rejected condition inside a kernel operation. -/
def failIf (c : Prop) [Decidable c] (e : KernelError) : KernelM Unit :=
  if c then throw (.kernel e) else pure ()

/-- A checked value, or a documented kernel error. -/
def orFail {α : Type} (o : Option α) (e : KernelError) : KernelM α := okOr o (.kernel e)

end Upse
