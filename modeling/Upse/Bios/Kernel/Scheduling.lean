import Mathlib.Data.List.MinMax
import Upse.Bios.Kernel.State

/-!
# Selecting, blocking and waking threads

The functions every kernel operation is built from: the selection of the next thread to run, the
suspension of the running thread, and the completion of a wait.
-/

namespace Upse

open ErrorState

namespace Kernel

/-- The ready thread of the least priority number that became ready first. -/
def bestReady (k : Kernel) : Option ℕ :=
  ((k.threads.iter.filter fun entry => entry.2.state = .ready).argmin fun entry =>
    toLex (entry.2.currentPriority, entry.2.readyOrder)).map (·.1)

/-- Whether a thread waits for exactly `expected`. -/
def waitMatches (k : Kernel) (id : ℕ) (expected : WaitReason) : Bool :=
  (k.threads.get id).any fun thread => thread.state = .waiting expected

/-- The reason a thread waits for, if it is waiting. -/
def waitReasonOf (k : Kernel) (id : ℕ) : Option WaitReason :=
  (k.threads.get id).bind fun thread => thread.state.waitReason

/-- Whether a thread is waiting for anything. -/
def isWaiting (k : Kernel) (id : ℕ) : Bool := (k.waitReasonOf id).isSome

/-- Takes a thread out of the queue of the object it waits for. -/
def removeWaiter (k : Kernel) (id : ℕ) (reason : WaitReason) : Kernel :=
  match reason with
  | .sleep | .delay | .vblankStart | .vblankEnd | .moduleStart _ => k
  | .semaphore object =>
    k.modifySemaphore object fun value => { value with waiters := value.waiters.filter (· ≠ id) }
  | .eventFlag object _ _ =>
    k.modifyEventFlag object fun value => { value with waiters := value.waiters.filter (· ≠ id) }
  | .messageBox object =>
    k.modifyMessageBox object fun value => { value with waiters := value.waiters.filter (· ≠ id) }
  | .fixedPool object =>
    k.modifyFixedPool object fun value => { value with waiters := value.waiters.filter (· ≠ id) }
  | .variablePool object _ =>
    k.modifyVariablePool object fun value => { value with waiters := value.waiters.filter (· ≠ id) }

end Kernel

open Kernel

/-- Gives out the next ready order. -/
def takeReadyOrder : KernelM ℕ := do
  let k ← get
  match checkedAdd 64 k.nextReadyOrder 1 with
  | none => throw (.kernel .noMemory)
  | some next =>
    set { k with nextReadyOrder := next }
    return k.nextReadyOrder

/-- The record of a thread whose wait ended with `result` and, if any, a value. -/
def Thread.resume (thread : Thread) (result : ℤ) (value : Option Word) (order : ℕ) : Thread :=
  let context := thread.context.setRegister v0 (BitVec.ofInt 32 result)
  { thread with
    context := match value with
      | some value => context.setRegister v1 value
      | none => context
    readyOrder := order
    state := .ready }

/-- Ends a wait: cancels its timeout, writes the result registers and makes the thread ready. -/
def completeWait (id : ℕ) (result : ℤ) (value : Option Word) : KernelM Unit := do
  modify fun k => { k with scheduler := (k.scheduler.cancel (waitEvent id)).2 }
  let order ← takeReadyOrder
  let thread ← orFail ((← get).threads.get id) .unknownThreadId
  failIf (thread.state.waitReason.isNone) .notWaiting
  modify fun k => k.modifyThread id fun thread => thread.resume result value order

/-- Whether `select` replaces the running thread by the candidate. -/
def shouldSwitch (candidate : Option ℕ) (force : Bool) : KernelM Bool := do
  let k ← get
  match k.currentThread, candidate with
  | none, some _ => return true
  | _, none => return false
  | some current, some candidate =>
    let current ← orFail (k.threads.get current) .unknownThreadId
    let candidate ← orFail (k.threads.get candidate) .unknownThreadId
    return force || decide (candidate.currentPriority < current.currentPriority)

/-- Puts the running thread, if any, back among the ready ones. -/
def preemptCurrent (context : CpuContext) : KernelM Unit := do
  match (← get).currentThread with
  | none => return
  | some current =>
    modify fun k => { k with currentThread := none }
    let order ← takeReadyOrder
    let _ ← orFail ((← get).threads.get current) .unknownThreadId
    modify fun k => k.modifyThread current fun thread =>
      { thread with context := context, readyOrder := order, state := .ready }

/-- Selects the thread to run, and returns the decision with the context then installed. -/
def select (context : CpuContext) (previous : Option ℕ) (force : Bool) :
    KernelM (ScheduleAction × CpuContext) := do
  let candidate := (← get).bestReady
  if !(← shouldSwitch candidate force) then
    return (⟨previous, (← get).currentThread, false⟩, context)
  preemptCurrent context
  let candidate ← orFail candidate .illegalContext
  let thread ← orFail ((← get).threads.get candidate) .unknownThreadId
  modify fun k =>
    { k.modifyThread candidate fun thread => { thread with state := .running } with
      currentThread := some candidate }
  return (⟨previous, some candidate, previous ≠ some candidate⟩, thread.context)

/-- Arms the timeout of a wait, when it has one. -/
def armTimeout (id : ℕ) (deadline : Option Deadline) : KernelM Unit := do
  match deadline with
  | none => return
  | some deadline =>
    match (← get).scheduler.schedule (waitEvent id) deadline with
    | .error _ => throw (.kernel .noMemory)
    | .ok scheduler => modify fun k => { k with scheduler := scheduler }

/-- Blocks the running thread and selects another one. -/
def blockCurrent (context : CpuContext) (reason : WaitReason) (deadline : Option Deadline) :
    KernelM (ScheduleAction × CpuContext) := do
  let id ← orFail (← get).currentThread .cannotWait
  modify fun k => { k with currentThread := none }
  let _ ← orFail ((← get).threads.get id) .unknownThreadId
  modify fun k => k.modifyThread id fun thread =>
    { thread with context := context, state := .waiting reason }
  armTimeout id deadline
  select context (some id) true

/-- Releases the waiters of a deleted object, in queue order. -/
def releaseDeletedWaiters : List ℕ → KernelM Unit
  | [] => return
  | id :: waiters => do
    if (← get).isWaiting id then
      completeWait id KernelError.waitDeleted.code none
    releaseDeletedWaiters waiters

/-- The absolute deadline of an optional timeout. -/
def waitDeadline (timeout : Option Ticks) : KernelM (Option Deadline) := do
  match timeout with
  | none => return none
  | some ticks =>
    match Deadline.checkedAdvance (← get).now ticks with
    | .error e => throw (.clock e)
    | .ok deadline => return some deadline

/-- Inserts a thread into a waiter queue: at the end, or by priority when the object asks for it. -/
def insertWaiter {N : ℕ} (waiters : List ℕ) (threadId : ℕ) (attributes : Word)
    (threads : FixedTable Thread N 1) : List ℕ :=
  if attributes &&& 1 = 0 then waiters ++ [threadId]
  else
    let priority := ((threads.get threadId).map (·.currentPriority)).getD (maxThreadPriority + 1)
    let position := waiters.findIdx? fun id =>
      (threads.get id).any fun thread => priority < thread.currentPriority
    match position with
    | some position => waiters.insertIdx position threadId
    | none => waiters ++ [threadId]

theorem insertWaiter_perm {N : ℕ} (waiters : List ℕ) (threadId : ℕ) (attributes : Word)
    (threads : FixedTable Thread N 1) :
    (insertWaiter waiters threadId attributes threads).Perm (threadId :: waiters) := by
  unfold insertWaiter
  split
  · exact List.perm_append_singleton threadId waiters
  · dsimp only
    split
    next position found =>
      obtain ⟨bound, -⟩ := List.findIdx?_eq_some_iff_getElem.mp found
      exact List.perm_insertIdx _ _ bound.le
    next => exact List.perm_append_singleton threadId waiters

end Upse
