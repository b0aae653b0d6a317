import Upse.Bios.Kernel.Scheduling

/-!
# Semaphores, event flags and message boxes

Each object keeps the queue of the threads that wait for it.  A wait first tries to take what the
object holds, and queues the running thread otherwise; a signal hands over to the first queued
thread that still waits for the object.
-/

namespace Upse

open ErrorState Kernel

/-! ### Semaphores -/

/-- Creates a semaphore. -/
def createSemaphore (spec : SemaphoreSpec) : KernelM ℕ := do
  check (validateAttributes spec.attributes)
  failIf (spec.maximum = 0 ∨ spec.maximum < spec.initial) .illegalSize
  let k ← get
  let (id, semaphores) ← check (k.semaphores.insert
    { count := spec.initial, maximum := spec.maximum, attributes := spec.attributes, waiters := [] })
  set { k with semaphores := semaphores }
  return id

/-- Deletes a semaphore and releases every waiter. -/
def deleteSemaphore (id : ℕ) : KernelM Unit := do
  let removed := (← get).semaphores.remove id
  modify fun k => { k with semaphores := removed.2 }
  let semaphore ← orFail removed.1 .unknownSemaphoreId
  releaseDeletedWaiters semaphore.waiters

/-- Waits for a semaphore; the result is `none` when a count was available. -/
def waitSemaphore (id : ℕ) (timeout : Option Ticks) (context : CpuContext) :
    KernelM (Option ScheduleAction × CpuContext) := do
  let semaphore ← orFail ((← get).semaphores.get id) .unknownSemaphoreId
  if semaphore.count ≠ 0 then
    modify fun k => k.modifySemaphore id fun semaphore =>
      { semaphore with count := semaphore.count - 1 }
    return (none, context)
  let threadId ← orFail (← get).currentThread .cannotWait
  modify fun k => k.modifySemaphore id fun semaphore =>
    { semaphore with
      waiters := insertWaiter semaphore.waiters threadId semaphore.attributes k.threads }
  let deadline ← waitDeadline timeout
  let (action, context) ← blockCurrent context (.semaphore id) deadline
  return (some action, context)

/-- Polls a semaphore without blocking. -/
def pollSemaphore (id : ℕ) : KernelM Unit := do
  let semaphore ← orFail ((← get).semaphores.get id) .unknownSemaphoreId
  failIf (semaphore.count = 0) .semaphoreZero
  modify fun k => k.modifySemaphore id fun semaphore =>
    { semaphore with count := semaphore.count - 1 }

/-- The loop of `signalSemaphore` over the queued waiters. -/
def signalSemaphoreLoop (id : ℕ) : List ℕ → KernelM (Option ℕ)
  | [] => do
    let semaphore ← orFail ((← get).semaphores.get id) .unknownSemaphoreId
    failIf (semaphore.count = semaphore.maximum) .semaphoreOverflow
    modify fun k => k.modifySemaphore id fun semaphore =>
      { semaphore with count := semaphore.count + 1 }
    return none
  | threadId :: waiters => do
    modify fun k => k.modifySemaphore id fun semaphore => { semaphore with waiters := waiters }
    if (← get).waitMatches threadId (.semaphore id) then
      completeWait threadId 0 none
      return some threadId
    signalSemaphoreLoop id waiters

/-- Signals one semaphore waiter or increments its count. -/
def signalSemaphore (id : ℕ) : KernelM (Option ℕ) := do
  let semaphore ← orFail ((← get).semaphores.get id) .unknownSemaphoreId
  signalSemaphoreLoop id semaphore.waiters

/-! ### Event flags -/

/-- Creates an event flag. -/
def createEventFlag (spec : EventFlagSpec) : KernelM ℕ := do
  failIf (spec.attributes &&& ~~~0x103 ≠ 0) .illegalAttribute
  let k ← get
  let (id, eventFlags) ← check (k.eventFlags.insert
    { bits := spec.bits, attributes := spec.attributes, waiters := [] })
  set { k with eventFlags := eventFlags }
  return id

/-- Deletes an event flag and releases every waiter. -/
def deleteEventFlag (id : ℕ) : KernelM Unit := do
  let removed := (← get).eventFlags.remove id
  modify fun k => { k with eventFlags := removed.2 }
  let event ← orFail removed.1 .unknownEventFlagId
  releaseDeletedWaiters event.waiters

/-- Whether the bits of a flag satisfy a wait for a pattern in a mode. -/
def satisfied (bits pattern mode : Word) : Bool :=
  if mode &&& waitAny ≠ 0 then bits &&& pattern ≠ 0 else bits &&& pattern = pattern

/-- The bits a satisfied wait leaves. -/
def consumedBits (bits pattern mode : Word) : Word :=
  if mode &&& waitClear ≠ 0 then bits &&& ~~~pattern else bits

/-- Tries a wait on the flag `id`; a satisfied one returns the bits and may clear the pattern. -/
def consumeEventBits (id : ℕ) (event : EventFlag) (pattern mode : Word) : KernelM (Option Word) := do
  if !satisfied event.bits pattern mode then
    return none
  modify fun k => k.modifyEventFlag id fun event =>
    { event with bits := consumedBits event.bits pattern mode }
  return some event.bits

theorem consumeEventBits_of_satisfied {k : Kernel} {id : ℕ} {event : EventFlag} {pattern mode : Word}
    (h : satisfied event.bits pattern mode = true) :
    (consumeEventBits id event pattern mode).run k = .ok (some event.bits)
      (k.modifyEventFlag id fun event =>
        { event with bits := consumedBits event.bits pattern mode }) := by
  simp [consumeEventBits, h]

theorem consumeEventBits_of_unsatisfied {k : Kernel} {id : ℕ} {event : EventFlag}
    {pattern mode : Word} (h : satisfied event.bits pattern mode = false) :
    (consumeEventBits id event pattern mode).run k = .ok none k := by
  simp [consumeEventBits, h]

/-- Waits for an event-flag pattern; the matching bits are returned when it holds already. -/
def waitEventFlag (id : ℕ) (pattern mode : Word) (timeout : Option Ticks) (context : CpuContext) :
    KernelM ((Word ⊕ ScheduleAction) × CpuContext) := do
  check (validateEventWait pattern mode)
  let threadId ← orFail (← get).currentThread .cannotWait
  let event ← orFail ((← get).eventFlags.get id) .unknownEventFlagId
  match ← consumeEventBits id event pattern mode with
  | some bits => return (.inl bits, context)
  | none =>
    failIf (event.attributes &&& 2 = 0 ∧ event.waiters ≠ []) .eventFlagMultiple
    modify fun k => k.modifyEventFlag id fun event =>
      { event with
        waiters := insertWaiter event.waiters threadId (event.attributes &&& 1) k.threads }
    let deadline ← waitDeadline timeout
    let (action, context) ← blockCurrent context (.eventFlag id pattern mode) deadline
    return (.inr action, context)

/-- Polls an event flag without blocking. -/
def pollEventFlag (id : ℕ) (pattern mode : Word) : KernelM Word := do
  check (validateEventWait pattern mode)
  let event ← orFail ((← get).eventFlags.get id) .unknownEventFlagId
  orFail (← consumeEventBits id event pattern mode) .eventFlagCondition

/-- The pattern and mode a thread waits with on the flag `id`. -/
def Kernel.eventWaitOf (k : Kernel) (id threadId : ℕ) : Option (Word × Word) :=
  match k.waitReasonOf threadId with
  | some (.eventFlag waitId pattern mode) => if waitId = id then some (pattern, mode) else none
  | _ => none

theorem Kernel.eventWaitOf_eq_some {k : Kernel} {id thread : ℕ} {pattern mode : Word} :
    k.eventWaitOf id thread = some (pattern, mode) ↔
      k.waitReasonOf thread = some (.eventFlag id pattern mode) := by
  unfold eventWaitOf
  split
  next waitId p m h =>
    rw [h]
    constructor
    · intro eq
      split at eq
      next same => cases eq; rw [same]
      next => cases eq
    · intro eq
      cases eq
      simp
  next h => simpa using h id pattern mode

/-- The loop of `setEventFlag` over the queued waiters: the threads woken and those retained. -/
def setEventFlagLoop (id : ℕ) : List ℕ → KernelM (List ℕ × List ℕ)
  | [] => return ([], [])
  | threadId :: queued => do
    match (← get).eventWaitOf id threadId with
    | none => setEventFlagLoop id queued
    | some (pattern, mode) =>
      let event ← orFail ((← get).eventFlags.get id) .unknownEventFlagId
      match ← consumeEventBits id event pattern mode with
      | some value =>
        completeWait threadId 0 (some value)
        let (ready, retained) ← setEventFlagLoop id queued
        return (threadId :: ready, retained)
      | none =>
        let (ready, retained) ← setEventFlagLoop id queued
        return (ready, threadId :: retained)

/-- Sets event-flag bits and wakes every newly satisfied waiter in queue order. -/
def setEventFlag (id : ℕ) (bits : Word) : KernelM (List ℕ) := do
  let event ← orFail ((← get).eventFlags.get id) .unknownEventFlagId
  modify fun k => k.modifyEventFlag id fun event =>
    { event with bits := event.bits ||| bits, waiters := [] }
  let (ready, retained) ← setEventFlagLoop id event.waiters
  let _ ← orFail ((← get).eventFlags.get id) .unknownEventFlagId
  modify fun k => k.modifyEventFlag id fun event => { event with waiters := retained }
  return ready

/-- Clears event-flag bits using the supplied retain mask. -/
def clearEventFlag (id : ℕ) (mask : Word) : KernelM Word := do
  let event ← orFail ((← get).eventFlags.get id) .unknownEventFlagId
  modify fun k => k.modifyEventFlag id fun event => { event with bits := event.bits &&& mask }
  return event.bits

/-! ### Message boxes -/

/-- Creates an empty message box. -/
def createMessageBox (spec : MessageBoxSpec) : KernelM ℕ := do
  check (validateAttributes spec.attributes)
  let k ← get
  let (id, messageBoxes) ← check (k.messageBoxes.insert
    { attributes := spec.attributes, messages := [], waiters := [] })
  set { k with messageBoxes := messageBoxes }
  return id

/-- Deletes a message box and releases every waiter. -/
def deleteMessageBox (id : ℕ) : KernelM Unit := do
  let removed := (← get).messageBoxes.remove id
  modify fun k => { k with messageBoxes := removed.2 }
  let messageBox ← orFail removed.1 .unknownMessageBoxId
  releaseDeletedWaiters messageBox.waiters

/-- The loop of `sendMessage` over the queued waiters. -/
def sendMessageLoop (id : ℕ) (message : Word) : List ℕ → KernelM (Option ℕ)
  | [] => do
    let _ ← orFail ((← get).messageBoxes.get id) .unknownMessageBoxId
    modify fun k => k.modifyMessageBox id fun messageBox =>
      { messageBox with messages := messageBox.messages ++ [message] }
    return none
  | threadId :: waiters => do
    modify fun k => k.modifyMessageBox id fun messageBox => { messageBox with waiters := waiters }
    if (← get).waitMatches threadId (.messageBox id) then
      completeWait threadId 0 (some message)
      return some threadId
    sendMessageLoop id message waiters

/-- Sends a non-null aligned guest message pointer. -/
def sendMessage (id : ℕ) (message : Word) : KernelM (Option ℕ) := do
  failIf (message = 0 ∨ message &&& 3 ≠ 0) .illegalObject
  let messageBox ← orFail ((← get).messageBoxes.get id) .unknownMessageBoxId
  sendMessageLoop id message messageBox.waiters

/-- Receives a message immediately or blocks the running thread. -/
def receiveMessage (id : ℕ) (timeout : Option Ticks) (context : CpuContext) :
    KernelM ((Word ⊕ ScheduleAction) × CpuContext) := do
  let threadId ← orFail (← get).currentThread .cannotWait
  let messageBox ← orFail ((← get).messageBoxes.get id) .unknownMessageBoxId
  match messageBox.messages with
  | message :: messages =>
    modify fun k => k.modifyMessageBox id fun messageBox => { messageBox with messages := messages }
    return (.inl message, context)
  | [] =>
    modify fun k => k.modifyMessageBox id fun messageBox =>
      { messageBox with
        waiters := insertWaiter messageBox.waiters threadId messageBox.attributes k.threads }
    let deadline ← waitDeadline timeout
    let (action, context) ← blockCurrent context (.messageBox id) deadline
    return (.inr action, context)

/-- Polls a message box without blocking. -/
def pollMessage (id : ℕ) : KernelM Word := do
  let messageBox ← orFail ((← get).messageBoxes.get id) .unknownMessageBoxId
  match messageBox.messages with
  | [] => throw (.kernel .messageBoxNoMessage)
  | message :: messages =>
    modify fun k => k.modifyMessageBox id fun messageBox => { messageBox with messages := messages }
    return message

end Upse
