import Upse.Bios.Kernel.Scheduling

/-!
# Alarms, time and callbacks

Advancing kernel time delivers the due wait timeouts and alarms in scheduler order; callbacks save
and restore the interrupted context.
-/

namespace Upse

open ErrorState Kernel

/-- Creates a one-shot guest alarm. -/
def setAlarm (delay : Ticks) (entry : ℕ) (argument : Word) (guestRange : GuestRange) :
    KernelM ℕ := do
  check ((guestRange.validate entry 4 4).mapError fun _ => .illegalEntry)
  let k ← get
  match Deadline.checkedAdvance k.now delay with
  | .error e => throw (.clock e)
  | .ok deadline =>
    let id ← orFail k.alarms.nextId .noMemory
    match k.scheduler.schedule (alarmEvent id) deadline with
    | .error e => throw (.scheduler e)
    | .ok scheduler =>
      set { k with scheduler := scheduler }
      let alarms ← check (k.alarms.insertAt id ⟨entry, argument⟩)
      modify fun k => { k with alarms := alarms }
      return id

/-- Cancels an alarm and returns its callback entry. -/
def cancelAlarm (id : ℕ) : KernelM ℕ := do
  let removed := (← get).alarms.remove id
  modify fun k => { k with alarms := removed.2 }
  let alarm ← orFail removed.1 .illegalObject
  modify fun k => { k with scheduler := (k.scheduler.cancel (alarmEvent id)).2 }
  return alarm.entry

/-- The callback of an alarm. -/
def Alarm.callback (alarm : Alarm) (id : ℕ) : CallbackRequest where
  entry := alarm.entry
  argument := alarm.argument
  returnAddress := returnEntry
  source := id

/-- Handles the timeout of the wait of one thread. -/
def expireWait (id : ℕ) : KernelM (List KernelEvent) := do
  match (← get).waitReasonOf id with
  | none => return []
  | some reason =>
    modify fun k => k.removeWaiter id reason
    completeWait id (if reason = .delay then 0 else KernelError.releaseWait.code) none
    return [.threadReady id]

/-- Handles an alarm that became due. -/
def fireAlarm (id : ℕ) : KernelM (List KernelEvent) := do
  let removed := (← get).alarms.remove id
  modify fun k => { k with alarms := removed.2 }
  match removed.1 with
  | none => return []
  | some alarm => return [.alarm id (alarm.callback id)]

/-- Handles one due event of the scheduler. -/
def dispatchDue (due : DueEvent) : KernelM (List KernelEvent) :=
  if waitEventBase ≤ due.id ∧ due.id < alarmEventBase then expireWait (due.id - waitEventBase)
  else if alarmEventBase ≤ due.id then fireAlarm (due.id - alarmEventBase)
  else return []

/-- Removes the earliest event when it is due. -/
def popDue (now : Deadline) : KernelM (Option DueEvent) := do
  let popped := (← get).scheduler.popDue now
  modify fun k => { k with scheduler := popped.2 }
  return popped.1

/-- The loop of `advanceTo`.  Handling an event only cancels others, so the number of queued events
bounds the number of rounds. -/
def advanceLoop (now : Deadline) : ℕ → KernelM (List KernelEvent)
  | 0 => return []
  | rounds + 1 => do
    match ← popDue now with
    | none => return []
    | some due =>
      let first ← dispatchDue due
      let rest ← advanceLoop now rounds
      return first ++ rest

/-- Advances to an absolute timestamp and dispatches the due events in scheduler order. -/
def advanceTo (now : Deadline) : KernelM (List KernelEvent) := do
  failIf (now < (← get).now) .illegalSize
  modify fun k => { k with now := now }
  advanceLoop now (← get).scheduler.queue.toList.length

/-- Saves the interrupted context and enters a guest callback. -/
def enterCallback (context : CpuContext) (callback : CallbackRequest) : KernelM CpuContext := do
  failIf ((← get).callbackContexts.length = callbackDepth) .illegalContext
  modify fun k => { k with callbackContexts := k.callbackContexts ++ [context] }
  return callback.apply context

/-- Restores the most recently interrupted callback context. -/
def returnFromCallback : KernelM CpuContext := do
  let contexts := (← get).callbackContexts
  let context ← orFail contexts.getLast? .illegalContext
  modify fun k => { k with callbackContexts := contexts.dropLast }
  return context

end Upse
