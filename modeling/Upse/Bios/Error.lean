import Upse.Support.Scheduler

/-!
# Result codes of the IOP kernel

`KernelError` carries the documented guest result codes; `BiosError` adds the host-side failures
of the clock and of the event scheduler.
-/

namespace Upse

/-- IOP kernel result codes used by the HLE boundary. -/
inductive KernelError where
  | error
  | illegalExceptionCode
  | exceptionHandlerNotInUse
  | exceptionHandlerInUse
  | illegalContext
  | illegalInterruptCode
  | foundHandler
  | handlerNotFound
  | illegalObject
  | unknownModule
  | memoryInUse
  | alreadyStarted
  | notStarted
  | alreadyStopped
  | cannotStop
  | notStopped
  | notRemovable
  | libraryFound
  | libraryNotFound
  | illegalLibrary
  | libraryInUse
  | alreadyStopping
  | noMemory
  | illegalAttribute
  | illegalEntry
  | illegalPriority
  | illegalStackSize
  | illegalMode
  | illegalThreadId
  | unknownThreadId
  | unknownSemaphoreId
  | unknownEventFlagId
  | unknownMessageBoxId
  | unknownVariablePoolId
  | unknownFixedPoolId
  | dormant
  | notDormant
  | notSuspended
  | notWaiting
  | cannotWait
  | releaseWait
  | semaphoreZero
  | semaphoreOverflow
  | eventFlagCondition
  | eventFlagMultiple
  | eventFlagIllegalPattern
  | messageBoxNoMessage
  | waitDeleted
  | illegalMemoryBlock
  | illegalMemorySize
  | illegalScratchpadAddress
  | scratchpadInUse
  | scratchpadNotInUse
  | illegalType
  | illegalSize
  deriving DecidableEq, Repr

/-- The guest-visible signed result. -/
def KernelError.code : KernelError → ℤ
  | .error => -1
  | .illegalExceptionCode => -50
  | .exceptionHandlerNotInUse => -51
  | .exceptionHandlerInUse => -52
  | .illegalContext => -100
  | .illegalInterruptCode => -101
  | .foundHandler => -104
  | .handlerNotFound => -105
  | .illegalObject => -201
  | .unknownModule => -202
  | .memoryInUse => -205
  | .alreadyStarted => -206
  | .notStarted => -207
  | .alreadyStopped => -208
  | .cannotStop => -209
  | .notStopped => -210
  | .notRemovable => -211
  | .libraryFound => -212
  | .libraryNotFound => -213
  | .illegalLibrary => -214
  | .libraryInUse => -215
  | .alreadyStopping => -216
  | .noMemory => -400
  | .illegalAttribute => -401
  | .illegalEntry => -402
  | .illegalPriority => -403
  | .illegalStackSize => -404
  | .illegalMode => -405
  | .illegalThreadId => -406
  | .unknownThreadId => -407
  | .unknownSemaphoreId => -408
  | .unknownEventFlagId => -409
  | .unknownMessageBoxId => -410
  | .unknownVariablePoolId => -411
  | .unknownFixedPoolId => -412
  | .dormant => -413
  | .notDormant => -414
  | .notSuspended => -415
  | .notWaiting => -416
  | .cannotWait => -417
  | .releaseWait => -418
  | .semaphoreZero => -419
  | .semaphoreOverflow => -420
  | .eventFlagCondition => -421
  | .eventFlagMultiple => -422
  | .eventFlagIllegalPattern => -423
  | .messageBoxNoMessage => -424
  | .waitDeleted => -425
  | .illegalMemoryBlock => -426
  | .illegalMemorySize => -427
  | .illegalScratchpadAddress => -428
  | .scratchpadInUse => -429
  | .scratchpadNotInUse => -430
  | .illegalType => -431
  | .illegalSize => -432

/-- Structured failure of a kernel operation. -/
inductive BiosError where
  | clock (source : ClockError)
  | scheduler (source : SchedulerError)
  | kernel (source : KernelError)
  deriving DecidableEq, Repr

instance : Coe ClockError BiosError := ⟨.clock⟩
instance : Coe SchedulerError BiosError := ⟨.scheduler⟩
instance : Coe KernelError BiosError := ⟨.kernel⟩

end Upse
