import Upse.Lib.Runs
import Upse.Bios.Kernel.Threads
import Upse.Bios.Kernel.Objects
import Upse.Bios.Kernel.Pools
import Upse.Bios.Kernel.Time

/-!
# The kernel as a state machine

An `Op` is a call of one kernel operation, `step` runs it in the context of the emulated CPU, and a
run of the kernel is a sequence of calls, successful or failed, from the empty kernel.
-/

namespace Upse

open ErrorState

/-- A call of a kernel operation. -/
inductive Op where
  | createThread (spec : ThreadSpec) (guestRange : GuestRange)
  | startThread (id : ℕ) (argument : Word)
  | startThreadWithContext (id : ℕ) (arguments : Word × Word × Word × Word) (returnAddress : Word)
  | waitModuleStart (child : ℕ)
  | completeModuleStart (requester child moduleId : ℕ) (resident : Word)
  | deleteThread (id : ℕ)
  | exitCurrent
  | exitDeleteCurrent
  | changePriority (id priority : ℕ)
  | reschedule (reason : RescheduleReason)
  | sleepCurrent
  | wakeupThread (id : ℕ)
  | delayCurrent (ticks : Ticks)
  | waitVblank (phase : ℕ)
  | notifyVblank (phase : ℕ)
  | releaseWait (id : ℕ)
  | createSemaphore (spec : SemaphoreSpec)
  | deleteSemaphore (id : ℕ)
  | waitSemaphore (id : ℕ) (timeout : Option Ticks)
  | pollSemaphore (id : ℕ)
  | signalSemaphore (id : ℕ)
  | createEventFlag (spec : EventFlagSpec)
  | deleteEventFlag (id : ℕ)
  | waitEventFlag (id : ℕ) (pattern mode : Word) (timeout : Option Ticks)
  | pollEventFlag (id : ℕ) (pattern mode : Word)
  | setEventFlag (id : ℕ) (bits : Word)
  | clearEventFlag (id : ℕ) (mask : Word)
  | createMessageBox (spec : MessageBoxSpec)
  | deleteMessageBox (id : ℕ)
  | sendMessage (id : ℕ) (message : Word)
  | receiveMessage (id : ℕ) (timeout : Option Ticks)
  | pollMessage (id : ℕ)
  | createFixedPool (spec : FixedPoolSpec) (guestRange : GuestRange)
  | deleteFixedPool (id : ℕ)
  | allocateFixed (id : ℕ) (timeout : Option Ticks)
  | freeFixed (id address : ℕ)
  | createVariablePool (spec : VariablePoolSpec) (guestRange : GuestRange)
  | deleteVariablePool (id : ℕ)
  | allocateVariable (id size : ℕ) (timeout : Option Ticks)
  | freeVariable (id address : ℕ)
  | setAlarm (delay : Ticks) (entry : ℕ) (argument : Word) (guestRange : GuestRange)
  | cancelAlarm (id : ℕ)
  | advanceTo (now : Deadline)
  | enterCallback (callback : CallbackRequest)
  | returnFromCallback
  | reset

/-- The value a successful call returns. -/
inductive Reply where
  | done
  | handle (id : ℕ)
  | thread (thread : Thread)
  | number (value : ℕ)
  | flag (value : Bool)
  | word (value : Word)
  | acquired
  | action (action : ScheduleAction)
  | woken (thread : Option ℕ)
  | threads (ids : List ℕ)
  | events (events : List KernelEvent)
  deriving DecidableEq

/-- The reply of a wait that may be satisfied at once. -/
def Reply.ofWait {α : Type} (immediate : α → Reply) : (α ⊕ ScheduleAction) → Reply
  | .inl value => immediate value
  | .inr decision => .action decision

/-- Restores empty reset state. -/
def resetKernel : KernelM Unit := set Kernel.new

/-- Runs a call in a CPU context; the result carries the context then installed in the CPU. -/
def step (op : Op) (context : CpuContext) : KernelM (Reply × CpuContext) :=
  match op with
  | .createThread spec range => (fun id => (.handle id, context)) <$> createThread spec range
  | .startThread id argument => (fun _ => (.done, context)) <$> startThread id argument
  | .startThreadWithContext id arguments ra =>
    (fun _ => (.done, context)) <$> startThreadWithContext id arguments ra
  | .waitModuleStart child => (fun r => (.action r.1, r.2)) <$> waitModuleStart child context
  | .completeModuleStart requester child moduleId resident =>
    (fun _ => (.done, context)) <$> completeModuleStart requester child moduleId resident
  | .deleteThread id => (fun thread => (.thread thread, context)) <$> deleteThread id
  | .exitCurrent => (fun r => (.action r.1, r.2)) <$> exitCurrent context
  | .exitDeleteCurrent => (fun r => (.action r.1, r.2)) <$> exitDeleteCurrent context
  | .changePriority id priority => (fun old => (.number old, context)) <$> changePriority id priority
  | .reschedule reason => (fun r => (.action r.1, r.2)) <$> reschedule context reason
  | .sleepCurrent => (fun r => (.action r.1, r.2)) <$> sleepCurrent context
  | .wakeupThread id => (fun woken => (.flag woken, context)) <$> wakeupThread id
  | .delayCurrent ticks => (fun r => (.action r.1, r.2)) <$> delayCurrent ticks context
  | .waitVblank phase => (fun r => (.action r.1, r.2)) <$> waitVblank phase context
  | .notifyVblank phase => (fun ids => (.threads ids, context)) <$> notifyVblank phase
  | .releaseWait id => (fun _ => (.done, context)) <$> releaseWait id
  | .createSemaphore spec => (fun id => (.handle id, context)) <$> createSemaphore spec
  | .deleteSemaphore id => (fun _ => (.done, context)) <$> deleteSemaphore id
  | .waitSemaphore id timeout =>
    (fun r => (r.1.elim .acquired .action, r.2)) <$> waitSemaphore id timeout context
  | .pollSemaphore id => (fun _ => (.done, context)) <$> pollSemaphore id
  | .signalSemaphore id => (fun woken => (.woken woken, context)) <$> signalSemaphore id
  | .createEventFlag spec => (fun id => (.handle id, context)) <$> createEventFlag spec
  | .deleteEventFlag id => (fun _ => (.done, context)) <$> deleteEventFlag id
  | .waitEventFlag id pattern mode timeout =>
    (fun r => (.ofWait .word r.1, r.2)) <$> waitEventFlag id pattern mode timeout context
  | .pollEventFlag id pattern mode =>
    (fun bits => (.word bits, context)) <$> pollEventFlag id pattern mode
  | .setEventFlag id bits => (fun ids => (.threads ids, context)) <$> setEventFlag id bits
  | .clearEventFlag id mask => (fun bits => (.word bits, context)) <$> clearEventFlag id mask
  | .createMessageBox spec => (fun id => (.handle id, context)) <$> createMessageBox spec
  | .deleteMessageBox id => (fun _ => (.done, context)) <$> deleteMessageBox id
  | .sendMessage id message => (fun woken => (.woken woken, context)) <$> sendMessage id message
  | .receiveMessage id timeout =>
    (fun r => (.ofWait .word r.1, r.2)) <$> receiveMessage id timeout context
  | .pollMessage id => (fun message => (.word message, context)) <$> pollMessage id
  | .createFixedPool spec range => (fun id => (.handle id, context)) <$> createFixedPool spec range
  | .deleteFixedPool id => (fun _ => (.done, context)) <$> deleteFixedPool id
  | .allocateFixed id timeout =>
    (fun r => (.ofWait .number r.1, r.2)) <$> allocateFixed id timeout context
  | .freeFixed id address => (fun woken => (.woken woken, context)) <$> freeFixed id address
  | .createVariablePool spec range =>
    (fun id => (.handle id, context)) <$> createVariablePool spec range
  | .deleteVariablePool id => (fun _ => (.done, context)) <$> deleteVariablePool id
  | .allocateVariable id size timeout =>
    (fun r => (.ofWait .number r.1, r.2)) <$> allocateVariable id size timeout context
  | .freeVariable id address => (fun ids => (.threads ids, context)) <$> freeVariable id address
  | .setAlarm delay entry argument range =>
    (fun id => (.handle id, context)) <$> setAlarm delay entry argument range
  | .cancelAlarm id => (fun entry => (.number entry, context)) <$> cancelAlarm id
  | .advanceTo now => (fun events => (.events events, context)) <$> advanceTo now
  | .enterCallback callback => (fun context => (.done, context)) <$> enterCallback context callback
  | .returnFromCallback => (fun context => (.done, context)) <$> returnFromCallback
  | .reset => (fun _ => (.done, context)) <$> resetKernel

/-- One call as an observer sees it. -/
structure Call where
  before : Kernel
  op : Op
  context : CpuContext
  result : Except BiosError (Reply × CpuContext)
  after : Kernel

/-- The outcome of a run without its final state. -/
def outcome {α : Type} : EStateM.Result BiosError Kernel α → Except BiosError α
  | .ok a _ => .ok a
  | .error e _ => .error e

theorem outcome_map {α β : Type} (f : α → β) (m : KernelM α) (k : Kernel) :
    outcome ((f <$> m).run k) = (outcome (m.run k)).map f := by
  rw [run_map]
  cases m.run k <;> rfl

/-- The call of `op` in a state and a context. -/
def Call.of (k : Kernel) (op : Op) (context : CpuContext) : Call where
  before := k
  op := op
  context := context
  result := outcome ((step op context).run k)
  after := leaves ((step op context).run k)

/-- The steps of the kernel: any call, with any outcome. -/
def Steps (k : Kernel) (call : Call) (k' : Kernel) : Prop :=
  call = Call.of k call.op call.context ∧ k' = call.after

/-- States reachable from the empty kernel by any sequence of calls. -/
def Reachable (k : Kernel) : Prop := ∃ calls, Run Steps Kernel.new calls k

theorem steps_of (k : Kernel) (op : Op) (context : CpuContext) :
    Steps k (.of k op context) (Call.of k op context).after := ⟨rfl, rfl⟩

theorem reachable_new : Reachable Kernel.new := ⟨[], .refl _⟩

theorem Reachable.step {k : Kernel} (h : Reachable k) (op : Op) (context : CpuContext) :
    Reachable (leaves ((step op context).run k)) := by
  obtain ⟨calls, run⟩ := h
  exact ⟨_, run.snoc (steps_of k op context)⟩

/-- The induction rule for reachable states. -/
theorem Reachable.invariant {I : Kernel → Prop} {k : Kernel} (h : Reachable k)
    (start : I Kernel.new)
    (next : ∀ k op context, I k → I (leaves ((Upse.step op context).run k))) : I k := by
  obtain ⟨calls, run⟩ := h
  refine run.invariant start ?_
  rintro a call b ha ⟨eq, rfl⟩
  rw [eq]
  exact next a _ _ ha

/-! ### Runs that can be evaluated -/

/-- The state after a list of calls in one CPU context, whatever they return. -/
def Kernel.after (k : Kernel) (context : CpuContext) : List Op → Kernel
  | [] => k
  | op :: ops => Kernel.after (leaves ((Upse.step op context).run k)) context ops

/-- The calls of such a run. -/
def Kernel.history (k : Kernel) (context : CpuContext) : List Op → List Call
  | [] => []
  | op :: ops =>
    .of k op context :: Kernel.history (leaves ((Upse.step op context).run k)) context ops

theorem run_history (k : Kernel) (context : CpuContext) (ops : List Op) :
    Run Steps k (k.history context ops) (k.after context ops) := by
  induction ops generalizing k with
  | nil => exact .refl k
  | cons op ops ih => exact (Run.single (steps_of k op context)).append (ih _)

theorem exists_run_ok {α : Type} {r : EStateM.Result BiosError Kernel α} {p : α → Bool}
    (h : (outcome r).toOption.any p = true) : ∃ a, r = .ok a (leaves r) ∧ p a = true := by
  cases r with
  | ok a k => exact ⟨a, rfl, h⟩
  | error e k => cases h

theorem Reachable.after {k : Kernel} (h : Reachable k) (context : CpuContext) (ops : List Op) :
    Reachable (k.after context ops) := by
  obtain ⟨calls, run⟩ := h
  exact ⟨_, run.append (run_history k context ops)⟩

/-- Guest RAM of a small machine. -/
def sampleRange : GuestRange := ⟨0x1000, 0x100000⟩

/-- The parameters of a thread in that RAM. -/
def sampleThread (priority : ℕ) : ThreadSpec where
  entry := 0x1000
  stack := 0x2000
  stackSize := 0x1000
  priority := priority
  globalPointer := 0
  attributes := 0
  option := 0

/-- The zeroed CPU. -/
def sampleContext : CpuContext := .reset 0 0

end Upse
