import Upse.Bios.Kernel.Records
import Upse.Bios.Kernel.Step

/-!
# What a kernel call does

Every call, successful or failed, is a sequence of acts: a thread is created, woken, blocked or
dispatched, an object is rewritten, an event is popped.  `Op.Allows` says which acts a call of each
operation can perform, so that an invariant is proved once for each act, and a frame condition is
read off the operation.
-/

namespace Upse

open ErrorState Relation

/-- The kind of one change of the kernel state. -/
inductive Act where
  | spawn
  | reap
  | start (id : ℕ)
  | wake (id : ℕ) (reason : WaitReason) (result : ℤ) (value : Option Word)
  | disarm (id : ℕ)
  | exit (id : ℕ)
  | erase (id : ℕ)
  | block (id : ℕ) (reason : WaitReason)
  | preempt
  | lose
  | dispatch
  | save
  | adjust
  | create (o : Obj)
  | touch (o : Obj)
  | unqueue (id : ℕ)
  | setAlarm
  | cancelAlarm (id : ℕ)
  | pop
  | fire
  | clock
  | callbacks

namespace Kernel

/-- No ready order is left to give out. -/
def OrdersExhausted (k : Kernel) : Prop := 2 ^ 64 ≤ k.nextReadyOrder + 1

/-- A counter of the kernel is exhausted: the next order or sequence number does not fit. -/
def Exhausted (k : Kernel) : Prop :=
  k.OrdersExhausted ∨ 2 ^ 64 ≤ k.scheduler.nextSequence + 1

/-- The running thread exists and is in the running state. -/
def RunningSound (k : Kernel) : Prop :=
  ∀ id, k.currentThread = some id → ∃ order, k.view id = some (.running, order)

theorem RunningSound.found {k : Kernel} (sound : k.RunningSound) {id : ℕ} (running : k.currentThread = some id) :
    ∃ thread, k.threads.get id = some thread ∧ thread.state = .running := by
  obtain ⟨order, before⟩ := sound id running
  obtain ⟨thread, found, state, -⟩ := view_eq_some.mp before
  exact ⟨thread, found, state⟩

/-- One change of the kernel state. -/
inductive Does : Kernel → Act → Kernel → Prop
  | spawn {k : Kernel} {id : ℕ} {thread : Thread} {threads : FixedTable Thread threadCapacity 1} :
      k.threads.insert thread = .ok (id, threads) → thread.state = .dormant →
      Does k .spawn { k with threads := threads }
  | reap {k : Kernel} {id : ℕ} {thread : Thread} :
      k.threads.get id = some thread → thread.state = .dormant →
      Does k .reap { k with threads := (k.threads.remove id).2 }
  | start {k : Kernel} {id : ℕ} {thread : Thread} {arguments : Word × Word × Word × Word}
      {returnAddress : Word} :
      k.threads.get id = some thread → thread.state = .dormant → ¬ k.OrdersExhausted →
      Does k (.start id) (k.start id arguments returnAddress)
  | wake {k : Kernel} {id : ℕ} {reason : WaitReason} {result : ℤ} {value : Option Word} :
      k.waitReasonOf id = some reason → ¬ k.OrdersExhausted →
      Does k (.wake id reason result value) (k.wake id result value)
  | disarm {k : Kernel} {id : ℕ} : k.OrdersExhausted → Does k (.disarm id) (k.disarm id)
  | exit {k : Kernel} {id : ℕ} {context : CpuContext} :
      k.currentThread = some id → Does k (.exit id) (k.retire id context)
  | erase {k : Kernel} {id : ℕ} :
      k.currentThread = some id → Does k (.erase id) (k.expunge id)
  | block {k : Kernel} {id : ℕ} {context : CpuContext} {reason : WaitReason}
      {deadline : Option Deadline} {scheduler : Scheduler} :
      k.currentThread = some id → k.arm id deadline = .ok scheduler →
      Does k (.block id reason) (k.block id context reason scheduler)
  | stall {k : Kernel} {id : ℕ} {context : CpuContext} {reason : WaitReason} :
      k.currentThread = some id → k.Exhausted →
      Does k (.block id reason) (k.block id context reason k.scheduler)
  | preempt {k : Kernel} {id : ℕ} {context : CpuContext} :
      k.currentThread = some id → ¬ k.OrdersExhausted → Does k .preempt (k.preempt id context)
  | lose {k : Kernel} : k.OrdersExhausted → Does k .lose { k with currentThread := none }
  | dispatch {k : Kernel} {id : ℕ} :
      k.currentThread = none → (∃ thread, k.threads.get id = some thread ∧ thread.state = .ready) →
      Does k .dispatch (k.dispatch id)
  | save {k : Kernel} {id : ℕ} {context : CpuContext} :
      k.currentThread = some id →
      Does k .save (k.modifyThread id fun thread => { thread with context := context })
  | adjust {k : Kernel} {id : ℕ} {f : Thread → Thread} :
      (∀ thread, (f thread).state = thread.state ∧ (f thread).readyOrder = thread.readyOrder ∧
        (f thread).context = thread.context) →
      Does k .adjust (k.modifyThread id f)
  | create {k k' : Kernel} {o : Obj} :
      k'.core = k.core → k.record? o = none → (∀ o', o' ≠ o → k'.record? o' = k.record? o') →
      Does k (.create o) k'
  | touch {k k' : Kernel} {o : Obj} :
      k'.core = k.core → (k.record? o = none → k'.record? o = none) →
      (∀ o', o' ≠ o → k'.record? o' = k.record? o') → Does k (.touch o) k'
  | unqueue {k : Kernel} {id : ℕ} {reason : WaitReason} :
      k.waitReasonOf id = some reason → Does k (.unqueue id) (k.removeWaiter id reason)
  | setAlarm {k : Kernel} {id : ℕ} {deadline : Deadline} {scheduler : Scheduler} {alarm : Alarm}
      {alarms : FixedTable Alarm alarmCapacity 1} :
      k.scheduler.schedule (alarmEvent id) deadline = .ok scheduler →
      k.alarms.insertAt id alarm = .ok alarms →
      Does k .setAlarm { k with scheduler := scheduler, alarms := alarms }
  | cancelAlarm {k : Kernel} {id : ℕ} :
      Does k (.cancelAlarm id)
        { k with
          alarms := (k.alarms.remove id).2
          scheduler := (k.scheduler.cancel (alarmEvent id)).2 }
  | pop {k : Kernel} {due : DueEvent} {scheduler : Scheduler} :
      k.scheduler.popDue k.now = (some due, scheduler) → due.id < alarmEventBase →
      Does k .pop { k with scheduler := scheduler }
  | fire {k : Kernel} {id : ℕ} {deadline : Deadline} {scheduler : Scheduler} :
      k.scheduler.popDue k.now = (some ⟨alarmEvent id, deadline⟩, scheduler) →
      Does k .fire { k with scheduler := scheduler, alarms := (k.alarms.remove id).2 }
  | clock {k : Kernel} {now : Deadline} : k.now ≤ now → Does k .clock { k with now := now }
  | callbacks {k : Kernel} {contexts : List CpuContext} :
      Does k .callbacks { k with callbackContexts := contexts }

/-- A sequence of changes whose kinds satisfy `L`. -/
def Acts (L : Act → Prop) : Kernel → Kernel → Prop :=
  ReflTransGen fun k k' => ∃ act, L act ∧ Does k act k'

instance (L : Act → Prop) : Std.Refl (Acts L) := ⟨fun _ => .refl⟩

instance (L : Act → Prop) : IsTrans Kernel (Acts L) := ⟨fun _ _ _ => ReflTransGen.trans⟩

variable {k k' : Kernel}

theorem Does.acts {L : Act → Prop} {act : Act} (h : Does k act k') (allowed : L act) :
    Acts L k k' :=
  .single ⟨act, allowed, h⟩

theorem Acts.mono {L L' : Act → Prop} (h : Acts L k k')
    (weaken : ∀ act, L act → L' act) : Acts L' k k' :=
  h.lift id fun _ _ ⟨act, allowed, does⟩ => ⟨act, weaken act allowed, does⟩

/-- The induction rule: what every allowed change preserves, a call preserves. -/
theorem Acts.preserves {L : Act → Prop} {I : Kernel → Prop} (h : Acts L k k')
    (start : I k) (next : ∀ a b act, L act → Does a act b → I a → I b) : I k' := by
  induction h with
  | refl => exact start
  | tail _ step ih =>
    obtain ⟨act, allowed, does⟩ := step
    exact next _ _ act allowed does ih

/-! ### The threads after a change -/

/-- What a change does to the states of the threads, the running thread and the ready orders. -/
inductive Moves (k k' : Kernel) : Prop
  | keep : k'.view = k.view → k'.currentThread = k.currentThread →
      k'.nextReadyOrder = k.nextReadyOrder → Moves k k'
  | add (id order : ℕ) : k.view id = none →
      k'.view = Function.update k.view id (some (.dormant, order)) →
      k'.currentThread = k.currentThread → k'.nextReadyOrder = k.nextReadyOrder → Moves k k'
  | remove (id order : ℕ) : k.view id = some (.dormant, order) →
      k'.view = Function.update k.view id none →
      k'.currentThread = k.currentThread → k'.nextReadyOrder = k.nextReadyOrder → Moves k k'
  | ready (id order : ℕ) (state : ThreadState) : k.view id = some (state, order) →
      state = .dormant ∨
        (∃ reason, state = .waiting reason) ∧ k'.scheduler.pending (waitEvent id) = none →
      k'.view = Function.update k.view id (some (.ready, k.nextReadyOrder)) →
      k'.currentThread = k.currentThread → k'.nextReadyOrder = k.nextReadyOrder + 1 → Moves k k'
  | preempt (id order : ℕ) : k.currentThread = some id → k.view id = some (.running, order) →
      k'.view = Function.update k.view id (some (.ready, k.nextReadyOrder)) →
      k'.currentThread = none → k'.nextReadyOrder = k.nextReadyOrder + 1 → Moves k k'
  | leave (id order : ℕ) (next : Option (ThreadState × ℕ)) :
      k.currentThread = some id → k.view id = some (.running, order) →
      (∀ order, next ≠ some (.ready, order) ∧ next ≠ some (.running, order)) →
      k'.view = Function.update k.view id next →
      k'.currentThread = none → k'.nextReadyOrder = k.nextReadyOrder → Moves k k'
  | dispatch (id order : ℕ) : k.currentThread = none → k.view id = some (.ready, order) →
      k'.view = Function.update k.view id (some (.running, order)) →
      k'.currentThread = some id → k'.nextReadyOrder = k.nextReadyOrder → Moves k k'
  | lose : k.OrdersExhausted → k'.view = k.view → k'.currentThread = none →
      k'.nextReadyOrder = k.nextReadyOrder → Moves k k'

theorem Moves.of_core (core : k'.core = k.core) : Moves k k' := by
  have view : k'.core.view = k.core.view := congrArg Kernel.view core
  have current : k'.core.currentThread = k.core.currentThread := congrArg Kernel.currentThread core
  have next : k'.core.nextReadyOrder = k.core.nextReadyOrder := congrArg Kernel.nextReadyOrder core
  exact .keep view current next

theorem Does.moves {act : Act} (h : Does k act k') (sound : k.RunningSound) :
    Moves k k' := by
  cases h with
  | @spawn id thread threads inserted dormant =>
    obtain ⟨-, free, -, -, get⟩ := FixedTable.insert_eq_ok inserted
    refine .add id thread.readyOrder ?_ ?_ rfl rfl
    · simp [view, free]
    · funext other
      rw [Function.update_apply]
      simp only [view, get]
      split
      · simp [dormant]
      · rfl
  | @reap id thread found dormant =>
    refine .remove id thread.readyOrder ?_ ?_ rfl rfl
    · simp [view, found, dormant]
    · funext other
      rw [Function.update_apply]
      simp only [view, FixedTable.get_remove]
      split <;> rfl
  | @start id thread _ _ found dormant _ =>
    exact .ready id thread.readyOrder .dormant (by simp [view, found, dormant]) (.inl rfl)
      (view_of_modify found rfl) rfl rfl
  | @wake id reason _ _ waiting _ =>
    obtain ⟨thread, found, state⟩ := waitReasonOf_eq_some.mp waiting
    exact .ready id thread.readyOrder (.waiting reason) (by simp [view, found, state])
      (.inr ⟨⟨reason, rfl⟩, (Scheduler.pending_cancel _ _ _).trans (if_pos rfl)⟩)
      (view_of_modify found rfl) rfl rfl
  | @exit id context running =>
    obtain ⟨order, before⟩ := sound id running
    obtain ⟨thread, found, -, -⟩ := view_eq_some.mp before
    exact .leave id order _ running before (by simp) (view_of_modify found rfl) rfl rfl
  | @erase id running =>
    obtain ⟨order, before⟩ := sound id running
    exact .leave id order none running before (by simp) (view_expunge k id) rfl rfl
  | @block id context reason _ _ running _ =>
    obtain ⟨order, before⟩ := sound id running
    obtain ⟨thread, found, -, -⟩ := view_eq_some.mp before
    exact .leave id order _ running before (by simp) (view_of_modify found rfl) rfl rfl
  | @stall id context reason running _ =>
    obtain ⟨order, before⟩ := sound id running
    obtain ⟨thread, found, -, -⟩ := view_eq_some.mp before
    exact .leave id order _ running before (by simp) (view_of_modify found rfl) rfl rfl
  | @preempt id context running _ =>
    obtain ⟨order, before⟩ := sound id running
    obtain ⟨thread, found, -, -⟩ := view_eq_some.mp before
    exact .preempt id order running before (view_of_modify found rfl) rfl rfl
  | lose full => exact .lose full rfl rfl rfl
  | @dispatch id idle ready =>
    obtain ⟨thread, found, state⟩ := ready
    exact .dispatch id thread.readyOrder idle (by simp [view, found, state])
      (view_of_modify found rfl) rfl rfl
  | save _ => exact .keep (view_modifyThread fun _ => ⟨rfl, rfl⟩) rfl rfl
  | adjust keeps =>
    exact .keep (view_modifyThread fun thread => ⟨(keeps thread).1, (keeps thread).2.1⟩) rfl rfl
  | create core _ _ => exact .of_core core
  | touch core _ _ => exact .of_core core
  | unqueue _ => exact .of_core (core_removeWaiter k _ _)
  | _ => exact .keep rfl rfl rfl

theorem Does.runningSound {act : Act} (h : Does k act k') (sound : k.RunningSound) :
    k'.RunningSound := by
  intro id running
  cases h.moves sound with
  | keep view current _ =>
    rw [view]
    exact sound id (current ▸ running)
  | add other order free view current _ =>
    obtain ⟨o, before⟩ := sound id (current ▸ running)
    refine ⟨o, ?_⟩
    rw [view, Function.update_of_ne, before]
    rintro rfl
    rw [free] at before
    cases before
  | remove other order dormant view current _ =>
    obtain ⟨o, before⟩ := sound id (current ▸ running)
    refine ⟨o, ?_⟩
    rw [view, Function.update_of_ne, before]
    rintro rfl
    rw [dormant] at before
    cases before
  | ready other order state was idle view current _ =>
    obtain ⟨o, before⟩ := sound id (current ▸ running)
    refine ⟨o, ?_⟩
    rw [view, Function.update_of_ne, before]
    rintro rfl
    rw [was] at before
    rcases idle with rfl | ⟨⟨reason, rfl⟩, -⟩ <;> cases before
  | dispatch other order idle ready view current _ =>
    rw [current] at running
    cases running
    exact ⟨order, by rw [view, Function.update_self]⟩
  | preempt _ _ _ _ _ current _ => rw [current] at running; cases running
  | leave _ _ _ _ _ _ _ current _ => rw [current] at running; cases running
  | lose _ _ current _ => rw [current] at running; cases running

theorem Acts.runningSound {L : Act → Prop} (h : Acts L k k')
    (sound : k.RunningSound) : k'.RunningSound :=
  h.preserves sound fun _ _ _ _ does sound => does.runningSound sound

end Kernel

/-- The size a thread waits for on a variable pool is a positive multiple of four. -/
def WaitReason.SizeAligned : WaitReason → Prop
  | .variablePool _ size => 0 < size ∧ size % 4 = 0
  | _ => True

/-- The result of a wait that timed out. -/
def WaitReason.expiry (reason : WaitReason) : ℤ :=
  if reason = .delay then 0 else KernelError.releaseWait.code

/-! ### The acts each operation allows -/

/-- The object an operation names. -/
def Op.target : Op → Option Obj
  | .deleteSemaphore id | .waitSemaphore id _ | .pollSemaphore id | .signalSemaphore id =>
    some (.semaphore id)
  | .deleteEventFlag id | .waitEventFlag id _ _ _ | .pollEventFlag id _ _ | .setEventFlag id _
  | .clearEventFlag id _ => some (.eventFlag id)
  | .deleteMessageBox id | .sendMessage id _ | .receiveMessage id _ | .pollMessage id =>
    some (.messageBox id)
  | .deleteFixedPool id | .allocateFixed id _ | .freeFixed id _ => some (.fixedPool id)
  | .deleteVariablePool id | .allocateVariable id _ _ | .freeVariable id _ =>
    some (.variablePool id)
  | _ => none

/-- Whether an operation can block its caller. -/
def Op.blocks : Op → Bool
  | .waitModuleStart _ | .sleepCurrent | .delayCurrent _ | .waitVblank _ | .waitSemaphore _ _
  | .waitEventFlag _ _ _ _ | .receiveMessage _ _ | .allocateFixed _ _ | .allocateVariable _ _ _ =>
    true
  | _ => false

/-- Whether an operation ends waits on objects it does not name. -/
def Op.releases : Op → Bool
  | .releaseWait _ | .advanceTo _ | .deleteSemaphore _ | .deleteEventFlag _ | .deleteMessageBox _
  | .deleteFixedPool _ | .deleteVariablePool _ => true
  | _ => false

/-- Whether an operation creates an object. -/
def Op.creates : Op → Bool
  | .createSemaphore _ | .createEventFlag _ | .createMessageBox _ | .createFixedPool _ _
  | .createVariablePool _ _ => true
  | _ => false

/-- Whether an operation advances the time. -/
def Op.advances : Op → Bool
  | .advanceTo _ => true
  | _ => false

/-- Whether an operation may take the processor from the running thread. -/
def Op.schedules : Op → Bool
  | .exitCurrent | .exitDeleteCurrent | .reschedule _ => true
  | op => op.blocks

/-- The thread an operation starts. -/
def Op.starts : Op → Option ℕ
  | .startThread id _ | .startThreadWithContext id _ _ => some id
  | _ => none

/-- The wake-ups of an operation: the thread, the wait it ends, and the result and the value the
thread receives. -/
def Op.Answers (op : Op) (k : Kernel) (thread : ℕ) (reason : WaitReason) (result : ℤ)
    (value : Option Word) : Prop :=
  match op with
  | .wakeupThread id => thread = id ∧ reason = .sleep ∧ result = 0 ∧ value = none
  | .completeModuleStart requester child moduleId resident =>
    thread = requester ∧ reason = .moduleStart child ∧ result = moduleId ∧ value = some resident
  | .notifyVblank phase => vblankReason phase = .ok reason ∧ result = 0 ∧ value = none
  | .releaseWait id => thread = id ∧ result = KernelError.releaseWait.code ∧ value = none
  | .signalSemaphore id => reason = .semaphore id ∧ result = 0 ∧ value = none
  | .setEventFlag id _ => ∃ pattern mode bits, reason = .eventFlag id pattern mode ∧
      satisfied bits pattern mode = true ∧ result = 0 ∧ value = some bits
  | .sendMessage id message => reason = .messageBox id ∧ result = 0 ∧ value = some message
  | .freeFixed id address =>
    reason = .fixedPool id ∧ result = 0 ∧ value = some (BitVec.ofNat 32 address)
  | .freeVariable id _ => ∃ size block, reason = .variablePool id size ∧ result = 0 ∧
      value = some (BitVec.ofNat 32 block)
  | .deleteSemaphore _ | .deleteEventFlag _ | .deleteMessageBox _ | .deleteFixedPool _
  | .deleteVariablePool _ => (∃ o waiters, op.target = some o ∧ k.queue? o = some waiters ∧
      thread ∈ waiters) ∧ result = KernelError.waitDeleted.code ∧ value = none
  | .advanceTo _ => result = reason.expiry ∧ value = none
  | _ => False

/-- The acts a call of an operation can perform. -/
def Op.Allows (op : Op) : Act → Prop
  | .touch o => op.target = some o
  | .create _ => op.creates
  | .unqueue _ => op.releases
  | .wake _ reason _ _ => op.blocks = false ∧
      (op.releases = true ∨ reason.object = none ∨ reason.object = op.target)
  | .block _ reason => op.blocks = true ∧ reason.object = op.target ∧ reason.SizeAligned
  | .cancelAlarm id => op = .cancelAlarm id
  | .pop | .fire | .clock => op.advances
  | _ => True

/-- The acts a call of an operation in a state can perform, with what its wake-ups deliver. -/
def Op.Performs (op : Op) (k : Kernel) : Act → Prop
  | .wake thread reason result value => op.Allows (.wake thread reason result value) ∧
      op.Answers k thread reason result value
  | .start id => op.starts = some id
  | .exit id => op.Allows (.exit id) ∧ op.schedules
  | .erase id => op.Allows (.erase id) ∧ op.schedules
  | .block id reason => op.Allows (.block id reason) ∧ op.schedules
  | .preempt => op.schedules
  | .lose => op.schedules
  | .dispatch => op.schedules
  | .save => op.schedules
  | act => op.Allows act

theorem Op.Performs.allows {op : Op} {k : Kernel} {act : Act} (h : op.Performs k act) :
    op.Allows act := by
  cases act <;> first | exact h | exact h.1 | exact trivial

end Upse
