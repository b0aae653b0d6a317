import Upse.Bios.Kernel.Frames

/-!
# Waits and polls

A wait or a poll takes what its object holds, when that satisfies it at once.  Otherwise a poll fails,
and the five waits share one path: the caller is queued, its deadline is computed, and it blocks.
-/

namespace Upse

open ErrorState Kernel

/-- Whether an operation waits on an object. -/
def Op.waitsOnObject : Op → Bool
  | .waitSemaphore _ _ | .waitEventFlag _ _ _ _ | .receiveMessage _ _ | .allocateFixed _ _
  | .allocateVariable _ _ _ => true
  | _ => false

/-- Whether an operation takes what its object holds. -/
def Op.takes : Op → Bool
  | .pollSemaphore _ | .pollEventFlag _ _ _ | .pollMessage _ => true
  | op => op.waitsOnObject

/-- The timeout of a wait on an object. -/
def Op.timeout : Op → Option Ticks
  | .waitSemaphore _ timeout | .waitEventFlag _ _ _ timeout | .receiveMessage _ timeout
  | .allocateFixed _ timeout | .allocateVariable _ _ timeout => timeout
  | _ => none

/-- The reason the caller of an operation waits for when it must wait. -/
def Op.WaitsFor : Op → WaitReason → Prop
  | .waitSemaphore id _, reason => reason = .semaphore id
  | .waitEventFlag id pattern mode _, reason => reason = .eventFlag id pattern mode
  | .receiveMessage id _, reason => reason = .messageBox id
  | .allocateFixed id _, reason => reason = .fixedPool id
  | .allocateVariable id size _, reason =>
    ∃ aligned, alignPoolSize size = .ok aligned ∧ reason = .variablePool id aligned
  | _, _ => False

theorem Op.WaitsFor.object {op : Op} {reason : WaitReason} (h : op.WaitsFor reason) :
    reason.object = op.target := by
  cases op with
  | allocateVariable =>
    obtain ⟨_, -, rfl⟩ := h
    rfl
  | waitSemaphore | waitEventFlag | receiveMessage | allocateFixed => cases h; rfl
  | _ => exact h.elim

namespace Kernel

/-- The arguments of a wait are valid and its object cannot satisfy it at once. -/
def MustWait (k : Kernel) : Op → Prop
  | .waitSemaphore id _ => ∃ semaphore, k.semaphores.get id = some semaphore ∧ semaphore.count = 0
  | .waitEventFlag id pattern mode _ => validateEventWait pattern mode = .ok () ∧
      ∃ event, k.eventFlags.get id = some event ∧ satisfied event.bits pattern mode = false ∧
        ¬ (event.attributes &&& 2 = 0 ∧ event.waiters ≠ [])
  | .receiveMessage id _ => ∃ box, k.messageBoxes.get id = some box ∧ box.messages = []
  | .allocateFixed id _ => ∃ pool, k.fixedPools.get id = some pool ∧ pool.free = []
  | .allocateVariable id size _ => ∃ aligned pool, alignPoolSize size = .ok aligned ∧
      k.variablePools.get id = some pool ∧ allocateRegion pool aligned = none
  | _ => False

/-- A timeout of this length cannot be armed: the deadline or the sequence number does not fit. -/
def CannotArm (k : Kernel) (ticks : Ticks) : Prop :=
  2 ^ 64 ≤ k.now + ticks ∨ 2 ^ 64 ≤ k.scheduler.nextSequence + 1

end Kernel

/-- The common path of a wait that cannot be satisfied at once. -/
def enqueueAndBlock (enqueue : Kernel → Kernel) (timeout : Option Ticks) (context : CpuContext)
    (reason : WaitReason) : KernelM (ScheduleAction × CpuContext) := do
  modify enqueue
  let deadline ← waitDeadline timeout
  blockCurrent context reason deadline

variable {k : Kernel}

/-! ### The common path -/

theorem arm_of_fits (k : Kernel) (id : ℕ) (deadline : Deadline)
    (fits : k.scheduler.nextSequence + 1 < 2 ^ 64) :
    ∃ scheduler, k.arm id (some deadline) = .ok scheduler :=
  Scheduler.schedule_ok (waitEvent id) deadline fits

variable {enqueue : Kernel → Kernel} {id : ℕ} {timeout : Option Ticks}

theorem enqueueAndBlock_armed
    (core : (enqueue k).core = k.core) (sound : k.RunningSound) (running : k.currentThread = some id)
    (arms : ∀ ticks, timeout = some ticks → ¬ k.CannotArm ticks) (context : CpuContext)
    (reason : WaitReason) : ∃ context' scheduler,
      k.arm id (timeout.map (k.now + ·)) = .ok scheduler ∧
      (enqueueAndBlock enqueue timeout context reason).run k =
        .ok (freshAction ((enqueue k).block id context reason scheduler) (some id), context')
          ((enqueue k).block id context reason scheduler).dispatchBest := by
  have running' : (enqueue k).currentThread = some id :=
    (congrArg Kernel.currentThread core :).trans running
  obtain ⟨thread, found, -⟩ := sound.found running
  have found' : (enqueue k).threads.get id = some thread :=
    (congrArg (·.threads.get id) core :).trans found
  have now : (enqueue k).now = k.now := (congrArg Kernel.now core :)
  have same : (enqueue k).scheduler = k.scheduler := (congrArg Kernel.scheduler core :)
  have armed : ∃ scheduler, k.arm id (timeout.map (k.now + ·)) = .ok scheduler ∧
      (waitDeadline timeout).run (enqueue k) = .ok (timeout.map (k.now + ·)) (enqueue k) := by
    cases timeout with
    | none => exact ⟨_, rfl, waitDeadline_none⟩
    | some ticks =>
      have fits := arms ticks rfl
      rw [CannotArm, not_or, not_le, not_le] at fits
      obtain ⟨s, armed⟩ := arm_of_fits k id (k.now + ticks) fits.2
      refine ⟨s, armed, ?_⟩
      rw [waitDeadline_of_lt (by rw [now]; exact fits.1), now]
      rfl
  obtain ⟨scheduler, armed, computed⟩ := armed
  have armed' : (enqueue k).arm id (timeout.map (k.now + ·)) = .ok scheduler := by
    rw [← armed]
    cases timeout.map (k.now + ·) with
    | none => exact congrArg Except.ok same
    | some deadline => exact congrArg (·.schedule (waitEvent id) deadline) same
  have blocked := blockCurrent_of_armed running' found' armed' context reason
  refine ⟨freshContext ((enqueue k).block id context reason scheduler) context, scheduler, armed, ?_⟩
  simp only [enqueueAndBlock, run_bind, run_modify, computed, blocked]

theorem enqueueAndBlock_ok
    (core : (enqueue k).core = k.core) (sound : k.RunningSound) (running : k.currentThread = some id)
    (arms : ∀ ticks, timeout = some ticks → ¬ k.CannotArm ticks) (context : CpuContext)
    (reason : WaitReason) : ∃ context' scheduler,
      (enqueueAndBlock enqueue timeout context reason).run k =
        .ok (freshAction ((enqueue k).block id context reason scheduler) (some id), context')
          ((enqueue k).block id context reason scheduler).dispatchBest := by
  obtain ⟨context', scheduler, -, run⟩ :=
    enqueueAndBlock_armed core sound running arms context reason
  exact ⟨context', scheduler, run⟩

theorem enqueueAndBlock_error {ticks : Ticks}
    (core : (enqueue k).core = k.core) (sound : k.RunningSound) (running : k.currentThread = some id)
    (cannot : k.CannotArm ticks) (context : CpuContext) (reason : WaitReason) : ∃ e k',
      (enqueueAndBlock enqueue (some ticks) context reason).run k = .error e k' ∧
        ∀ o, k'.record? o = (enqueue k).record? o := by
  have now : (enqueue k).now = k.now := (congrArg Kernel.now core :)
  have scheduler : (enqueue k).scheduler = k.scheduler := (congrArg Kernel.scheduler core :)
  have running' : (enqueue k).currentThread = some id :=
    (congrArg Kernel.currentThread core :).trans running
  obtain ⟨thread, found, -⟩ := sound.found running
  have found' : (enqueue k).threads.get id = some thread :=
    (congrArg (·.threads.get id) core :).trans found
  by_cases fits : k.now + ticks < 2 ^ 64
  · have full : 2 ^ 64 ≤ (enqueue k).scheduler.nextSequence + 1 := by
      rw [scheduler]
      exact cannot.resolve_left (not_le.mpr fits)
    have unarmed : (enqueue k).arm id (some ((enqueue k).now + ticks)) =
        .error .sequenceExhausted := Scheduler.schedule_eq_error full
    refine ⟨.kernel .noMemory, (enqueue k).block id context reason (enqueue k).scheduler, ?_, ?_⟩
    · simp only [enqueueAndBlock, run_bind, run_modify,
        waitDeadline_of_lt (k := enqueue k) (by rw [now]; exact fits),
        blockCurrent_of_unarmed running' found' unarmed context reason]
    · intro o
      cases o <;> rfl
  · refine ⟨.clock .overflow, enqueue k, ?_, fun _ => rfl⟩
    simp only [enqueueAndBlock, run_bind, run_modify,
      waitDeadline_of_le (k := enqueue k) (by rw [now]; exact not_lt.mp fits)]

/-! ### The five waits -/

/-- The caller joins the queue of an object. -/
def Kernel.Enqueues (k k' : Kernel) (id : ℕ) (o : Obj) : Prop :=
  k'.core = k.core ∧ (∀ o', o' ≠ o → k'.record? o' = k.record? o') ∧
    ∃ r waiters, k.record? o = some r ∧ k'.record? o = some (r.withWaiters waiters) ∧
      waiters.Perm (id :: r.waiters)

theorem Kernel.Enqueues.touch {k k' : Kernel} {o : Obj} (h : k.Enqueues k' id o) :
    k.Does (.touch o) k' := by
  obtain ⟨core, others, r, waiters, found, -⟩ := h
  exact .touch core (fun dead => by rw [found] at dead; cases dead) others

/-- The attributes of an object. -/
def ObjRecord.attributes : ObjRecord → Word
  | .semaphore value => value.attributes
  | .eventFlag value => value.attributes
  | .messageBox value => value.attributes
  | .fixedPool value => value.attributes
  | .variablePool value => value.attributes

/-- The caller joins the queue of an object at the place its attributes ask for. -/
def Kernel.Inserts (k k' : Kernel) (id : ℕ) (o : Obj) : Prop :=
  k'.core = k.core ∧ (∀ o', o' ≠ o → k'.record? o' = k.record? o') ∧
    ∃ r, k.record? o = some r ∧
      k'.record? o = some (r.withWaiters (insertWaiter r.waiters id r.attributes k.threads))

theorem Kernel.Inserts.enqueues {k k' : Kernel} {o : Obj} (h : k.Inserts k' id o) :
    k.Enqueues k' id o := by
  obtain ⟨core, others, r, found, after⟩ := h
  exact ⟨core, others, r, _, found, after, insertWaiter_perm _ _ _ _⟩

/-- Queues a thread on a semaphore. -/
def Kernel.enqueueSemaphore (k : Kernel) (id thread : ℕ) : Kernel :=
  k.modifySemaphore id fun value =>
    { value with waiters := insertWaiter value.waiters thread value.attributes k.threads }

/-- Queues a thread on an event flag. -/
def Kernel.enqueueEventFlag (k : Kernel) (id thread : ℕ) : Kernel :=
  k.modifyEventFlag id fun value =>
    { value with waiters := insertWaiter value.waiters thread (value.attributes &&& 1) k.threads }

/-- Queues a thread on a message box. -/
def Kernel.enqueueMessageBox (k : Kernel) (id thread : ℕ) : Kernel :=
  k.modifyMessageBox id fun value =>
    { value with waiters := insertWaiter value.waiters thread value.attributes k.threads }

/-- Queues a thread on a fixed pool. -/
def Kernel.enqueueFixedPool (k : Kernel) (id thread : ℕ) : Kernel :=
  k.modifyFixedPool id fun value =>
    { value with waiters := insertWaiter value.waiters thread value.attributes k.threads }

/-- Queues a thread on a variable pool. -/
def Kernel.enqueueVariablePool (k : Kernel) (id thread : ℕ) : Kernel :=
  k.modifyVariablePool id fun value =>
    { value with waiters := insertWaiter value.waiters thread value.attributes k.threads }

theorem insertWaiter_masked {N : ℕ} (waiters : List ℕ) (thread : ℕ) (attributes : Word)
    (threads : FixedTable Thread N 1) :
    insertWaiter waiters thread (attributes &&& 1) threads =
      insertWaiter waiters thread attributes threads := by
  unfold insertWaiter
  rw [BitVec.and_assoc, BitVec.and_self]

theorem inserts_semaphore {value : Semaphore} (found : k.semaphores.get id = some value)
    (thread : ℕ) : k.Inserts (k.enqueueSemaphore id thread) thread (.semaphore id) := by
  refine ⟨rfl, fun o' ne => (record?_modifySemaphore k id _ o').trans (if_neg ne), .semaphore value, ?_, ?_⟩
  · simp [record?, found]
  · exact (record?_modifySemaphore k id _ _).trans (by rw [if_pos rfl, found]; rfl)

theorem inserts_eventFlag {value : EventFlag} (found : k.eventFlags.get id = some value)
    (thread : ℕ) : k.Inserts (k.enqueueEventFlag id thread) thread (.eventFlag id) := by
  refine ⟨rfl, fun o' ne => (record?_modifyEventFlag k id _ o').trans (if_neg ne), .eventFlag value, ?_, ?_⟩
  · simp [record?, found]
  · refine (record?_modifyEventFlag k id _ _).trans ?_
    rw [if_pos rfl, found, Option.map_some, insertWaiter_masked]
    rfl

theorem inserts_messageBox {value : MessageBox} (found : k.messageBoxes.get id = some value)
    (thread : ℕ) : k.Inserts (k.enqueueMessageBox id thread) thread (.messageBox id) := by
  refine ⟨rfl, fun o' ne => (record?_modifyMessageBox k id _ o').trans (if_neg ne), .messageBox value, ?_, ?_⟩
  · simp [record?, found]
  · exact (record?_modifyMessageBox k id _ _).trans (by rw [if_pos rfl, found]; rfl)

theorem inserts_fixedPool {value : FixedPool} (found : k.fixedPools.get id = some value)
    (thread : ℕ) : k.Inserts (k.enqueueFixedPool id thread) thread (.fixedPool id) := by
  refine ⟨rfl, fun o' ne => (record?_modifyFixedPool k id _ o').trans (if_neg ne), .fixedPool value, ?_, ?_⟩
  · simp [record?, found]
  · exact (record?_modifyFixedPool k id _ _).trans (by rw [if_pos rfl, found]; rfl)

theorem inserts_variablePool {value : VariablePool} (found : k.variablePools.get id = some value)
    (thread : ℕ) : k.Inserts (k.enqueueVariablePool id thread) thread (.variablePool id) := by
  refine ⟨rfl, fun o' ne => (record?_modifyVariablePool k id _ o').trans (if_neg ne), .variablePool value, ?_, ?_⟩
  · simp [record?, found]
  · exact (record?_modifyVariablePool k id _ _).trans (by rw [if_pos rfl, found]; rfl)

theorem run_blocking {α β : Type} {m : KernelM (α × CpuContext)}
    {context : CpuContext} {reason : WaitReason} (f : ScheduleAction → α)
    (g : α × CpuContext → β)
    (run : m.run k = (do
      modify enqueue
      let deadline ← waitDeadline timeout
      let (action, context) ← blockCurrent context reason deadline
      return (f action, context) : KernelM (α × CpuContext)).run k) :
    (g <$> m).run k =
      ((fun r => g (f r.1, r.2)) <$> enqueueAndBlock enqueue timeout context reason).run k := by
  rw [run_map, run]
  simp only [enqueueAndBlock, run_map, run_bind, run_modify]
  cases (waitDeadline timeout).run (enqueue k) with
  | error e k' => rfl
  | ok deadline k' =>
    dsimp only
    cases (blockCurrent context reason deadline).run k' <;> rfl

/-- A call that must wait inserts its caller into the queue it names and takes the common path. -/
theorem step_inserts_of_mustWait {op : Op} (running : k.currentThread = some id)
    (waits : k.MustWait op) (context : CpuContext) : ∃ enqueue reason o,
      op.target = some o ∧ op.WaitsFor reason ∧ k.Inserts (enqueue k) id o ∧
      (step op context).run k = ((fun result => (Reply.action result.1, result.2)) <$>
        enqueueAndBlock enqueue op.timeout context reason).run k := by
  cases op with
  | waitSemaphore o timeout =>
    obtain ⟨semaphore, found, zero⟩ := waits
    refine ⟨(·.enqueueSemaphore o id), .semaphore o, _, rfl, rfl, inserts_semaphore found id,
      run_blocking some _ ?_⟩
    simp only [waitSemaphore, run_bind, run_get, found, orFail, run_okOr_some, zero,
      running, ne_eq, not_true_eq_false, if_false]
    rfl
  | waitEventFlag o pattern mode timeout =>
    obtain ⟨valid, event, found, unsatisfied, accepts⟩ := waits
    refine ⟨(·.enqueueEventFlag o id), .eventFlag o pattern mode, _, rfl, rfl,
      inserts_eventFlag found id, run_blocking Sum.inr _ ?_⟩
    simp only [waitEventFlag, run_bind, run_get, found, orFail, run_okOr_some,
      running, check, valid, run_pure, consumeEventBits_of_unsatisfied unsatisfied, failIf,
      accepts, if_false]
    rfl
  | receiveMessage o timeout =>
    obtain ⟨box, found, empty⟩ := waits
    refine ⟨(·.enqueueMessageBox o id), .messageBox o, _, rfl, rfl, inserts_messageBox found id,
      run_blocking Sum.inr _ ?_⟩
    simp only [receiveMessage, run_bind, run_get, found, orFail, run_okOr_some,
      running, empty]
    rfl
  | allocateFixed o timeout =>
    obtain ⟨pool, found, empty⟩ := waits
    refine ⟨(·.enqueueFixedPool o id), .fixedPool o, _, rfl, rfl, inserts_fixedPool found id,
      run_blocking Sum.inr _ ?_⟩
    simp only [allocateFixed, run_bind, run_get, found, orFail, run_okOr_some,
      running, empty]
    rfl
  | allocateVariable o size timeout =>
    obtain ⟨aligned, pool, valid, found, full⟩ := waits
    refine ⟨(·.enqueueVariablePool o id), .variablePool o aligned, _, rfl, ⟨aligned, valid, rfl⟩,
      inserts_variablePool found id, run_blocking Sum.inr _ ?_⟩
    simp only [allocateVariable, run_bind, run_get, check, valid, run_pure,
      found, orFail, run_okOr_some, running, full]
    rfl
  | _ => exact waits.elim

theorem step_of_mustWait {op : Op} (running : k.currentThread = some id)
    (waits : k.MustWait op) (context : CpuContext) : ∃ enqueue reason o,
      op.target = some o ∧ op.WaitsFor reason ∧ k.Enqueues (enqueue k) id o ∧
      (step op context).run k = ((fun result => (Reply.action result.1, result.2)) <$>
        enqueueAndBlock enqueue op.timeout context reason).run k := by
  obtain ⟨enqueue, reason, o, target, reasons, inserts, run⟩ :=
    step_inserts_of_mustWait running waits context
  exact ⟨enqueue, reason, o, target, reasons, inserts.enqueues, run⟩

/-! ### Taking what an object holds -/

namespace Kernel

/-- Takes one count of a semaphore. -/
def takeCount (k : Kernel) (id : ℕ) : Kernel :=
  k.modifySemaphore id fun semaphore => { semaphore with count := semaphore.count - 1 }

/-- Takes the bits a satisfied wait consumes. -/
def takeBits (k : Kernel) (id : ℕ) (pattern mode : Word) : Kernel :=
  k.modifyEventFlag id fun event => { event with bits := consumedBits event.bits pattern mode }

/-- Leaves a message box with the messages after the first one. -/
def takeMessage (k : Kernel) (id : ℕ) (messages : List Word) : Kernel :=
  k.modifyMessageBox id fun messageBox => { messageBox with messages := messages }

/-- Leaves a fixed pool with the free blocks after the first one, which becomes allocated. -/
def takeBlock (k : Kernel) (id address : ℕ) (free : List ℕ) : Kernel :=
  k.modifyFixedPool id fun pool =>
    { pool with free := free, allocated := pool.allocated.insert address }

/-- What an operation returns and leaves when its object can satisfy it at once. -/
inductive Takes (k : Kernel) : Op → Reply → Kernel → Prop
  | waitSemaphore {id : ℕ} {timeout : Option Ticks} {semaphore : Semaphore} :
      k.semaphores.get id = some semaphore → semaphore.count ≠ 0 →
      Takes k (.waitSemaphore id timeout) .acquired (k.takeCount id)
  | pollSemaphore {id : ℕ} {semaphore : Semaphore} :
      k.semaphores.get id = some semaphore → semaphore.count ≠ 0 →
      Takes k (.pollSemaphore id) .done (k.takeCount id)
  | waitEventFlag {id : ℕ} {pattern mode : Word} {timeout : Option Ticks} {event : EventFlag} :
      k.eventFlags.get id = some event → satisfied event.bits pattern mode = true →
      Takes k (.waitEventFlag id pattern mode timeout) (.word event.bits)
        (k.takeBits id pattern mode)
  | pollEventFlag {id : ℕ} {pattern mode : Word} {event : EventFlag} :
      k.eventFlags.get id = some event → satisfied event.bits pattern mode = true →
      Takes k (.pollEventFlag id pattern mode) (.word event.bits) (k.takeBits id pattern mode)
  | receiveMessage {id : ℕ} {timeout : Option Ticks} {messageBox : MessageBox} {message : Word}
      {messages : List Word} :
      k.messageBoxes.get id = some messageBox → messageBox.messages = message :: messages →
      Takes k (.receiveMessage id timeout) (.word message) (k.takeMessage id messages)
  | pollMessage {id : ℕ} {messageBox : MessageBox} {message : Word} {messages : List Word} :
      k.messageBoxes.get id = some messageBox → messageBox.messages = message :: messages →
      Takes k (.pollMessage id) (.word message) (k.takeMessage id messages)
  | allocateFixed {id : ℕ} {timeout : Option Ticks} {pool : FixedPool} {address : ℕ}
      {free : List ℕ} :
      k.fixedPools.get id = some pool → pool.free = address :: free →
      Takes k (.allocateFixed id timeout) (.number address) (k.takeBlock id address free)
  | allocateVariable {id size aligned address : ℕ} {timeout : Option Ticks}
      {pool pool' : VariablePool} :
      k.variablePools.get id = some pool → alignPoolSize size = .ok aligned →
      allocateRegion pool aligned = some (address, pool') →
      Takes k (.allocateVariable id size timeout) (.number address)
        (k.modifyVariablePool id fun _ => pool')

theorem Takes.reply_ne {k' : Kernel} {op : Op} {reply : Reply} (h : k.Takes op reply k')
    (action : ScheduleAction) : reply ≠ .action action := by
  cases h <;> exact Reply.noConfusion

end Kernel

/-- A wait or poll that does not queue its caller fails without a trace, or is satisfied at once. -/
theorem settles_takes {op : Op} (takes : op.takes = true)
    (ready : k.currentThread ≠ none → ¬ k.MustWait op) (context : CpuContext) :
    Settles (fun result k' => result.2 = context ∧ k.Takes op result.1 k') k (step op context) := by
  have idle {id : ℕ} (running : k.currentThread = some id) : ¬ k.MustWait op :=
    ready (running ▸ Option.some_ne_none id)
  cases op with
  | waitSemaphore o timeout =>
    refine .map _ (settles_get_bind (settles_orFail_bind fun semaphore found => ?_))
    by_cases zero : semaphore.count = 0
    · rw [if_neg (not_not.mpr zero)]
      exact settles_get_bind (settles_orFail_bind fun id running =>
        absurd ⟨semaphore, found, zero⟩ (idle running))
    · rw [if_pos zero]
      exact .inr ⟨_, _, rfl, rfl, .waitSemaphore found zero⟩
  | pollSemaphore o =>
    refine .map _ (settles_get_bind (settles_orFail_bind fun semaphore found => ?_))
    exact settles_failIf_bind fun zero => .inr ⟨_, _, rfl, rfl, .pollSemaphore found zero⟩
  | waitEventFlag o pattern mode timeout =>
    refine .map _ (settles_check_bind fun _ valid => settles_get_bind (settles_orFail_bind fun id running =>
      settles_get_bind (settles_orFail_bind fun event found => ?_)))
    cases holds : satisfied event.bits pattern mode with
    | true =>
      exact .inr ⟨_, _, run_bind_of_ok (consumeEventBits_of_satisfied holds), rfl,
        .waitEventFlag found holds⟩
    | false =>
      refine settles_bind_of_ok (consumeEventBits_of_unsatisfied holds) (settles_failIf_bind fun accepts => ?_)
      exact absurd ⟨valid, event, found, holds, accepts⟩ (idle running)
  | pollEventFlag o pattern mode =>
    refine .map _ (settles_check_bind fun _ valid => settles_get_bind (settles_orFail_bind fun event found => ?_))
    cases holds : satisfied event.bits pattern mode with
    | true =>
      exact .inr ⟨_, _, run_bind_of_ok (consumeEventBits_of_satisfied holds), rfl,
        .pollEventFlag found holds⟩
    | false => exact settles_bind_of_ok (consumeEventBits_of_unsatisfied holds) (.inl ⟨_, rfl⟩)
  | receiveMessage o timeout =>
    refine .map _ (settles_get_bind (settles_orFail_bind fun id running =>
      settles_get_bind (settles_orFail_bind fun box found => ?_)))
    cases messages : box.messages with
    | nil => exact absurd ⟨box, found, messages⟩ (idle running)
    | cons => exact .inr ⟨_, _, rfl, rfl, .receiveMessage found messages⟩
  | pollMessage o =>
    refine .map _ (settles_get_bind (settles_orFail_bind fun box found => ?_))
    cases messages : box.messages with
    | nil => exact .inl ⟨_, rfl⟩
    | cons => exact .inr ⟨_, _, rfl, rfl, .pollMessage found messages⟩
  | allocateFixed o timeout =>
    refine .map _ (settles_get_bind (settles_orFail_bind fun id running =>
      settles_get_bind (settles_orFail_bind fun pool found => ?_)))
    cases free : pool.free with
    | nil => exact absurd ⟨pool, found, free⟩ (idle running)
    | cons => exact .inr ⟨_, _, rfl, rfl, .allocateFixed found free⟩
  | allocateVariable o size timeout =>
    refine .map _ (settles_check_bind fun aligned valid => settles_get_bind (settles_orFail_bind
      fun id running => settles_get_bind (settles_orFail_bind fun pool found => ?_)))
    cases region : allocateRegion pool aligned with
    | none => exact absurd ⟨aligned, pool, valid, found, region⟩ (idle running)
    | some => exact .inr ⟨_, _, rfl, rfl, .allocateVariable found valid region⟩
  | _ => cases takes

/-- A call that may wait must wait, fails and changes nothing, or takes what is there. -/
theorem step_takes {op : Op} (takes : op.takes = true) (context : CpuContext) :
    (∃ id, k.currentThread = some id ∧ k.MustWait op) ∨
      (∃ e, (step op context).run k = .error e k) ∨
      ∃ reply k', (step op context).run k = .ok (reply, context) k' ∧ k.Takes op reply k' := by
  by_cases blocked : k.currentThread ≠ none ∧ k.MustWait op
  · obtain ⟨id, running⟩ := Option.ne_none_iff_exists'.mp blocked.1
    exact .inl ⟨id, running, blocked.2⟩
  · obtain failed | ⟨⟨reply, _⟩, k', run, rfl, taken⟩ := settles_takes takes (not_and.mp blocked) context
    · exact .inr (.inl failed)
    · exact .inr (.inr ⟨reply, k', run, taken⟩)

theorem Op.takes_of_waitsOnObject {op : Op} (object : op.waitsOnObject = true) :
    op.takes = true := by
  cases op <;> first | rfl | exact object

theorem Kernel.Enqueues.record_ne {k k' : Kernel} {id : ℕ} {o : Obj} (h : k.Enqueues k' id o) :
    k'.record? o ≠ k.record? o := by
  obtain ⟨-, -, r, waiters, before, after, perm⟩ := h
  rw [before, after]
  intro same
  have queues := congrArg ObjRecord.waiters (Option.some.inj same)
  rw [ObjRecord.waiters_withWaiters] at queues
  have longer := perm.length_eq
  rw [queues, List.length_cons] at longer
  omega

theorem step_inserts (sound : k.RunningSound) {op : Op} {id : ℕ} (running : k.currentThread = some id)
    (waits : k.MustWait op) (context : CpuContext) : ∃ k' reason o,
      op.target = some o ∧ op.WaitsFor reason ∧ k.Inserts k' id o ∧
      (∀ o', (leaves ((step op context).run k)).record? o' = k'.record? o') ∧
      ∀ thread reason', (leaves ((step op context).run k)).waitReasonOf thread = some reason' →
        k.waitReasonOf thread = some reason' ∨ reason' = reason := by
  obtain ⟨enqueue, reason, o, target, reasons, inserts, run⟩ :=
    step_inserts_of_mustWait running waits context
  have enqueues := inserts.enqueues
  refine ⟨enqueue k, reason, o, target, reasons, inserts, fun o' => ?_, fun thread reason' waiting => ?_⟩
  · by_cases arms : ∀ ticks, op.timeout = some ticks → ¬ k.CannotArm ticks
    · obtain ⟨context', scheduler, returned⟩ :=
        enqueueAndBlock_ok enqueues.1 sound running arms context reason
      rw [run, run_map, returned]
      simp only [leaves_ok, record?_dispatchBest, record?_block]
    · push Not at arms
      obtain ⟨ticks, timeout, cannot⟩ := arms
      obtain ⟨e, k', failed, records⟩ :=
        enqueueAndBlock_error enqueues.1 sound running cannot context reason
      rw [run, run_map, timeout, failed]
      exact records o'
  · have acts : Leads (Acts fun act => ∀ id' r, act = .block id' r → r = reason) k
        (enqueueAndBlock enqueue op.timeout context reason) := by
      unfold enqueueAndBlock
      refine leads_modify_bind (enqueues.touch.acts fun _ _ h => by cases h) ?_
      refine leads_waitDeadline_bind fun deadline => ?_
      exact acts_blockCurrent (enqueues.touch.runningSound sound)
        (fun _ _ _ h => by cases h; rfl) (fun _ _ h => by cases h)
    rw [run] at waiting
    exact ((acts.map _).wait_origin waiting).imp_right fun allowed => allowed _ _ rfl

theorem step_enqueues (sound : k.RunningSound) {op : Op} {id : ℕ} (running : k.currentThread = some id)
    (waits : k.MustWait op) (context : CpuContext) : ∃ k' reason o,
      op.target = some o ∧ op.WaitsFor reason ∧ k.Enqueues k' id o ∧
      (∀ o', (leaves ((step op context).run k)).record? o' = k'.record? o') ∧
      ∀ thread reason', (leaves ((step op context).run k)).waitReasonOf thread = some reason' →
        k.waitReasonOf thread = some reason' ∨ reason' = reason := by
  obtain ⟨k', reason, o, target, reasons, inserts, rest⟩ := step_inserts sound running waits context
  exact ⟨k', reason, o, target, reasons, inserts.enqueues, rest⟩

theorem step_enqueues_record (sound : k.RunningSound) {op : Op} {id : ℕ} (running : k.currentThread = some id)
    (waits : k.MustWait op) (context : CpuContext) {o : Obj} (named : op.target = some o) :
    ∃ r waiters, k.record? o = some r ∧
      (leaves ((step op context).run k)).record? o = some (r.withWaiters waiters) := by
  obtain ⟨k', reason, o', target, -, ⟨-, -, r, waiters, before, after, -⟩, records, -⟩ :=
    step_enqueues sound running waits context
  cases named.symm.trans target
  exact ⟨r, waiters, before, (records o).trans after⟩

end Upse
