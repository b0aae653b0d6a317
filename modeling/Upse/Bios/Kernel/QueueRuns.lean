import Upse.Bios.Kernel.QueueCalls

/-!
# Agreement of threads, queues and timeouts over whole runs

A call keeps the queues exact while no counter is exhausted and no timeout overflows, and so does a
whole run.  The current thread is then the only running one, a timeout is armed only for the wait it
was armed with, and no thread waits for something that is already there.
-/

namespace Upse

open ErrorState Kernel WaitQueues

variable {k k' : Kernel} {op : Op} {context : CpuContext}

/-! ### Counters -/

theorem step_counters (sound : k.RunningSound) (lives : op ≠ .reset) (context : CpuContext) :
    k.nextReadyOrder ≤ (leaves ((step op context).run k)).nextReadyOrder ∧
      k.scheduler.nextSequence ≤ (leaves ((step op context).run k)).scheduler.nextSequence := by
  have all := (step_acts sound lives context).preserves (I := fun a => a.RunningSound ∧
    k.nextReadyOrder ≤ a.nextReadyOrder ∧ k.scheduler.nextSequence ≤ a.scheduler.nextSequence)
    ⟨sound, le_rfl, le_rfl⟩ ?_
  · exact all.2
  · rintro a b act - does ⟨sound, order, sequence⟩
    exact ⟨does.runningSound sound, order.trans (does.order_le sound), sequence.trans does.sequence_le⟩

/-! ### One call -/

theorem creates_exact (creates : op.creates = true) (exact_ : k.ExactQueues) (context : CpuContext) :
    (leaves ((step op context).run k)).ExactQueues := by
  rcases step_creates (k := k) creates context with ⟨e, failed⟩ | ⟨id, o, r, k', run, new, adds⟩
  · rw [failed]
    exact exact_
  · have waiters : r.waiters = [] := by cases new <;> rfl
    rw [run, leaves_ok]
    exact exact_.emptied (queue_of_dead adds.dead) adds.added waiters adds.core adds.others

/-- No counter is exhausted after a call, and its timeout does not overflow. -/
def Call.Clean (call : Call) : Prop :=
  ¬ call.after.Exhausted ∧
    ∀ ticks, call.op.timeout = some ticks → call.before.now + ticks < 2 ^ 64

theorem exactQueues_new : Kernel.new.ExactQueues := by
  have waits : Kernel.new.waitsFor = fun _ => none := by
    funext id
    simp [waitsFor, Kernel.waitReasonOf, Kernel.new]
  have queues : Kernel.new.queue = fun _ => [] := by
    funext o
    cases o <;> simp [Kernel.queue, queue?, record?, Kernel.new]
  rw [ExactQueues, waits, queues]
  exact Exact.empty

theorem step_exactQueues (sound : k.RunningSound) (exact_ : k.ExactQueues) (op : Op)
    (context : CpuContext) (clean : (Call.of k op context).Clean) :
    (leaves ((step op context).run k)).ExactQueues := by
  obtain ⟨fresh, fits⟩ := clean
  have orders : ¬ (leaves ((step op context).run k)).OrdersExhausted := fun full => fresh (.inl full)
  have kept (lives : op ≠ .reset) (h : KeepsExact k (leaves ((step op context).run k))) :
      (leaves ((step op context).run k)).ExactQueues := (h sound).2.2 orders exact_
  have arms (lives : op ≠ .reset) (ticks : Ticks) (timeout : op.timeout = some ticks) :
      ¬ k.CannotArm ticks := by
    have order := (step_counters sound lives context).2
    have sequence : ¬ 2 ^ 64 ≤ (leaves ((step op context).run k)).scheduler.nextSequence + 1 :=
      fun full => fresh (.inr full)
    rw [CannotArm, not_or, not_le, not_le]
    exact ⟨fits ticks timeout, by omega⟩
  by_cases lives : op = .reset
  · rw [lives, reset_run]
    exact exactQueues_new
  by_cases takes : op.takes = true
  · exact takes_exact sound takes exact_ (arms lives) context
  by_cases creates : op.creates = true
  · exact creates_exact creates exact_ context
  by_cases plain : op.target = none ∧ op.releases = false
  · apply kept lives
    apply keepsExact_of_acts (step_acts sound lives context)
    intro act allowed
    exact Op.allows_plain plain.1 plain.2 (Bool.not_eq_true _ ▸ creates) allowed
  cases op with
  | deleteSemaphore | deleteEventFlag | deleteMessageBox | deleteFixedPool | deleteVariablePool =>
    exact deletes_exact rfl exact_ orders
  | releaseWait id =>
    apply kept lives
    show Leads KeepsExact k _
    exact keepsExact_releaseWait.map _
  | advanceTo now =>
    apply kept lives
    show Leads KeepsExact k _
    exact keepsExact_advanceTo.map _
  | signalSemaphore id =>
    simp only [step, leaves_map] at orders ⊢
    exact signalSemaphore_exact exact_ orders
  | sendMessage id message =>
    simp only [step, leaves_map] at orders ⊢
    exact sendMessage_exact exact_ orders
  | freeFixed id address =>
    simp only [step, leaves_map] at orders ⊢
    exact freeFixed_exact exact_ orders
  | setEventFlag id bits =>
    simp only [step, leaves_map] at orders ⊢
    exact setEventFlag_exact exact_ orders
  | clearEventFlag id mask =>
    simp only [step, leaves_map]
    exact clearEventFlag_exact exact_
  | freeVariable id address =>
    simp only [step, leaves_map] at orders ⊢
    exact freeVariable_exact exact_ orders
  | waitSemaphore | pollSemaphore | waitEventFlag | pollEventFlag | receiveMessage | pollMessage
  | allocateFixed | allocateVariable => exact absurd rfl takes
  | createSemaphore | createEventFlag | createMessageBox | createFixedPool | createVariablePool =>
    exact absurd rfl creates
  | reset => exact absurd rfl lives
  | _ => exact absurd ⟨rfl, rfl⟩ plain

/-! ### The running thread and the timeouts -/

namespace Kernel

/-- A thread is in the running state. -/
def Running (k : Kernel) (id : ℕ) : Prop :=
  ∃ thread, k.threads.get id = some thread ∧ thread.state = .running

/-- Only the current thread is in the running state. -/
def RunningUnique (k : Kernel) : Prop :=
  ∀ id order, k.view id = some (.running, order) → k.currentThread = some id

theorem running_iff_view {id : ℕ} : k.Running id ↔ ∃ order, k.view id = some (.running, order) := by
  simp [Running, view_eq_some]

/-- As long as orders are left, no change leaves a running thread that is not the current one. -/
theorem Moves.runningUnique (h : Moves k k') (fresh : ¬ k.OrdersExhausted)
    (unique : k.RunningUnique) : k'.RunningUnique := by
  intro id order running
  have other {id' : ℕ} {v : Option (ThreadState × ℕ)} (view : k'.view = Function.update k.view id' v)
      (ne : ∀ o, v ≠ some (.running, o)) : id ≠ id' ∧ k.currentThread = some id := by
    rw [view, Function.update_apply] at running
    split at running
    · exact absurd running (ne order)
    next differs => exact ⟨differs, unique id order running⟩
  cases h with
  | keep view current _ =>
    rw [current]
    exact unique id order (view ▸ running)
  | add _ _ _ view current _ => exact current.trans (other view (by simp)).2
  | remove _ _ _ view current _ => exact current.trans (other view (by simp)).2
  | ready _ _ _ _ _ view current _ => exact current.trans (other view (by simp)).2
  | preempt id' _ was _ view _ _ =>
    obtain ⟨ne, current⟩ := other view (by simp)
    rw [was] at current
    exact absurd (Option.some.inj current).symm ne
  | leave id' _ next was _ left view _ _ =>
    obtain ⟨ne, current⟩ := other view fun o => (left o).2
    rw [was] at current
    exact absurd (Option.some.inj current).symm ne
  | dispatch id' order' idle _ view current _ =>
    rw [view, Function.update_apply] at running
    split at running
    next same => rw [current, same]
    next =>
      have was := unique id order running
      rw [idle] at was
      cases was
  | lose full _ _ _ => exact absurd full fresh

/-- A timeout that is armed after a call was armed before it for the same wait, or is a new one. -/
def KeepsTimeouts (k k' : Kernel) : Prop :=
  ∀ id entry, k'.scheduler.pending (waitEvent id) = some entry →
    (k.scheduler.pending (waitEvent id) = some entry ∧
      ∀ reason, k.waitReasonOf id = some reason → k'.waitReasonOf id = some reason) ∨
    k.scheduler.nextSequence ≤ entry.2

theorem Acts.keepsTimeouts {L : Act → Prop} (h : Acts L k k') (sound : k.Sound) :
    k.KeepsTimeouts k' := by
  have all : k'.Sound ∧ k.scheduler.nextSequence ≤ k'.scheduler.nextSequence ∧
      k.KeepsTimeouts k' := by
    apply h.preserves (I := fun a => a.Sound ∧
      k.scheduler.nextSequence ≤ a.scheduler.nextSequence ∧ k.KeepsTimeouts a)
    · exact ⟨sound, le_rfl, fun id entry held => .inl ⟨held, fun _ waiting => waiting⟩⟩
    · rintro a b act - does ⟨sound, le, keeps⟩
      refine ⟨does.sound sound, le.trans does.sequence_le, fun id entry held => ?_⟩
      rcases does.pending_origin sound.running held with old | ⟨new, -⟩
      · apply (keeps id entry old).imp_left
        rintro ⟨before, waits⟩
        refine ⟨before, fun reason waiting => ?_⟩
        obtain ⟨order, view⟩ := waitReasonOf_iff_view.mp (waits reason waiting)
        exact waitReasonOf_iff_view.mpr
          ⟨order, (does.moves sound.running).wait_kept view held⟩
      · exact .inr (new ▸ le)
  exact all.2.2

end Kernel

/-- What holds of threads, queues and timeouts in a clean run. -/
structure Kernel.Agrees (k : Kernel) : Prop where
  sound : k.Sound
  unique : k.RunningUnique
  queues : k.ExactQueues

theorem agrees_new : Kernel.new.Agrees where
  sound := sound_new
  unique id order running := by simp at running
  queues := exactQueues_new

theorem Kernel.Agrees.step (agrees : k.Agrees) (op : Op) (context : CpuContext)
    (clean : (Call.of k op context).Clean) : (leaves ((Upse.step op context).run k)).Agrees where
  sound := agrees.sound.step op context
  queues := step_exactQueues agrees.sound.running agrees.queues op context clean
  unique := by
    by_cases reset : op = .reset
    · rw [reset, reset_run]
      exact agrees_new.unique
    · have fresh : ¬ (leaves ((Upse.step op context).run k)).OrdersExhausted :=
        fun full => clean.1 (.inl full)
      have both := (step_acts agrees.sound.running reset context).preserves
        (I := fun a => a.RunningSound ∧ (¬ a.OrdersExhausted → a.RunningUnique))
        ⟨agrees.sound.running, fun _ => agrees.unique⟩ ?_
      · exact both.2 fresh
      · rintro a b act - does ⟨sound, unique⟩
        refine ⟨does.runningSound sound, fun fresh => ?_⟩
        have order := does.order_le sound
        have fresh' : ¬ a.OrdersExhausted := by
          unfold OrdersExhausted at *
          omega
        exact (does.moves sound).runningUnique fresh' (unique fresh')

theorem step_keepsTimeouts (sound : k.Sound) (op : Op) (context : CpuContext) :
    k.KeepsTimeouts (leaves ((step op context).run k)) := by
  by_cases reset : op = .reset
  · rw [reset, reset_run]
    intro id entry held
    cases held
  · exact (step_acts sound.running reset context).keepsTimeouts sound

theorem agrees_of_run {calls : List Call} (run : Run Steps Kernel.new calls k)
    (clean : ∀ call ∈ calls, call.Clean) :
    k.Agrees ∧ ∀ call ∈ calls, call.before.KeepsTimeouts call.after := by
  apply (run.restrict clean).history
    (H := fun calls a => a.Agrees ∧ ∀ call ∈ calls, call.before.KeepsTimeouts call.after)
  · exact ⟨agrees_new, by simp⟩
  · rintro calls a call b ⟨agrees, timeouts⟩ ⟨⟨eq, rfl⟩, clean⟩
    constructor
    · rw [eq] at clean ⊢
      exact agrees.step call.op call.context clean
    · intro call' member
      rcases List.mem_append.mp member with old | new
      · exact timeouts call' old
      · rw [List.mem_singleton.mp new, eq]
        exact step_keepsTimeouts agrees.sound call.op call.context

/-- In a run that exhausts no counter and overflows no timeout, the current thread is the one and only
running thread, every queue holds exactly the threads that wait on its object, and a timeout is armed
only for a thread that waits, and only for the wait it was armed with. -/
theorem threads_agree {calls : List Call} (run : Run Steps Kernel.new calls k)
    (clean : ∀ call ∈ calls, call.Clean) :
    (∀ id, k.currentThread = some id ↔ k.Running id ∧ ∀ other, k.Running other → other = id) ∧
    (∀ o queue, k.queue? o = some queue → queue.Nodup ∧
      ∀ id, id ∈ queue ↔ ∃ reason, k.waitReasonOf id = some reason ∧ reason.object = some o) ∧
    (∀ id, waitEvent id < alarmEventBase → k.scheduler.pending (waitEvent id) ≠ none →
      ∃ reason, k.waitReasonOf id = some reason) ∧
    ∀ call ∈ calls, call.before.KeepsTimeouts call.after := by
  obtain ⟨agrees, timeouts⟩ := agrees_of_run run clean
  refine ⟨fun id => ⟨fun current => ⟨?_, fun other running => ?_⟩, fun running => ?_⟩, ?_, ?_, timeouts⟩
  · exact running_iff_view.mpr (agrees.sound.running id current)
  · obtain ⟨order, view⟩ := running_iff_view.mp running
    have current' := agrees.unique other order view
    rw [current] at current'
    exact (Option.some.inj current').symm
  · obtain ⟨order, view⟩ := running_iff_view.mp running.1
    exact agrees.unique id order view
  · intro o queue found
    have same : k.queue o = queue := by rw [Kernel.queue, found, Option.getD_some]
    obtain ⟨nodup, members⟩ := agrees.queues o
    rw [same] at nodup members
    exact ⟨nodup, fun id => (members id).trans waitsFor_eq_some⟩
  · intro id event pending
    obtain ⟨entry, held⟩ := Option.ne_none_iff_exists'.mp pending
    rcases agrees.sound.events _ entry held with ⟨id', reason, order, same, view⟩ | ⟨id', -, same, -⟩
    · have ids : id = id' := Nat.add_left_cancel same
      exact ⟨reason, waitReasonOf_iff_view.mpr ⟨order, ids ▸ view⟩⟩
    · rw [same] at event
      exact absurd (Nat.le_add_right alarmEventBase id') (not_le.mpr event)

instance (call : Call) : Decidable call.Clean :=
  inferInstanceAs (Decidable ((¬ (2 ^ 64 ≤ call.after.nextReadyOrder + 1 ∨
    2 ^ 64 ≤ call.after.scheduler.nextSequence + 1)) ∧
    ∀ ticks ∈ call.op.timeout, call.before.now + ticks < 2 ^ 64))

/-- A thread that waits on a semaphore with a timeout is the only one in its queue. -/
theorem threads_agree_sample :
    let calls := Kernel.new.history sampleContext [.createThread (sampleThread 10) sampleRange,
      .startThread 1 0, .createSemaphore ⟨0, 1, 0⟩, .reschedule .hleReturn,
      .waitSemaphore 1 (some 3)]
    let k := Kernel.new.after sampleContext [.createThread (sampleThread 10) sampleRange,
      .startThread 1 0, .createSemaphore ⟨0, 1, 0⟩, .reschedule .hleReturn,
      .waitSemaphore 1 (some 3)]
    (∀ call ∈ calls, call.Clean) ∧ k.queue? (.semaphore 1) = some [1] ∧
      ∃ reason, k.waitReasonOf 1 = some reason ∧ reason.object = some (.semaphore 1) := by
  intro calls k
  have clean : ∀ call ∈ calls, call.Clean := by decide +kernel
  have queue : k.queue? (.semaphore 1) = some [1] := by decide +kernel
  have agree := (threads_agree (run_history _ _ _) clean).2.1 (.semaphore 1) [1] queue
  exact ⟨clean, queue, (agree.2 1).mp (by simp)⟩

/-! ### No lost wake-up -/

namespace Kernel

/-- What a thread waits for is already there. -/
def Available (k : Kernel) : WaitReason → Prop
  | .semaphore id => ∃ value, k.semaphores.get id = some value ∧ value.count ≠ 0
  | .eventFlag id pattern mode =>
    ∃ value, k.eventFlags.get id = some value ∧ satisfied value.bits pattern mode = true
  | .messageBox id => ∃ value, k.messageBoxes.get id = some value ∧ value.messages ≠ []
  | .fixedPool id => ∃ value, k.fixedPools.get id = some value ∧ value.free ≠ []
  | .variablePool id size =>
    ∃ value, k.variablePools.get id = some value ∧ ∃ r ∈ value.free, size ≤ r.size
  | .sleep | .delay | .vblankStart | .vblankEnd | .moduleStart _ => False

theorem Calm.unavailable {o : Obj} {reason : WaitReason} {thread : ℕ} (calm : k.Calm o)
    (object : reason.object = some o) (queued : thread ∈ k.queue o)
    (waiting : k.waitReasonOf thread = some reason) : ¬ k.Available reason := by
  have member {r : ObjRecord} (found : k.record? o = some r) : thread ∈ r.waiters := by
    rwa [queue_of_record found] at queued
  cases reason with
  | semaphore id =>
    cases object
    rintro ⟨value, found, positive⟩
    have found' : k.record? (.semaphore id) = some (.semaphore value) := by simp [record?, found]
    exact positive (calm _ found' (List.ne_nil_of_mem (member found')))
  | eventFlag id pattern mode =>
    cases object
    rintro ⟨value, found, holds⟩
    have found' : k.record? (.eventFlag id) = some (.eventFlag value) := by simp [record?, found]
    have unsatisfied := calm _ found' thread (member found') id pattern mode rfl waiting
    rw [unsatisfied] at holds
    cases holds
  | messageBox id =>
    cases object
    rintro ⟨value, found, holds⟩
    have found' : k.record? (.messageBox id) = some (.messageBox value) := by simp [record?, found]
    exact holds (calm _ found' (List.ne_nil_of_mem (member found')))
  | fixedPool id =>
    cases object
    rintro ⟨value, found, holds⟩
    have found' : k.record? (.fixedPool id) = some (.fixedPool value) := by simp [record?, found]
    exact holds (calm _ found' (List.ne_nil_of_mem (member found')))
  | variablePool id size =>
    cases object
    rintro ⟨value, found, r, free, fits⟩
    have found' : k.record? (.variablePool id) = some (.variablePool value) := by
      simp [record?, found]
    have small := calm _ found' thread (member found') id size rfl waiting r free
    exact absurd small (not_lt.mpr fits)
  | _ => cases object

end Kernel

/-- In a run that exhausts no counter and overflows no timeout, no thread waits for something that is
already there: an object with a queue has nothing its queued threads wait for. -/
theorem no_lost_wakeup {calls : List Call} (run : Run Steps Kernel.new calls k)
    (clean : ∀ call ∈ calls, call.Clean) :
    (∀ thread reason, k.waitReasonOf thread = some reason → ¬ k.Available reason) ∧
    (∀ id value, k.semaphores.get id = some value → value.waiters ≠ [] → value.count = 0) ∧
    (∀ id value, k.messageBoxes.get id = some value → value.waiters ≠ [] → value.messages = []) ∧
    (∀ id value, k.fixedPools.get id = some value → value.waiters ≠ [] → value.free = []) ∧
    (∀ id value, k.variablePools.get id = some value → ∀ thread ∈ value.waiters, ∃ size,
      k.waitReasonOf thread = some (.variablePool id size) ∧ ∀ r ∈ value.free, r.size < size) ∧
    ∀ id value, k.eventFlags.get id = some value → ∀ thread ∈ value.waiters, ∃ pattern mode,
      k.waitReasonOf thread = some (.eventFlag id pattern mode) ∧
        satisfied value.bits pattern mode = false := by
  have calm (o : Obj) : k.Calm o := Reachable.calm ⟨calls, run⟩ o
  have queues := (agrees_of_run run clean).1.queues
  have waits {o : Obj} {r : ObjRecord} (found : k.record? o = some r) {thread : ℕ}
      (member : thread ∈ r.waiters) : ∃ reason, k.waitReasonOf thread = some reason ∧
        reason.object = some o := by
    rw [← queue_of_record found] at member
    exact waitsFor_eq_some.mp (((queues o).2 thread).mp member)
  refine ⟨?_, ?_, ?_, ?_, ?_, ?_⟩
  · intro thread reason waiting available
    cases object : reason.object with
    | none => cases reason <;> first | exact available | cases object
    | some o =>
      have queued := ((queues o).2 thread).mpr (waitsFor_eq_some.mpr ⟨reason, waiting, object⟩)
      exact (calm o).unavailable object queued waiting available
  · exact fun id value found => calm (.semaphore id) (.semaphore value) (by simp [record?, found])
  · exact fun id value found => calm (.messageBox id) (.messageBox value) (by simp [record?, found])
  · exact fun id value found => calm (.fixedPool id) (.fixedPool value) (by simp [record?, found])
  · intro id value found thread member
    have found' : k.record? (.variablePool id) = some (.variablePool value) := by
      simp [record?, found]
    obtain ⟨reason, waiting, object⟩ := waits found' member
    cases reason with
    | variablePool id' size =>
      cases object
      exact ⟨size, waiting, calm _ _ found' thread member id size rfl waiting⟩
    | _ => cases object
  · intro id value found thread member
    have found' : k.record? (.eventFlag id) = some (.eventFlag value) := by simp [record?, found]
    obtain ⟨reason, waiting, object⟩ := waits found' member
    cases reason with
    | eventFlag id' pattern mode =>
      cases object
      exact ⟨pattern, mode, waiting, calm _ _ found' thread member id pattern mode rfl waiting⟩
    | _ => cases object

/-- A thread that waits on an event flag for bits that were not set does not find them. -/
theorem no_lost_wakeup_sample :
    let calls := Kernel.new.history sampleContext [.createThread (sampleThread 10) sampleRange,
      .startThread 1 0, .createEventFlag ⟨0, 0⟩, .reschedule .hleReturn, .waitEventFlag 1 3 0 none,
      .setEventFlag 1 1]
    let k := Kernel.new.after sampleContext [.createThread (sampleThread 10) sampleRange,
      .startThread 1 0, .createEventFlag ⟨0, 0⟩, .reschedule .hleReturn, .waitEventFlag 1 3 0 none,
      .setEventFlag 1 1]
    (∀ call ∈ calls, call.Clean) ∧ k.waitReasonOf 1 = some (.eventFlag 1 3 0) ∧
      ¬ k.Available (.eventFlag 1 3 0) := by
  intro calls k
  have clean : ∀ call ∈ calls, call.Clean := by decide +kernel
  have waiting : k.waitReasonOf 1 = some (.eventFlag 1 3 0) := by decide +kernel
  exact ⟨clean, waiting, (no_lost_wakeup (run_history _ _ _) clean).1 1 _ waiting⟩

end Upse
