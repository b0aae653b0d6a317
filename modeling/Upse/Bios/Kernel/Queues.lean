import Upse.Lib.WaitQueues
import Upse.Bios.Kernel.HandOver
import Upse.Bios.Kernel.Lifetimes

/-!
# Queues hold exactly the waiting threads

In a run that exhausts no counter and overflows no timeout, the queue of every live object holds
exactly the threads that wait on it, and the current thread is the only running one.
-/

namespace Upse

open ErrorState Kernel WaitQueues

variable {k k' : Kernel}

namespace Kernel

/-- The object a thread waits on. -/
def waitsFor (k : Kernel) (id : ℕ) : Option Obj := (k.waitReasonOf id).bind WaitReason.object

/-- The queue of an object; a dead object has none. -/
def queue (k : Kernel) (o : Obj) : List ℕ := (k.queue? o).getD []

/-- Every queue holds exactly the threads that wait on its object, each once, and no thread waits on a
dead object. -/
def ExactQueues (k : Kernel) : Prop := Exact k.waitsFor k.queue

theorem waitsFor_eq_some {id : ℕ} {o : Obj} : k.waitsFor id = some o ↔
    ∃ reason, k.waitReasonOf id = some reason ∧ reason.object = some o :=
  Option.bind_eq_some_iff

theorem waitsFor_of_reason {id : ℕ} {reason : WaitReason} (waiting : k.waitReasonOf id = some reason) :
    k.waitsFor id = reason.object := by
  rw [waitsFor, waiting, Option.bind_some]

theorem queue_eq_of_record (same : ∀ o, k'.record? o = k.record? o) : k'.queue = k.queue := by
  funext o
  rw [queue, queue?, same, queue, queue?]

theorem queue_of_record {o : Obj} {r : ObjRecord} (found : k.record? o = some r) :
    k.queue o = r.waiters := by
  rw [queue, queue?, found]
  rfl

theorem queue_of_dead {o : Obj} (dead : k.record? o = none) : k.queue o = [] := by
  rw [queue, queue?, dead]
  rfl

theorem queue_eq_update {o : Obj} {r : ObjRecord} (changed : k'.record? o = some r)
    (others : ∀ o', o' ≠ o → k'.record? o' = k.record? o') :
    k'.queue = Function.update k.queue o r.waiters := by
  funext o'
  rw [Function.update_apply]
  split
  next same => rw [same, queue_of_record changed]
  next other => rw [queue, queue?, others o' other, queue, queue?]

theorem waitsFor_wake (k : Kernel) (id : ℕ) (result : ℤ) (value : Option Word) :
    (k.wake id result value).waitsFor = Function.update k.waitsFor id none := by
  funext other
  rw [Function.update_apply, waitsFor, waitReasonOf_wake]
  split <;> rfl

theorem queue_wake (k : Kernel) (id : ℕ) (result : ℤ) (value : Option Word) :
    (k.wake id result value).queue = k.queue :=
  queue_eq_of_record fun o => record?_wake k id result value o

theorem waitsFor_of_core (core : k'.core = k.core) : k'.waitsFor = k.waitsFor := by
  funext id
  exact (congrArg (·.waitsFor id) core :)

end Kernel

/-! ### Changes that concern no queue -/

/-- A change that touches no object and ends or begins no wait on one. -/
def Act.Plain : Act → Prop
  | .wake _ reason _ _ | .block _ reason => reason.object = none
  | .touch _ | .create _ | .unqueue _ => False
  | _ => True

namespace Kernel

variable {act : Act}

/-- A thread that waits keeps waiting, unless the change wakes it. -/
theorem Does.wait_kept (h : Does k act k') (sound : k.RunningSound) {id : ℕ} {reason : WaitReason}
    (waiting : k.waitReasonOf id = some reason) :
    k'.waitReasonOf id = some reason ∨ ∃ result value, act = .wake id reason result value := by
  obtain ⟨thread, found, waits⟩ := waitReasonOf_eq_some.mp waiting
  have kept (same : k'.threads.get id = some thread) : k'.waitReasonOf id = some reason :=
    waitReasonOf_eq_some.mpr ⟨thread, same, waits⟩
  -- the thread a change moves was not waiting, unless the change wakes it
  have ne_of_state {other : ℕ} {thread' : Thread} (found' : k.threads.get other = some thread')
      (idle : thread'.state.waitReason = none) : id ≠ other := by
    rintro rfl
    rw [found] at found'
    cases found'
    rw [waits] at idle
    cases idle
  have ne_of_current {other : ℕ} (running : k.currentThread = some other) : id ≠ other := by
    obtain ⟨thread', found', state⟩ := sound.found running
    exact ne_of_state found' (by rw [state]; rfl)
  have modified {other : ℕ} {f : Thread → Thread} (ne : id ≠ other)
      (threads : k'.threads = (k.modifyThread other f).threads) :
      k'.waitReasonOf id = some reason := by
    apply kept
    rw [threads, get_modifyThread, if_neg ne, found]
  cases h with
  | @spawn id' thread' threads inserted _ =>
    obtain ⟨-, free, -, -, get⟩ := FixedTable.insert_eq_ok inserted
    refine .inl (kept ((get id).trans ?_))
    rw [if_neg, found]
    rintro rfl
    rw [free] at found
    cases found
  | @reap id' thread' found' dormant =>
    refine .inl (kept ((FixedTable.get_remove _ _ _).trans ?_))
    rw [if_neg (ne_of_state found' (by rw [dormant]; rfl)), found]
  | start found' dormant _ => exact .inl (modified (ne_of_state found' (by rw [dormant]; rfl)) rfl)
  | @wake id' reason' _ _ waiting' _ =>
    by_cases same : id = id'
    · subst same
      rw [waiting] at waiting'
      cases waiting'
      exact .inr ⟨_, _, rfl⟩
    · exact .inl ((waitReasonOf_wake k id' _ _ id).trans (by rw [if_neg same, waiting]))
  | exit running => exact .inl (modified (ne_of_current running) rfl)
  | erase running =>
    refine .inl (kept ((FixedTable.get_remove _ _ _).trans ?_))
    rw [if_neg (ne_of_current running), found]
  | block running _ => exact .inl (modified (ne_of_current running) rfl)
  | stall running _ => exact .inl (modified (ne_of_current running) rfl)
  | preempt running _ => exact .inl (modified (ne_of_current running) rfl)
  | dispatch _ ready =>
    obtain ⟨thread', found', state⟩ := ready
    exact .inl (modified (ne_of_state found' (by rw [state]; rfl)) rfl)
  | save running => exact .inl (modified (ne_of_current running) rfl)
  | @adjust other f keeps =>
    have view : (k.modifyThread other f).view = k.view :=
      view_modifyThread fun thread => ⟨(keeps thread).1, (keeps thread).2.1⟩
    left
    rw [waitReasonOf_eq_view, view, ← waitReasonOf_eq_view, waiting]
  | create core _ _ => exact .inl ((congrArg (·.waitReasonOf id) core :).trans waiting)
  | touch core _ _ => exact .inl ((congrArg (·.waitReasonOf id) core :).trans waiting)
  | unqueue _ => exact .inl ((waitReasonOf_removeWaiter k _ _ id).trans waiting)
  | _ => exact .inl waiting

theorem Does.waitsFor_eq (h : Does k act k') (sound : k.RunningSound) (plain : act.Plain) :
    k'.waitsFor = k.waitsFor := by
  funext id
  cases after : k'.waitReasonOf id with
  | some reason =>
    rcases h.wait_origin after with before | rfl
    · rw [waitsFor_of_reason after, waitsFor_of_reason before]
    · have unqueued : reason.object = none := plain
      rw [waitsFor_of_reason after, unqueued]
      cases before : k.waitReasonOf id with
      | none => rw [waitsFor, before, Option.bind_none]
      | some reason' =>
        rcases h.wait_kept sound before with kept | clash
        · rw [after] at kept
          cases kept
          rw [waitsFor_of_reason before, unqueued]
        · obtain ⟨result, value, clash⟩ := clash
          cases clash
  | none =>
    rw [waitsFor, after, Option.bind_none]
    cases before : k.waitReasonOf id with
    | none => rw [waitsFor, before, Option.bind_none]
    | some reason =>
      rcases h.wait_kept sound before with kept | ⟨result, value, rfl⟩
      · rw [after] at kept
        cases kept
      · rw [waitsFor_of_reason before]
        exact plain.symm

theorem Does.queue_eq (h : Does k act k') (plain : act.Plain) : k'.queue = k.queue := by
  apply queue_eq_of_record
  intro o
  cases h with
  | create => exact plain.elim
  | touch => exact plain.elim
  | unqueue => exact plain.elim
  | _ => cases o <;> rfl

theorem Does.exactQueues (h : Does k act k') (sound : k.RunningSound) (plain : act.Plain)
    (exact_ : k.ExactQueues) : k'.ExactQueues := by
  rw [ExactQueues, h.waitsFor_eq sound plain, h.queue_eq plain]
  exact exact_

theorem Does.order_le (h : Does k act k') (sound : k.RunningSound) :
    k.nextReadyOrder ≤ k'.nextReadyOrder :=
  (h.moves sound).order_le

theorem Does.sequence_le (h : Does k act k') :
    k.scheduler.nextSequence ≤ k'.scheduler.nextSequence := by
  have popped {due : DueEvent} {scheduler : Scheduler}
      (pop : k.scheduler.popDue k.now = (some due, scheduler)) :
      k.scheduler.nextSequence ≤ scheduler.nextSequence := by
    obtain ⟨e, rest, -, -, -, -, same, -⟩ := Scheduler.popDue_some pop
    exact same.ge
  cases h with
  | wake _ _ => exact (Scheduler.nextSequence_cancel _ _).ge
  | disarm _ => exact (Scheduler.nextSequence_cancel _ _).ge
  | exit _ => exact (Scheduler.nextSequence_cancel _ _).ge
  | erase _ => exact (Scheduler.nextSequence_cancel _ _).ge
  | cancelAlarm => exact (Scheduler.nextSequence_cancel _ _).ge
  | @block id context reason deadline scheduler _ armed =>
    cases deadline with
    | none => cases armed; exact le_rfl
    | some deadline =>
      obtain ⟨-, next, -⟩ := Scheduler.schedule_spec armed
      change _ ≤ scheduler.nextSequence
      omega
  | @setAlarm _ _ scheduler _ _ scheduled _ =>
    obtain ⟨-, next, -⟩ := Scheduler.schedule_spec scheduled
    change _ ≤ scheduler.nextSequence
    omega
  | pop pop _ => exact popped pop
  | fire pop => exact popped pop
  | create core _ _ => exact (congrArg (·.scheduler.nextSequence) core :).ge
  | touch core _ _ => exact (congrArg (·.scheduler.nextSequence) core :).ge
  | unqueue _ => exact (congrArg (·.scheduler.nextSequence) (core_removeWaiter k _ _) :).ge
  | _ => exact le_rfl

/-! ### Calls that end waits on any object -/

/-- A step that keeps the queues exact, unless the ready orders run out. -/
def KeepsExact (k k' : Kernel) : Prop :=
  k.RunningSound → k'.RunningSound ∧ k.nextReadyOrder ≤ k'.nextReadyOrder ∧
    (¬ k'.OrdersExhausted → k.ExactQueues → k'.ExactQueues)

instance : Std.Refl KeepsExact := ⟨fun _ sound => ⟨sound, le_rfl, fun _ exact_ => exact_⟩⟩

instance : IsTrans Kernel KeepsExact where
  trans a b c ab bc sound := by
    obtain ⟨sound', le, keeps⟩ := ab sound
    obtain ⟨sound'', le', keeps'⟩ := bc sound'
    refine ⟨sound'', le.trans le', fun fresh exact_ => keeps' fresh (keeps ?_ exact_)⟩
    unfold OrdersExhausted at *
    omega

theorem keepsExact_of_acts {L : Act → Prop} (h : Acts L k k') (plain : ∀ act, L act → act.Plain) :
    KeepsExact k k' := by
  intro sound
  apply h.preserves (I := fun a => a.RunningSound ∧ k.nextReadyOrder ≤ a.nextReadyOrder ∧
    (¬ a.OrdersExhausted → k.ExactQueues → a.ExactQueues)) ⟨sound, le_rfl, fun _ exact_ => exact_⟩
  rintro a b act allowed does ⟨sound', le, keeps⟩
  have order := does.order_le sound'
  refine ⟨does.runningSound sound', le.trans order, fun fresh exact_ => ?_⟩
  apply does.exactQueues sound' (plain act allowed)
  apply keeps _ exact_
  unfold OrdersExhausted at *
  omega

theorem keepsExact_of_same (view : k'.view = k.view) (current : k'.currentThread = k.currentThread)
    (order : k'.nextReadyOrder = k.nextReadyOrder) (records : ∀ o, k'.record? o = k.record? o) :
    KeepsExact k k' := by
  intro sound
  refine ⟨fun id running => ?_, order.ge, fun _ exact_ => ?_⟩
  · rw [view]
    exact sound id (current.symm.trans running)
  · have waits : k'.waitsFor = k.waitsFor := by
      funext id
      rw [waitsFor, waitReasonOf_eq_view, view, ← waitReasonOf_eq_view, waitsFor]
    rw [ExactQueues, waits, queue_eq_of_record records]
    exact exact_

theorem queue_removeWaiter {id : ℕ} {reason : WaitReason} {o : Obj} (object : reason.object = some o) :
    (k.removeWaiter id reason).queue =
      Function.update k.queue o ((k.queue o).filter (· ≠ id)) := by
  funext o'
  rw [Function.update_apply, queue, queue?, record?_removeWaiter, object]
  by_cases same : o' = o
  · subst same
    rw [if_pos rfl, if_pos rfl]
    cases found : k.record? o' with
    | none => simp [queue_of_dead found]
    | some r => simp [queue_of_record found]
  · rw [if_neg same, if_neg (fun eq => same (Option.some.inj eq).symm)]
    rfl

theorem keepsExact_release {id : ℕ} {reason : WaitReason}
    (waiting : k.waitReasonOf id = some reason) (result : ℤ) (value : Option Word) :
    Leads KeepsExact k (do
      modify fun k => k.removeWaiter id reason
      completeWait id result value) := by
  have waiting' : (k.removeWaiter id reason).waitReasonOf id = some reason := by
    rw [waitReasonOf_removeWaiter, waiting]
  have unqueue : k.Does (.unqueue id) (k.removeWaiter id reason) := .unqueue waiting
  have run : (do modify fun k => k.removeWaiter id reason; completeWait id result value :
      KernelM Unit).run k = (completeWait id result value).run (k.removeWaiter id reason) := rfl
  by_cases full : (k.removeWaiter id reason).OrdersExhausted
  · apply leads_of_run (run.trans (completeWait_of_full full))
    intro sound
    have disarm : (k.removeWaiter id reason).Does (.disarm id) _ := .disarm full
    have sound' := unqueue.runningSound sound
    refine ⟨disarm.runningSound sound', (unqueue.order_le sound).trans (disarm.order_le sound'), ?_⟩
    exact fun fresh => absurd full fresh
  · apply leads_of_run (run.trans (completeWait_of_waiting waiting' (not_le.mp full)))
    intro sound
    have wake : (k.removeWaiter id reason).Does (.wake id reason result value)
      ((k.removeWaiter id reason).wake id result value) := .wake waiting' full
    have sound' := unqueue.runningSound sound
    refine ⟨wake.runningSound sound', (unqueue.order_le sound).trans (wake.order_le sound'), ?_⟩
    intro _ exact_
    have waits : (k.removeWaiter id reason).waitsFor = k.waitsFor :=
      waitsFor_of_core (core_removeWaiter k id reason)
    rw [leaves_ok, ExactQueues, waitsFor_wake, queue_wake, waits]
    cases object : reason.object with
    | none =>
      have idle : k.waitsFor id = none := (waitsFor_of_reason waiting).trans object
      have same : (k.removeWaiter id reason).queue = k.queue := by
        apply queue_eq_of_record
        intro o
        rw [record?_removeWaiter, object, if_neg (Option.some_ne_none o).symm]
      rw [same, ← idle, Function.update_eq_self]
      exact exact_
    | some o =>
      rw [queue_removeWaiter object]
      exact exact_.leave ((waitsFor_of_reason waiting).trans object)

end Kernel

end Upse
