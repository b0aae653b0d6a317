import Upse.Bios.Kernel.Invariants

/-!
# Advancing time

An advance delivers the due entries of the scheduler's queue, in its order, one report each, and
leaves the others.  Delivering is the same at any time, so advancing in two steps delivers what one
advance to the later time does.
-/

namespace Upse

open ErrorState Kernel Scheduler

variable {k k' : Kernel}

namespace Kernel

/-- The state at another time. -/
def atTime (k : Kernel) (now : Deadline) : Kernel := { k with now := now }

/-- The state without the earliest scheduled event. -/
def popped (k : Kernel) (e : Entry) : Kernel :=
  { k with scheduler := (k.scheduler.cancel e.id).2 }

/-- The scheduled entries that are due, in queue order. -/
def due (k : Kernel) (now : Deadline) : List Entry :=
  k.scheduler.queue.toList.takeWhile (·.deadline ≤ now)

/-- What is reported of a scheduled entry. -/
def report (k : Kernel) (e : Entry) : Option KernelEvent :=
  if e.id < alarmEventBase then some (.threadReady (e.id - waitEventBase))
  else (k.alarms.get (e.id - alarmEventBase)).map fun alarm =>
    .alarm (e.id - alarmEventBase) (alarm.callback (e.id - alarmEventBase))

theorem Sound.entry (sound : k.Sound) {e : Entry} (queued : e ∈ k.scheduler.queue.toList) :
    (∃ id reason, e.id = waitEvent id ∧ e.id < alarmEventBase ∧
      k.waitReasonOf id = some reason) ∨
    ∃ id alarm, e.id = alarmEvent id ∧ k.alarms.get id = some alarm := by
  rcases sound.events e.id _ (mem_queue.mp queued) with ⟨id, reason, order, same, view⟩ | alarm
  · refine .inl ⟨id, reason, same, ?_, waitReasonOf_iff_view.mpr ⟨order, view⟩⟩
    obtain ⟨thread, found, -⟩ := view_eq_some.mp view
    have range : id < 1 + 64 := (FixedTable.range_of_get found).2
    have small : 0x1000 + id < 0x2000 := by omega
    rw [same]
    exact small
  · exact .inr alarm

theorem Sound.atTime (sound : k.Sound) (now : Deadline) : (k.atTime now).Sound :=
  ⟨sound.running, sound.bounded, sound.distinct, sound.events⟩

end Kernel

/-! ### Delivering one entry -/

theorem expireWait_run {id : ℕ} {reason : WaitReason} (waiting : k.waitReasonOf id = some reason) :
    (expireWait id).run k =
      if k.nextReadyOrder + 1 < 2 ^ 64 then .ok [.threadReady id] ((k.removeWaiter id reason).wake id
        (if reason = .delay then 0 else KernelError.releaseWait.code) none)
      else .error (.kernel .noMemory) ((k.removeWaiter id reason).disarm id) := by
  have waiting' : (k.removeWaiter id reason).waitReasonOf id = some reason := by
    rw [waitReasonOf_removeWaiter, waiting]
  have orders : (k.removeWaiter id reason).nextReadyOrder = k.nextReadyOrder :=
    (congrArg (·.nextReadyOrder) (core_removeWaiter k id reason) :)
  simp only [expireWait, run_bind, run_get, waiting, run_modify]
  rw [completeWait_run waiting', orders]
  by_cases fit : k.nextReadyOrder + 1 < 2 ^ 64
  · rw [if_pos fit, if_pos fit]
    rfl
  · rw [if_neg fit, if_neg fit]

/-- Removes an entry from the scheduler and handles it. -/
def deliver (e : Entry) : KernelM (List KernelEvent) := do
  modify (·.popped e)
  dispatchDue ⟨e.id, e.deadline⟩

theorem deliver_eq (e : Entry) (k : Kernel) :
    (deliver e).run k = (dispatchDue ⟨e.id, e.deadline⟩).run (k.popped e) := by
  simp only [deliver, run_bind, run_modify]

/-- Delivers entries in order. -/
def deliverAll : List Entry → KernelM (List KernelEvent)
  | [] => return []
  | e :: entries => do
    let first ← deliver e
    let rest ← deliverAll entries
    return first ++ rest

variable {now : Deadline} {events : List KernelEvent}

theorem popDue_run {e : Entry} {rest : List Entry}
    (queue : k.scheduler.queue.toList = e :: rest) : (popDue now).run k =
      if e.deadline ≤ now then .ok (some ⟨e.id, e.deadline⟩) (k.popped e) else .ok none k := by
  have first : k.scheduler.queue.first = some e := by rw [SortedSet.first, queue]; rfl
  have ran : (popDue now).run k = .ok (k.scheduler.popDue now).1
      { k with scheduler := (k.scheduler.popDue now).2 } := by simp [popDue, run_bind]
  rw [ran, Scheduler.popDue_of_first first]
  split <;> rfl

theorem popDue_run_empty (queue : k.scheduler.queue.toList = []) :
    (popDue now).run k = .ok none k := by
  have first : k.scheduler.queue.first = none := SortedSet.first_eq_none.mpr queue
  have ran : (popDue now).run k = .ok (k.scheduler.popDue now).1
      { k with scheduler := (k.scheduler.popDue now).2 } := by simp [popDue, run_bind]
  rw [ran, Scheduler.popDue_of_empty first]

theorem deliver_run (sound : k.Sound) {e : Entry} {rest : List Entry}
    (queue : k.scheduler.queue.toList = e :: rest) :
    (∃ k', (deliver e).run k = .error (.kernel .noMemory) k' ∧ k'.OrdersExhausted) ∨
    ∃ k' event, (deliver e).run k = .ok [event] k' ∧ k.report e = some event ∧ k'.Sound ∧
      k'.scheduler.queue.toList = rest ∧ k'.now = k.now ∧
      ∀ f ∈ rest, k'.report f = k.report f := by
  have queued : e ∈ k.scheduler.queue.toList := by rw [queue]; exact List.mem_cons_self
  have left : (k.popped e).scheduler.queue.toList = rest := by
    rw [popped, Scheduler.cancel_of_mem queued]
    exact SortedSet.toList_erase_first queue
  have gone : (k.popped e).scheduler.pending e.id = none := by
    rw [popped, Scheduler.pending_cancel, if_pos rfl]
  have pop : (k.atTime e.deadline).scheduler.popDue (k.atTime e.deadline).now =
      (some ⟨e.id, e.deadline⟩, (k.popped e).scheduler) := by
    have first : k.scheduler.queue.first = some e := by rw [SortedSet.first, queue]; rfl
    exact (Scheduler.popDue_of_first first).trans (if_pos le_rfl)
  rw [deliver_eq]
  rcases sound.entry queued with ⟨id, reason, same, wait, waiting⟩ | ⟨id, alarm, same, found⟩
  · -- a timed wait: the thread is taken out of its queue and made ready
    have dispatched : dispatchDue ⟨e.id, e.deadline⟩ = expireWait id := by
      rw [dispatchDue, if_pos ⟨by rw [same]; exact Nat.le_add_right _ _, wait⟩]
      rw [same, waitEvent, Nat.add_sub_cancel_left]
    have waiting' : (k.popped e).waitReasonOf id = some reason := waiting
    have soundPopped : (k.popped e).Sound :=
      ((Does.pop pop wait).sound (sound.atTime _)).atTime k.now
    rw [dispatched, expireWait_run waiting']
    split
    next fit =>
      refine .inr ⟨_, _, rfl, ?_, ?_, ?_, ?_, ?_⟩
      · rw [report, if_pos wait, same, waitEvent, Nat.add_sub_cancel_left]
      · have unqueue : (k.popped e).Does (.unqueue id) ((k.popped e).removeWaiter id reason) :=
          .unqueue waiting'
        have order : ((k.popped e).removeWaiter id reason).nextReadyOrder = k.nextReadyOrder :=
          (congrArg (·.nextReadyOrder) (core_removeWaiter (k.popped e) id reason) :)
        have waits : ((k.popped e).removeWaiter id reason).waitReasonOf id = some reason := by
          rw [waitReasonOf_removeWaiter, waiting']
        have fits : ¬ ((k.popped e).removeWaiter id reason).OrdersExhausted := by
          rw [OrdersExhausted, order, not_le]
          exact fit
        exact (Does.wake waits fits).sound (unqueue.sound soundPopped)
      · have scheduler : ((k.popped e).removeWaiter id reason).scheduler = (k.popped e).scheduler :=
          (congrArg (·.scheduler) (core_removeWaiter (k.popped e) id reason) :)
        show (((k.popped e).removeWaiter id reason).scheduler.cancel
          (waitEvent id)).2.queue.toList = rest
        rw [scheduler, ← same, Scheduler.cancel_of_pending_none gone, left]
      · exact (congrArg (·.now) (core_removeWaiter (k.popped e) id reason) :)
      · intro f _
        have alarms : ((k.popped e).removeWaiter id reason).alarms = k.alarms :=
          (congrArg (·.alarms) (core_removeWaiter (k.popped e) id reason) :)
        show Kernel.report _ f = _
        unfold report
        rw [show ((((k.popped e).removeWaiter id reason).wake id (if reason = .delay then 0
          else KernelError.releaseWait.code) none).alarms = k.alarms) from alarms]
    next full =>
      refine .inl ⟨_, rfl, ?_⟩
      have order : (((k.popped e).removeWaiter id reason).disarm id).nextReadyOrder =
        k.nextReadyOrder :=
          (congrArg (·.nextReadyOrder) (core_removeWaiter (k.popped e) id reason) :)
      rw [OrdersExhausted, order]
      exact not_lt.mp full
  · -- an alarm: it is removed from its table
    have notWait : ¬ e.id < alarmEventBase := by
      rw [same, not_lt]
      exact Nat.le_add_right _ _
    have dispatched : dispatchDue ⟨e.id, e.deadline⟩ = fireAlarm id := by
      rw [dispatchDue, if_neg fun h => notWait h.2, if_pos (not_lt.mp notWait)]
      rw [same, alarmEvent, Nat.add_sub_cancel_left]
    have found' : (k.popped e).alarms.get id = some alarm := found
    rw [dispatched, fireAlarm_run, found', Option.elim_some]
    refine .inr ⟨_, _, rfl, ?_, ?_, left, rfl, ?_⟩
    · rw [report, if_neg notWait, same, alarmEvent, Nat.add_sub_cancel_left, found]
      rfl
    · rw [same] at pop
      exact ((Does.fire pop).sound (sound.atTime _)).atTime k.now
    · intro f member
      have differs : f.id ≠ e.id := by
        intro eq
        have f_queued : f ∈ k.scheduler.queue.toList := by
          rw [queue]
          exact List.mem_cons_of_mem _ member
        have entries := (mem_queue.mp f_queued).symm.trans (eq ▸ mem_queue.mp queued)
        have sorted := k.scheduler.queue.sorted
        rw [queue, List.pairwise_cons] at sorted
        have less := sorted.1 f member
        simp only [Option.some.injEq, Prod.mk.injEq] at entries
        obtain ⟨d, q, i⟩ := f
        obtain ⟨d', q', i'⟩ := e
        obtain ⟨rfl, rfl⟩ := entries
        cases eq
        exact absurd less (lt_irrefl _)
      unfold report
      split
      · rfl
      next notWait' =>
        have other : f.id - alarmEventBase ≠ id := by
          intro eq
          apply differs
          rw [same, alarmEvent, ← eq, Nat.add_sub_of_le (not_lt.mp notWait')]
        show Option.map _ (((k.popped e).alarms.remove id).2.get _) = _
        rw [FixedTable.get_remove, if_neg other]
        rfl

/-! ### Delivering the due entries -/

theorem deliverAll_append (entries later : List Entry) : deliverAll (entries ++ later) = (do
    let first ← deliverAll entries
    let rest ← deliverAll later
    return first ++ rest) := by
  induction entries with
  | nil => simp [deliverAll]
  | cons e entries ih =>
    simp only [List.cons_append, deliverAll, ih, bind_assoc, pure_bind, List.append_assoc]

theorem deliverAll_run (sound : k.Sound) {entries later : List Entry}
    (queue : k.scheduler.queue.toList = entries ++ later) :
    (∃ k', (deliverAll entries).run k = .error (.kernel .noMemory) k' ∧ k'.OrdersExhausted) ∨
    ∃ k' events, (deliverAll entries).run k = .ok events k' ∧
      events.map some = entries.map k.report ∧ k'.Sound ∧ k'.scheduler.queue.toList = later ∧
      k'.now = k.now ∧ ∀ f ∈ later, k'.report f = k.report f := by
  induction entries generalizing k with
  | nil => exact .inr ⟨k, [], rfl, rfl, sound, queue, rfl, fun _ _ => rfl⟩
  | cons e entries ih =>
    rcases deliver_run sound queue with
      ⟨k', failed, full⟩ | ⟨k₁, event, ran, reported, sound₁, queue₁, now₁, reports₁⟩
    · refine .inl ⟨k', ?_, full⟩
      simp only [deliverAll, run_bind, failed]
    · rcases ih sound₁ queue₁ with
        ⟨k', failed, full⟩ | ⟨k', events, ran', reported', sound', queue', now', reports'⟩
      · refine .inl ⟨k', ?_, full⟩
        simp only [deliverAll, run_bind, ran, failed]
      · refine .inr ⟨k', event :: events, ?_, ?_, sound', queue', now'.trans now₁, fun f member => ?_⟩
        · simp only [deliverAll, run_bind, ran, ran']
          rfl
        · have same : entries.map k₁.report = entries.map k.report :=
            List.map_congr_left fun f member => reports₁ f (List.mem_append_left _ member)
          rw [List.map_cons, List.map_cons, reported, reported', same]
        · rw [reports' f member, reports₁ f (List.mem_append_right _ member)]

theorem expireWait_atTime {id : ℕ} (now : Deadline)
    (ran : (expireWait id).run k = .ok events k') :
    (expireWait id).run (k.atTime now) = .ok events (k'.atTime now) := by
  cases waits : k.waitReasonOf id with
  | none =>
    have waits' : (k.atTime now).waitReasonOf id = none := waits
    simp only [expireWait, run_bind, run_get, waits, waits', run_pure] at ran ⊢
    cases ran
    rfl
  | some reason =>
    have waits' : (k.atTime now).waitReasonOf id = some reason := waits
    have removed : (k.atTime now).removeWaiter id reason = (k.removeWaiter id reason).atTime now := by
      cases reason <;> rfl
    rw [expireWait_run waits] at ran
    rw [expireWait_run waits', removed]
    split at ran
    next fit =>
      cases ran
      exact if_pos fit
    next => cases ran

theorem fireAlarm_atTime {id : ℕ} (now : Deadline)
    (ran : (fireAlarm id).run k = .ok events k') :
    (fireAlarm id).run (k.atTime now) = .ok events (k'.atTime now) := by
  rw [fireAlarm_run] at ran ⊢
  cases ran
  rfl

theorem deliver_atTime {e : Entry} (now : Deadline)
    (ran : (deliver e).run k = .ok events k') :
    (deliver e).run (k.atTime now) = .ok events (k'.atTime now) := by
  have popped : (k.atTime now).popped e = (k.popped e).atTime now := rfl
  rw [deliver_eq] at ran ⊢
  rw [popped]
  unfold dispatchDue at ran ⊢
  split at ran
  next wait =>
    rw [if_pos wait]
    exact expireWait_atTime now ran
  next wait =>
    rw [if_neg wait]
    split at ran
    next alarm =>
      rw [if_pos alarm]
      exact fireAlarm_atTime now ran
    next alarm =>
      rw [if_neg alarm]
      cases ran
      rfl

theorem deliverAll_atTime {entries : List Entry} (now : Deadline)
    (ran : (deliverAll entries).run k = .ok events k') :
    (deliverAll entries).run (k.atTime now) = .ok events (k'.atTime now) := by
  induction entries generalizing k events with
  | nil =>
    cases ran
    rfl
  | cons e entries ih =>
    obtain ⟨first, k₁, ran₁, ran⟩ := run_bind_ok.mp ran
    obtain ⟨rest, k₂, ran₂, ran⟩ := run_bind_ok.mp ran
    cases ran
    exact run_bind_ok.mpr ⟨first, _, deliver_atTime now ran₁,
      run_bind_ok.mpr ⟨rest, _, ih ran₂, rfl⟩⟩

theorem advanceLoop_run (sound : k.Sound) {rounds : ℕ}
    (enough : k.scheduler.queue.toList.length ≤ rounds) :
    (advanceLoop now rounds).run k = (deliverAll (k.due now)).run k := by
  induction rounds generalizing k with
  | zero =>
    have empty : k.scheduler.queue.toList = [] := List.length_eq_zero_iff.mp (Nat.le_zero.mp enough)
    rw [due, empty]
    rfl
  | succ rounds ih =>
    unfold due
    cases queue : k.scheduler.queue.toList with
    | nil =>
      simp only [advanceLoop, run_bind, popDue_run_empty queue]
      rfl
    | cons e rest =>
      by_cases reached : e.deadline ≤ now
      · have taken : (e :: rest).takeWhile (·.deadline ≤ now) =
            e :: rest.takeWhile (·.deadline ≤ now) := List.takeWhile_cons_of_pos (by simpa using reached)
        rw [taken]
        simp only [advanceLoop, run_bind, popDue_run queue, if_pos reached,
          ← deliver_eq, deliverAll]
        rcases deliver_run sound queue with ⟨k', failed, -⟩ | ⟨k', event, ran, -, sound', queue', -, -⟩
        · rw [failed]
        · have shorter : k'.scheduler.queue.toList.length ≤ rounds := by
            rw [queue, List.length_cons] at enough
            rw [queue']
            omega
          have looped := ih sound' shorter
          rw [due, queue'] at looped
          rw [ran]
          dsimp only
          rw [looped]
      · have none : (e :: rest).takeWhile (·.deadline ≤ now) = [] :=
          List.takeWhile_cons_of_neg (by simpa using reached)
        rw [none]
        simp only [advanceLoop, run_bind, popDue_run queue, if_neg reached]
        rfl

theorem advanceTo_run (sound : k.Sound) (later : k.now ≤ now) :
    (advanceTo now).run k = (deliverAll (k.due now)).run (k.atTime now) := by
  have loop : (advanceTo now).run k =
      (advanceLoop now k.scheduler.queue.toList.length).run (k.atTime now) := by
    simp only [advanceTo, run_bind, run_get, failIf, if_neg (not_lt.mpr later),
      run_pure, run_modify]
    rfl
  rw [loop]
  exact advanceLoop_run (sound.atTime now) le_rfl

theorem advanceTo_of_lt (past : now < k.now) :
    (advanceTo now).run k = .error (.kernel .illegalSize) k := by
  simp only [advanceTo, run_bind, run_get, failIf, if_pos past, run_throw]

theorem Kernel.queue_due (k : Kernel) (now : Deadline) : k.scheduler.queue.toList =
    k.due now ++ k.scheduler.queue.toList.dropWhile (·.deadline ≤ now) :=
  List.takeWhile_append_dropWhile.symm

theorem takeWhile_due {a b : Deadline} (le : a ≤ b) (entries : List Entry) :
    entries.takeWhile (·.deadline ≤ b) = entries.takeWhile (·.deadline ≤ a) ++
      (entries.dropWhile (·.deadline ≤ a)).takeWhile (·.deadline ≤ b) := by
  induction entries with
  | nil => rfl
  | cons e entries ih =>
    by_cases reached : e.deadline ≤ a
    · have reached' : e.deadline ≤ b := le_trans reached le
      simp [reached, reached', ih]
    · simp [List.takeWhile_cons, reached]

/-- Advancing in two steps reports and leaves what one advance to the later time does. -/
theorem advanceTo_advanceTo (sound : k.Sound) {a b : Deadline} (first : k.now ≤ a) (second : a ≤ b)
    : (do
        let early ← advanceTo a
        let late ← advanceTo b
        return early ++ late : KernelM (List KernelEvent)).run k = .ok events k' ↔
      (advanceTo b).run k = .ok events k' := by
  have dues : k.due b = k.due a ++ (k.scheduler.queue.toList.dropWhile (·.deadline ≤ a)).takeWhile
      (·.deadline ≤ b) := takeWhile_due second _
  -- after the first advance the rest of the queue is left, and the time has not passed `b`
  have rest {early : List KernelEvent} {k₁ : Kernel}
      (ran : (deliverAll (k.due a)).run (k.atTime a) = .ok early k₁) :
      (advanceTo b).run k₁ = (deliverAll ((k.scheduler.queue.toList.dropWhile
        (·.deadline ≤ a)).takeWhile (·.deadline ≤ b))).run (k₁.atTime b) := by
    rcases deliverAll_run (sound.atTime a) (k.queue_due a) with
      ⟨_, failed, -⟩ | ⟨k₂, events', ran', -, sound₁, queue₁, now₁, -⟩
    · rw [ran] at failed
      cases failed
    · rw [ran] at ran'
      cases ran'
      rw [advanceTo_run sound₁ (now₁.le.trans second), due, queue₁]
  rw [advanceTo_run sound (first.trans second), dues, deliverAll_append]
  constructor
  · intro ran
    obtain ⟨early, k₁, ran₁, ran⟩ := run_bind_ok.mp ran
    obtain ⟨late, k₂, ran₂, ran⟩ := run_bind_ok.mp ran
    cases ran
    rw [advanceTo_run sound first] at ran₁
    rw [rest ran₁] at ran₂
    exact run_bind_ok.mpr ⟨early, _, deliverAll_atTime (k := k.atTime a) b ran₁, run_bind_ok.mpr ⟨late, _, ran₂, rfl⟩⟩
  · intro ran
    obtain ⟨early, k₁, ran₁, ran⟩ := run_bind_ok.mp ran
    obtain ⟨late, k₂, ran₂, ran⟩ := run_bind_ok.mp ran
    cases ran
    have ran₁' : (deliverAll (k.due a)).run (k.atTime a) = .ok early (k₁.atTime a) :=
      deliverAll_atTime (k := k.atTime b) a ran₁
    have now₁ : k₁.now = b := by
      rcases deliverAll_run (sound.atTime b) (k.queue_due a) with
        ⟨_, failed, -⟩ | ⟨k₂, events', ran', -, -, -, now₁, -⟩
      · rw [ran₁] at failed
        cases failed
      · rw [ran₁] at ran'
        cases ran'
        exact now₁
    have same : (k₁.atTime a).atTime b = k₁ := by
      rw [← now₁]
      rfl
    refine run_bind_ok.mpr ⟨early, _, (advanceTo_run sound first).trans ran₁', ?_⟩
    refine run_bind_ok.mpr ⟨late, _, ?_, rfl⟩
    rw [rest ran₁', same]
    exact ran₂

end Upse
