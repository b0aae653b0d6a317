import Upse.Bios.Kernel.Advance
import Upse.Bios.Kernel.QueueRuns

/-!
# Timeouts and alarms are reported once

A timeout or an alarm stays scheduled at its deadline until its wait is completed, it is cancelled,
or an advance reaches the deadline; that advance reports it once, in the order of deadlines and
sequence numbers, and no later one does.
-/

namespace Upse

open ErrorState Kernel Scheduler

variable {k k' : Kernel} {event : EventId} {entry : Deadline × ℕ}

/-- The scheduled event a report is about. -/
def KernelEvent.source : KernelEvent → EventId
  | .threadReady id => waitEvent id
  | .alarm id _ => alarmEvent id

/-! ### What one advance reports -/

theorem Kernel.Sound.source_of_report (sound : k.Sound) {e : Entry} {reported : KernelEvent}
    (queued : e ∈ k.scheduler.queue.toList) (report : k.report e = some reported) :
    reported.source = e.id := by
  unfold Kernel.report at report
  rcases sound.entry queued with ⟨id, reason, same, wait, -⟩ | ⟨id, alarm, same, found⟩
  · rw [if_pos wait] at report
    cases report
    show waitEventBase + (e.id - waitEventBase) = e.id
    rw [same]
    exact Nat.add_sub_of_le (Nat.le_add_right _ _)
  · have notWait : ¬ e.id < alarmEventBase := by
      rw [same, not_lt]
      exact Nat.le_add_right _ _
    rw [if_neg notWait, same, alarmEvent, Nat.add_sub_cancel_left, found] at report
    cases report
    exact same.symm

/-- In queue order the due entries are all those whose deadline is reached. -/
theorem Kernel.mem_due {e : Entry} {now : Deadline} :
    e ∈ k.due now ↔ e ∈ k.scheduler.queue.toList ∧ e.deadline ≤ now := by
  unfold Kernel.due
  have sorted := k.scheduler.queue.sorted
  generalize k.scheduler.queue.toList = entries at sorted ⊢
  induction entries with
  | nil => simp
  | cons f entries ih =>
    rw [List.pairwise_cons] at sorted
    by_cases reached : f.deadline ≤ now
    · have rest : e ∈ entries.takeWhile (·.deadline ≤ now) ↔ e ∈ entries ∧ e.deadline ≤ now :=
        ih sorted.2
      rw [List.takeWhile_cons_of_pos (by simpa using reached), List.mem_cons, rest, List.mem_cons]
      constructor
      · rintro (rfl | ⟨member, le⟩)
        · exact ⟨.inl rfl, reached⟩
        · exact ⟨.inr member, le⟩
      · rintro ⟨rfl | member, le⟩
        · exact .inl rfl
        · exact .inr ⟨member, le⟩
    · rw [List.takeWhile_cons_of_neg (by simpa using reached)]
      constructor
      · rintro ⟨⟩
      · rintro ⟨member, le⟩
        rcases List.mem_cons.mp member with rfl | member
        · exact absurd le reached
        · exact absurd ((Entry.deadline_le_of_le (sorted.1 e member).le).trans le) reached

variable {events : List KernelEvent} {deadline sequence : ℕ}

/-- An advance that returned reported the due entries, one each and in queue order, and left the
others. -/
theorem advanceTo_ok (sound : k.Sound) {now : Deadline}
    (ran : (advanceTo now).run k = .ok events k') : k.now ≤ now ∧
      events.map some = (k.due now).map k.report ∧
      events.map KernelEvent.source = (k.due now).map (·.id) ∧ k'.Sound ∧
      k'.scheduler.queue.toList = k.scheduler.queue.toList.dropWhile (·.deadline ≤ now) := by
  by_cases past : now < k.now
  · rw [advanceTo_of_lt past] at ran
    cases ran
  have later := not_lt.mp past
  rw [advanceTo_run sound later] at ran
  rcases deliverAll_run (sound.atTime now) (k.queue_due now) with
    ⟨_, failed, -⟩ | ⟨k₁, events', ran', reported, sound', queue', -, -⟩
  · rw [ran] at failed
    cases failed
  · rw [ran] at ran'
    cases ran'
    have reports : events.map some = (k.due now).map k.report := reported
    refine ⟨later, reports, ?_, sound', queue'⟩
    -- each report names the event of its entry
    have sources (entries : List Entry) (events : List KernelEvent)
        (queued : ∀ e ∈ entries, e ∈ k.scheduler.queue.toList)
        (reports : events.map some = entries.map k.report) :
        events.map KernelEvent.source = entries.map (·.id) := by
      induction entries generalizing events with
      | nil =>
        rw [List.map_nil, List.map_eq_nil_iff] at reports
        rw [reports]
        rfl
      | cons e entries ih =>
        cases events with
        | nil => cases reports
        | cons event events =>
          rw [List.map_cons, List.map_cons, List.cons.injEq] at reports
          rw [List.map_cons, List.map_cons,
            sound.source_of_report (queued e List.mem_cons_self) reports.1.symm,
            ih events (fun f member => queued f (List.mem_cons_of_mem _ member)) reports.2]
    exact sources _ _ (fun e member => (mem_due.mp member).1) reports

theorem advanceTo_error (sound : k.Sound) {now : Deadline} {e : BiosError} (later : k.now ≤ now)
    (ran : (advanceTo now).run k = .error e k') : k'.OrdersExhausted := by
  rw [advanceTo_run sound later] at ran
  rcases deliverAll_run (sound.atTime now) (k.queue_due now) with
    ⟨_, failed, full⟩ | ⟨_, _, ran', -⟩
  · rw [ran] at failed
    cases failed
    exact full
  · rw [ran] at ran'
    cases ran'

theorem Kernel.nodup_sources (k : Kernel) (now : Deadline) : ((k.due now).map (·.id)).Nodup := by
  have distinct : k.scheduler.queue.toList.Nodup := k.scheduler.queue.sorted.imp ne_of_lt
  refine List.Nodup.map_on ?_ (distinct.sublist (List.takeWhile_sublist _))
  intro e member f member' same
  have entries := (mem_queue.mp (mem_due.mp member).1).symm.trans
    (same ▸ mem_queue.mp (mem_due.mp member').1)
  obtain ⟨d, q, i⟩ := e
  obtain ⟨d', q', i'⟩ := f
  simp only [Option.some.injEq, Prod.mk.injEq] at entries
  obtain ⟨rfl, rfl⟩ := entries
  cases same
  rfl

theorem advanceTo_reports (sound : k.Sound) {now deadline sequence : ℕ}
    (held : k.scheduler.pending event = some (deadline, sequence))
    (ran : (advanceTo now).run k = .ok events k') :
    (events.map KernelEvent.source).count event = (if deadline ≤ now then 1 else 0) ∧
      k'.scheduler.pending event = if deadline ≤ now then none else some (deadline, sequence) := by
  obtain ⟨-, -, sources, -, queue⟩ := advanceTo_ok sound ran
  have queued : (⟨deadline, sequence, event⟩ : Entry) ∈ k.scheduler.queue.toList :=
    mem_queue.mpr held
  have unique {e : Entry} (member : e ∈ k.scheduler.queue.toList) (same : e.id = event) :
      e = ⟨deadline, sequence, event⟩ := by
    have entry := (mem_queue.mp member).symm.trans (same ▸ held)
    obtain ⟨d, q, i⟩ := e
    simp only [Option.some.injEq, Prod.mk.injEq] at entry
    obtain ⟨rfl, rfl⟩ := entry
    cases same
    rfl
  have rest : ∀ e, e ∈ k'.scheduler.queue.toList ↔ e ∈ k.scheduler.queue.toList ∧ ¬ e ∈ k.due now := by
    intro e
    have distinct : (k.due now ++ k.scheduler.queue.toList.dropWhile (·.deadline ≤ now)).Nodup := by
      rw [← k.queue_due now]
      exact k.scheduler.queue.sorted.imp ne_of_lt
    have whole : e ∈ k.scheduler.queue.toList ↔ e ∈ k.due now ∨
        e ∈ k.scheduler.queue.toList.dropWhile (·.deadline ≤ now) := by
      conv_lhs => rw [k.queue_due now]
      exact List.mem_append
    have disjoint := (List.nodup_append.mp distinct).2.2
    rw [queue, whole]
    constructor
    · exact fun member => ⟨.inr member, fun due => disjoint e due e member rfl⟩
    · exact fun h => h.1.resolve_left h.2
  rw [sources]
  split
  next reached =>
    constructor
    · apply List.count_eq_one_of_mem (k.nodup_sources now)
      exact List.mem_map.mpr ⟨_, mem_due.mpr ⟨queued, reached⟩, rfl⟩
    · cases held' : k'.scheduler.pending event with
      | none => rfl
      | some entry =>
        have member' : (⟨entry.1, entry.2, event⟩ : Entry) ∈ k'.scheduler.queue.toList :=
          mem_queue.mpr held'
        obtain ⟨member, notDue⟩ := (rest _).mp member'
        rw [unique member rfl] at notDue
        exact absurd (mem_due.mpr ⟨queued, reached⟩) notDue
  next early =>
    have notDue : (⟨deadline, sequence, event⟩ : Entry) ∉ k.due now :=
      fun due => early (mem_due.mp due).2
    constructor
    · apply List.count_eq_zero_of_not_mem
      intro member
      obtain ⟨e, due, same⟩ := List.mem_map.mp member
      rw [unique (mem_due.mp due).1 same] at due
      exact notDue due
    · exact mem_queue.mp ((rest _).mpr ⟨queued, notDue⟩)

/-! ### What keeps an event scheduled -/

theorem Kernel.waitEvent_lt {id : ℕ} {v : ThreadState × ℕ} (exists_ : k.view id = some v) :
    waitEvent id < alarmEventBase := by
  obtain ⟨thread, found, -⟩ := view_eq_some.mp exists_
  have range : id < 1 + 64 := (FixedTable.range_of_get found).2
  show 0x1000 + id < 0x2000
  omega

theorem Kernel.Sound.pending_running (sound : k.Sound) {id : ℕ} (running : k.currentThread = some id) :
    k.scheduler.pending (waitEvent id) = none := by
  obtain ⟨order, view⟩ := sound.running id running
  cases held : k.scheduler.pending (waitEvent id) with
  | none => rfl
  | some entry =>
    rcases sound.events _ entry held with ⟨id', reason, order', same, view'⟩ | ⟨id', -, same, -⟩
    · have ids : id = id' := Nat.add_left_cancel same
      rw [ids, view'] at view
      cases view
    · have small := waitEvent_lt view
      rw [same] at small
      exact absurd (Nat.le_add_right alarmEventBase id') (not_le.mpr small)

/-- A change keeps a scheduled event, unless it ends the wait, cancels the alarm or pops the queue. -/
theorem Kernel.Does.pending_kept {act : Act} (h : k.Does act k') (sound : k.Sound)
    (held : k.scheduler.pending event = some entry) :
    k'.scheduler.pending event = some entry ∨ k.OrdersExhausted ∨
      (∃ id reason result value, act = .wake id reason result value ∧ event = waitEvent id ∧ event < alarmEventBase) ∨
      (∃ id, act = .cancelAlarm id ∧ event = alarmEvent id) ∨ act = .pop ∨ act = .fire := by
  have cancelled {id : EventId} (ne : event ≠ id) :
      (k.scheduler.cancel id).2.pending event = some entry := by
    rw [Scheduler.pending_cancel, if_neg ne, held]
  have not_running {id : ℕ} (running : k.currentThread = some id) : event ≠ waitEvent id := by
    rintro rfl
    rw [sound.pending_running running] at held
    cases held
  cases h with
  | @wake id reason result value waiting _ =>
    by_cases same : event = waitEvent id
    · obtain ⟨order, view⟩ := waitReasonOf_iff_view.mp waiting
      exact .inr (.inr (.inl ⟨id, reason, result, value, rfl, same, same ▸ waitEvent_lt view⟩))
    · exact .inl (cancelled same)
  | disarm full => exact .inr (.inl full)
  | exit running => exact .inl (cancelled (not_running running))
  | erase running => exact .inl (cancelled (not_running running))
  | @cancelAlarm id =>
    by_cases same : event = alarmEvent id
    · exact .inr (.inr (.inr (.inl ⟨id, rfl, same⟩)))
    · exact .inl (cancelled same)
  | pop _ _ => exact .inr (.inr (.inr (.inr (.inl rfl))))
  | fire _ => exact .inr (.inr (.inr (.inr (.inr rfl))))
  | @block id _ _ deadline scheduler running armed =>
    cases deadline with
    | none => cases armed; exact .inl held
    | some deadline =>
      obtain ⟨-, -, pending⟩ := Scheduler.schedule_spec armed
      left
      show scheduler.pending event = some entry
      rw [pending, if_neg (not_running running), held]
  | @setAlarm id deadline scheduler alarm alarms scheduled inserted =>
    obtain ⟨-, -, pending⟩ := Scheduler.schedule_spec scheduled
    obtain ⟨free, -⟩ := FixedTable.insertAt_eq_ok inserted
    left
    show scheduler.pending event = some entry
    rw [pending, if_neg, held]
    rintro rfl
    rcases sound.events _ entry held with ⟨id', reason, order, same, view⟩ | ⟨id', alarm', same, found⟩
    · have small := waitEvent_lt view
      rw [← same] at small
      exact absurd (Nat.le_add_right alarmEventBase id) (not_le.mpr small)
    · rw [Nat.add_left_cancel same, found] at free
      cases free
  | create core _ _ => exact .inl ((congrArg (·.scheduler.pending event) core :).trans held)
  | touch core _ _ => exact .inl ((congrArg (·.scheduler.pending event) core :).trans held)
  | unqueue _ => exact .inl ((congrArg (·.scheduler.pending event) (core_removeWaiter k _ _) :).trans held)
  | _ => exact .inl held

/-- A call leaves an event alone: it does not reset the kernel or exhaust the ready orders, does not
cancel the alarm, and does not complete the wait. -/
structure Call.Keeps (call : Call) (event : EventId) : Prop where
  lives : call.op ≠ .reset
  fresh : ¬ call.after.OrdersExhausted
  alarm : ∀ id, event = alarmEvent id → call.op ≠ .cancelAlarm id
  wait : ∀ id, event = waitEvent id → event < alarmEventBase → call.after.waitReasonOf id ≠ none

theorem step_keeps (sound : k.Sound) (op : Op) (context : CpuContext)
    (held : k.scheduler.pending event = some entry) (keeps : (Call.of k op context).Keeps event)
    (timeless : op.advances = false) :
    (leaves ((step op context).run k)).scheduler.pending event = some entry := by
  have all := (step_acts sound.running keeps.lives context).preserves
    (I := fun a => a.Sound ∧ (a.OrdersExhausted ∨ a.scheduler.pending event = some entry ∨
      (∃ id, event = waitEvent id ∧ event < alarmEventBase ∧ a.waitReasonOf id = none ∧
        op.blocks = false) ∨ ∃ id, event = alarmEvent id ∧ op = .cancelAlarm id))
    ⟨sound, .inr (.inl held)⟩ ?_
  · rcases all.2 with full | held | ⟨id, wait, small, idle, -⟩ | ⟨id, alarm, cancels⟩
    · exact absurd full keeps.fresh
    · exact held
    · exact absurd idle (keeps.wait id wait small)
    · exact absurd cancels (keeps.alarm id alarm)
  · rintro a b act allowed does ⟨sound, state⟩
    refine ⟨does.sound sound, ?_⟩
    rcases state with full | held | ⟨id, wait, small, idle, noBlock⟩ | cancelled
    · left
      have order := does.order_le sound.running
      unfold OrdersExhausted at *
      omega
    · rcases does.pending_kept sound held with
        held' | full | ⟨id, reason, _, _, rfl, wait, small⟩ | ⟨id, rfl, alarm⟩ | rfl | rfl
      · exact .inr (.inl held')
      · left
        have order := does.order_le sound.running
        unfold OrdersExhausted at *
        omega
      · refine .inr (.inr (.inl ⟨id, wait, small, ?_, allowed.1⟩))
        cases does with
        | wake => rw [waitReasonOf_wake, if_pos rfl]
      · exact .inr (.inr (.inr ⟨id, alarm, allowed⟩))
      · exact absurd (timeless.symm.trans allowed) (by simp)
      · exact absurd (timeless.symm.trans allowed) (by simp)
    · refine .inr (.inr (.inl ⟨id, wait, small, ?_, noBlock⟩))
      cases after : b.waitReasonOf id with
      | none => rfl
      | some reason =>
        rcases does.wait_origin after with old | rfl
        · rw [idle] at old
          cases old
        · exact absurd (noBlock.symm.trans allowed.1) (by simp)
    · exact .inr (.inr (.inr cancelled))

theorem advances_of_events {op : Op} {context c : CpuContext}
    (returned : outcome ((step op context).run k) = .ok (.events events, c)) :
    op.advances = true := by
  have value {α : Type} {f : α → Reply × CpuContext} {m : KernelM α}
      (returned : outcome ((f <$> m).run k) = .ok (.events events, c)) :
      ∃ a, f a = (.events events, c) := by
    rw [outcome_map] at returned
    cases ran : outcome (m.run k) with
    | error e => rw [ran] at returned; cases returned
    | ok a =>
      rw [ran] at returned
      exact ⟨a, Except.ok.inj returned⟩
  cases op with
  | advanceTo => rfl
  | waitSemaphore =>
    obtain ⟨⟨action, _⟩, eq⟩ := value returned
    cases action <;> cases eq
  | waitEventFlag =>
    obtain ⟨⟨bits | action, _⟩, eq⟩ := value returned <;> cases eq
  | receiveMessage =>
    obtain ⟨⟨message | action, _⟩, eq⟩ := value returned <;> cases eq
  | allocateFixed =>
    obtain ⟨⟨address | action, _⟩, eq⟩ := value returned <;> cases eq
  | allocateVariable =>
    obtain ⟨⟨address | action, _⟩, eq⟩ := value returned <;> cases eq
  | _ =>
    obtain ⟨a, eq⟩ := value returned
    cases eq

theorem step_unreported (sound : k.Sound) (op : Op) (context : CpuContext)
    (held : k.scheduler.pending event = some (deadline, sequence))
    (keeps : (Call.of k op context).Keeps event) (early : ∀ now, op = .advanceTo now → now < deadline) :
    (leaves ((step op context).run k)).scheduler.pending event = some (deadline, sequence) ∧
      ∀ events c, outcome ((step op context).run k) = .ok (.events events, c) →
        event ∉ events.map KernelEvent.source := by
  by_cases advances : op.advances = true
  · cases op with
    | advanceTo now =>
      have before := early now rfl
      have after : leaves ((step (.advanceTo now) context).run k) =
          leaves ((advanceTo now).run k) := leaves_map _ _ _
      have result : outcome ((step (.advanceTo now) context).run k) =
          (outcome ((advanceTo now).run k)).map fun events => (.events events, context) :=
        outcome_map _ _ _
      have fresh : ¬ (leaves ((advanceTo now).run k)).OrdersExhausted := after ▸ keeps.fresh
      rw [after, result]
      cases ran : (advanceTo now).run k with
      | ok events k' =>
        obtain ⟨count, kept⟩ := advanceTo_reports sound held ran
        rw [if_neg (not_le.mpr before)] at count kept
        refine ⟨kept, fun events' c returned => ?_⟩
        cases returned
        exact List.count_eq_zero.mp count
      | error e k' =>
        rw [ran] at fresh
        refine ⟨?_, fun _ _ returned => by cases returned⟩
        by_cases past : now < k.now
        · rw [advanceTo_of_lt past] at ran
          cases ran
          exact held
        · exact absurd (advanceTo_error sound (not_lt.mp past) ran) fresh
    | _ => cases advances
  · refine ⟨step_keeps sound op context held keeps (Bool.not_eq_true _ ▸ advances), ?_⟩
    intro events c returned
    exact absurd (advances_of_events returned) advances

/-! ### What schedules an event -/

/-- A call that arms an event at a deadline: it sets an alarm, or blocks its caller with a timeout or
for a delay. -/
inductive Call.Arms (call : Call) : EventId → Deadline → Prop
  | alarm {delay : Ticks} {entry : ℕ} {argument : Word} {guestRange : GuestRange} {id : ℕ}
      {context : CpuContext} : call.op = .setAlarm delay entry argument guestRange →
      call.result = .ok (.handle id, context) → call.Arms (alarmEvent id) (call.before.now + delay)
  | wait {ticks : Ticks} {thread : ℕ} {action : ScheduleAction} {context : CpuContext} :
      call.op.timeout = some ticks → call.before.currentThread = some thread →
      call.result = .ok (.action action, context) →
      call.Arms (waitEvent thread) (call.before.now + ticks)
  | delay {ticks : Ticks} {thread : ℕ} {action : ScheduleAction} {context : CpuContext} :
      call.op = .delayCurrent ticks → ticks ≠ 0 → call.before.currentThread = some thread →
      call.result = .ok (.action action, context) →
      call.Arms (waitEvent thread) (call.before.now + ticks)

theorem Kernel.scheduler_dispatchBest (k : Kernel) : k.dispatchBest.scheduler = k.scheduler := by
  unfold dispatchBest
  split <;> rfl

theorem setAlarm_pending {delay : Ticks} {entry id : ℕ} {argument : Word} {guestRange : GuestRange}
    (ran : (setAlarm delay entry argument guestRange).run k = .ok id k') :
    k'.scheduler.pending (alarmEvent id) = some (k.now + delay, k.scheduler.nextSequence) := by
  obtain ⟨_, k₁, checked, rest⟩ := run_bind_ok.mp ran
  have same : k₁ = k := by
    unfold check at checked
    split at checked <;> cases checked
    rfl
  subst same
  simp only [run_bind, run_get] at rest
  cases advanced : Deadline.checkedAdvance k₁.now delay with
  | error e => rw [advanced] at rest; cases rest
  | ok deadline =>
    obtain ⟨-, rfl⟩ := Deadline.checkedAdvance_eq_ok.mp advanced
    rw [advanced] at rest
    cases free : k₁.alarms.nextId with
    | none => rw [free] at rest; cases rest
    | some id' =>
      simp only [free, orFail, run_bind, run_okOr_some] at rest
      cases scheduled : k₁.scheduler.schedule (alarmEvent id') (k₁.now + delay) with
      | error e => rw [scheduled] at rest; cases rest
      | ok scheduler =>
        rw [scheduled] at rest
        obtain ⟨-, -, pending⟩ := Scheduler.schedule_spec scheduled
        simp only [run_bind, run_set] at rest
        cases inserted : k₁.alarms.insertAt id' ⟨entry, argument⟩ with
        | error e => simp [inserted, check] at rest
        | ok alarms =>
          simp only [inserted, check, run_pure, run_modify] at rest
          cases rest
          show scheduler.pending _ = _
          rw [pending, if_pos rfl]

theorem arms_pending (sound : k.Sound) {op : Op} {context : CpuContext} {deadline : Deadline}
    (arms : (Call.of k op context).Arms event deadline) :
    (Call.of k op context).after.scheduler.pending event =
      some (deadline, k.scheduler.nextSequence) := by
  cases arms with
  | @alarm delay entry argument guestRange id c same returned =>
    cases same
    have result : outcome ((setAlarm delay entry argument guestRange).run k) = .ok id := by
      have mapped : (outcome ((setAlarm delay entry argument guestRange).run k)).map
          (fun id => (Reply.handle id, context)) = .ok (.handle id, c) :=
        (outcome_map _ _ _).symm.trans returned
      cases ran : outcome ((setAlarm delay entry argument guestRange).run k) with
      | error e => rw [ran] at mapped; cases mapped
      | ok id' => rw [ran] at mapped; cases mapped; rfl
    have after : (Call.of k (.setAlarm delay entry argument guestRange) context).after =
        leaves ((setAlarm delay entry argument guestRange).run k) := leaves_map _ _ _
    rw [after]
    cases ran : (setAlarm delay entry argument guestRange).run k with
    | error e k' => rw [ran] at result; cases result
    | ok id' k' =>
      rw [ran] at result
      cases result
      exact setAlarm_pending ran
  | @wait ticks thread action c timeout running returned =>
    have running : k.currentThread = some thread := running
    have timeout : op.timeout = some ticks := timeout
    have object : op.waitsOnObject = true := by
      cases op <;> first | rfl | cases timeout
    have returned : outcome ((step op context).run k) = .ok (.action action, c) := returned
    obtain ⟨_, -, waits⟩ | ⟨e, failed⟩ | ⟨reply, k', ok, taken⟩ :=
      step_takes (k := k) (Op.takes_of_waitsOnObject object) context
    · obtain ⟨enqueue, reason, o, -, -, enqueues, run⟩ := step_of_mustWait running waits context
      by_cases cannot : k.CannotArm ticks
      · obtain ⟨e, k', failed, -⟩ :=
          enqueueAndBlock_error enqueues.1 sound.running running cannot context reason
        rw [run, run_map, timeout, failed] at returned
        cases returned
      · have fits : ∀ t, op.timeout = some t → ¬ k.CannotArm t := by
          intro t eq
          rw [timeout] at eq
          cases eq
          exact cannot
        obtain ⟨context', scheduler, armed, ran⟩ :=
          enqueueAndBlock_armed enqueues.1 sound.running running fits context reason
        have after : (Call.of k op context).after =
            ((enqueue k).block thread context reason scheduler).dispatchBest := by
          show leaves ((step op context).run k) = _
          rw [run, run_map, ran]
          rfl
        rw [timeout] at armed
        obtain ⟨-, -, pending⟩ := Scheduler.schedule_spec armed
        rw [after, scheduler_dispatchBest]
        show scheduler.pending _ = _
        rw [pending, if_pos rfl]
        rfl
    · rw [failed] at returned
      cases returned
    · rw [ok] at returned
      cases returned
      exact absurd rfl (taken.reply_ne action)
  | @delay ticks thread action c same positive running returned =>
    cases same
    have running : k.currentThread = some thread := running
    have unfolded : (delayCurrent ticks context).run k =
        (waitDeadline (some ticks) >>= fun deadline => blockCurrent context .delay deadline).run k := by
      unfold delayCurrent
      rw [if_neg positive]
    have after : (Call.of k (.delayCurrent ticks) context).after =
        leaves ((delayCurrent ticks context).run k) := leaves_map _ _ _
    have result : (outcome ((delayCurrent ticks context).run k)).map
        (fun r => (Reply.action r.1, r.2)) = .ok (.action action, c) :=
      (outcome_map _ _ _).symm.trans returned
    rw [after]
    rw [unfolded, run_bind] at result ⊢
    obtain ⟨order, view⟩ := sound.running thread running
    obtain ⟨record, found, -, -⟩ := view_eq_some.mp view
    by_cases fits : k.now + ticks < 2 ^ 64
    · rw [waitDeadline_of_lt fits] at result ⊢
      dsimp only at result ⊢
      cases armed : k.arm thread (some (k.now + ticks)) with
      | error e =>
        rw [blockCurrent_of_unarmed running found armed context .delay] at result
        cases result
      | ok scheduler =>
        have ran := blockCurrent_of_armed running found armed context .delay
        obtain ⟨-, -, pending⟩ := Scheduler.schedule_spec armed
        rw [ran, leaves_ok, scheduler_dispatchBest]
        show scheduler.pending _ = _
        rw [pending, if_pos rfl]
        rfl
    · rw [waitDeadline_of_le (not_lt.mp fits)] at result
      cases result

/-! ### Every run -/

theorem armed_history (h : Reachable k)
    (held : k.scheduler.pending event = some (deadline, sequence)) {calls : List Call}
    (run : Run Steps k calls k') (keeps : ∀ call ∈ calls, call.Keeps event)
    (early : ∀ call ∈ calls, ∀ now, call.op = .advanceTo now → now < deadline) :
    k'.scheduler.pending event = some (deadline, sequence) ∧
      ∀ call ∈ calls, ∀ events context, call.result = .ok (.events events, context) →
        event ∉ events.map KernelEvent.source := by
  have history := (run.restrict (P := fun call => call.Keeps event ∧
    ∀ now, call.op = .advanceTo now → now < deadline)
    fun call member => ⟨keeps call member, early call member⟩).history
    (H := fun calls a => Reachable a ∧ a.scheduler.pending event = some (deadline, sequence) ∧
      ∀ call ∈ calls, ∀ events context, call.result = .ok (.events events, context) →
        event ∉ events.map KernelEvent.source) ⟨h, held, by simp⟩ ?_
  · exact history.2
  · rintro calls a call b ⟨reachable, held, silent⟩ ⟨⟨eq, rfl⟩, keeps, early⟩
    rw [eq] at keeps early
    obtain ⟨held', silent'⟩ := step_unreported reachable.sound call.op call.context held keeps early
    rw [eq]
    refine ⟨reachable.step call.op call.context, held', fun call' member => ?_⟩
    rcases List.mem_append.mp member with old | new
    · exact silent call' old
    · rw [List.mem_singleton.mp new]
      exact silent'

/-- A scheduled entry that is gone never comes back, as long as the kernel is not reset. -/
theorem gone_history (h : Reachable k)
    (old : sequence < k.scheduler.nextSequence)
    (gone : k.scheduler.pending event ≠ some (deadline, sequence)) {calls : List Call}
    (run : Run Steps k calls k') (lives : ∀ call ∈ calls, call.op ≠ .reset) :
    k'.scheduler.pending event ≠ some (deadline, sequence) := by
  have history := (run.restrict lives).invariant
    (I := fun a => Reachable a ∧ sequence < a.scheduler.nextSequence ∧
      a.scheduler.pending event ≠ some (deadline, sequence)) ⟨h, old, gone⟩ ?_
  · exact history.2.2
  · rintro a call b ⟨reachable, old, gone⟩ ⟨⟨eq, rfl⟩, lives⟩
    rw [eq]
    have all := (step_acts reachable.sound.running lives call.context).preserves
      (I := fun a => a.Sound ∧ sequence < a.scheduler.nextSequence ∧
        a.scheduler.pending event ≠ some (deadline, sequence)) ⟨reachable.sound, old, gone⟩ ?_
    · exact ⟨reachable.step call.op call.context, all.2⟩
    · rintro a b act - does ⟨sound, old, gone⟩
      refine ⟨does.sound sound, old.trans_le does.sequence_le, fun held => ?_⟩
      rcases does.pending_origin sound.running held with before | ⟨new, -⟩
      · exact gone before
      · exact old.ne new

/-- Advancing in two steps is advancing once, an advance fails only when the ready orders are
exhausted, and it reports exactly the due events, one each, by deadline and sequence.  An alarm that is
not cancelled and a timed wait that is not completed is reported by no advance before its deadline, by
the first one that reaches it exactly once, and its entry never comes back. -/
theorem advance_reports (h : Reachable k) :
    (∀ a b events k', k.now ≤ a → a ≤ b → ((do
        let early ← advanceTo a
        let late ← advanceTo b
        return early ++ late : KernelM (List KernelEvent)).run k = .ok events k' ↔
      (advanceTo b).run k = .ok events k')) ∧
    (∀ b e k', k.now ≤ b → (advanceTo b).run k = .error e k' → k'.OrdersExhausted) ∧
    (∀ b events k', (advanceTo b).run k = .ok events k' →
      events.map some = (k.due b).map k.report ∧
      events.map KernelEvent.source = (k.due b).map (·.id) ∧
      (k.due b).Pairwise (fun e f => e.deadline < f.deadline ∨
        e.deadline = f.deadline ∧ e.sequence < f.sequence) ∧
      ∀ e, e ∈ k.due b ↔ k.scheduler.pending e.id = some (e.deadline, e.sequence) ∧
        e.deadline ≤ b) ∧
    ∀ op context event deadline calls k', (Call.of k op context).Arms event deadline →
      Run Steps (Call.of k op context).after calls k' → (∀ call ∈ calls, call.Keeps event) →
      (∀ call ∈ calls, ∀ now, call.op = .advanceTo now → now < deadline) →
      (∀ call ∈ calls, ∀ events context, call.result = .ok (.events events, context) →
        event ∉ events.map KernelEvent.source) ∧
      ∀ b events k'', (advanceTo b).run k' = .ok events k'' →
        (events.map KernelEvent.source).count event = (if deadline ≤ b then 1 else 0) ∧
        (deadline ≤ b → ∀ later k₃, Run Steps k'' later k₃ → (∀ call ∈ later, call.op ≠ .reset) →
          k₃.scheduler.pending event ≠ some (deadline, k.scheduler.nextSequence)) := by
  refine ⟨?_, ?_, ?_, ?_⟩
  · exact fun a b events k' first second => advanceTo_advanceTo h.sound first second
  · exact fun b e k' later ran => advanceTo_error h.sound later ran
  · intro b events k' ran
    obtain ⟨-, reports, sources, -, -⟩ := advanceTo_ok h.sound ran
    refine ⟨reports, sources, ?_, fun e => mem_due.trans (and_congr_left fun _ => mem_queue)⟩
    have sorted := k.scheduler.queue.sorted.sublist (List.takeWhile_sublist (·.deadline ≤ b))
    refine sorted.imp_of_mem fun {e f} member member' less => ?_
    rcases Entry.lt_iff.mp less with earlier | ⟨same, smaller | ⟨equal, -⟩⟩
    · exact .inl earlier
    · exact .inr ⟨same, smaller⟩
    · have eq := k.scheduler.distinct e (mem_due.mp member).1 f (mem_due.mp member').1 equal
      exact absurd less (eq ▸ lt_irrefl e)
  · intro op context event deadline calls k' arms run keeps early
    have reachable : Reachable (Call.of k op context).after := h.step op context
    have held := arms_pending h.sound arms
    obtain ⟨held', silent⟩ := armed_history reachable held run keeps early
    obtain ⟨before, run₀⟩ := reachable
    have reachable' : Reachable k' := ⟨_, run₀.append run⟩
    refine ⟨silent, fun b events k'' ran => ?_⟩
    obtain ⟨count, kept⟩ := advanceTo_reports reachable'.sound held' ran
    refine ⟨count, fun reached later k₃ run₃ lives => ?_⟩
    rw [if_pos reached] at kept
    have reachable'' : Reachable k'' := by
      have step := reachable'.step (.advanceTo b) context
      rw [show leaves ((Upse.step (.advanceTo b) context).run k') = k'' by
        rw [Upse.step, leaves_map, ran, leaves_ok]] at step
      exact step
    -- the sequence number was given out before
    have old : k.scheduler.nextSequence < k''.scheduler.nextSequence := by
      have fresh := k'.scheduler.fresh ⟨deadline, k.scheduler.nextSequence, event⟩ (mem_queue.mpr held')
      have order := (step_counters reachable'.sound.running
        (show Op.advanceTo b ≠ .reset by simp) context).2
      rw [show leaves ((Upse.step (.advanceTo b) context).run k') = k'' by
        rw [Upse.step, leaves_map, ran, leaves_ok]] at order
      exact fresh.trans_le order
    exact gone_history reachable'' old (by rw [kept]; simp) run₃ lives

/-- An alarm at time 5 is not reported by an advance to 3, and reported once by the next one to 7. -/
theorem advance_reports_sample :
    let armed := (Call.of Kernel.new (.setAlarm 5 0x1000 0 sampleRange) sampleContext).after
    let k := armed.after sampleContext [.advanceTo 3]
    (∃ events k', (advanceTo 7).run k = .ok events k' ∧
      (events.map KernelEvent.source).count (alarmEvent 1) = 1) := by
  intro armed k
  have returned : (Call.of Kernel.new (.setAlarm 5 0x1000 0 sampleRange) sampleContext).result =
      .ok (.handle 1, sampleContext) := by decide +kernel
  have arms : (Call.of Kernel.new (.setAlarm 5 0x1000 0 sampleRange) sampleContext).Arms
      (alarmEvent 1) 5 := .alarm rfl returned
  have keeps : ∀ call ∈ armed.history sampleContext [.advanceTo 3], call.Keeps (alarmEvent 1) := by
    intro call member
    rw [Kernel.history, Kernel.history, List.mem_singleton] at member
    subst member
    refine ⟨Op.noConfusion, by unfold OrdersExhausted; decide +kernel, fun _ _ => Op.noConfusion, ?_⟩
    exact fun id same small => absurd small (by decide)
  have early : ∀ call ∈ armed.history sampleContext [.advanceTo 3], ∀ now,
      call.op = .advanceTo now → now < 5 := by
    intro call member now same
    rw [Kernel.history, Kernel.history, List.mem_singleton] at member
    subst member
    cases same
    decide
  have ran : (outcome ((advanceTo 7).run k)).toOption.any (fun _ => true) = true := by decide +kernel
  obtain ⟨events, ok, -⟩ := exists_run_ok ran
  exact ⟨events, _, ok, (((advance_reports reachable_new).2.2.2 _ _ _ _ _ _ arms
    (run_history armed sampleContext [.advanceTo 3]) keeps early).2 7 events _ ok).1⟩

end Upse
