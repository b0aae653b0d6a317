import Upse.Bios.Kernel.Decomposition.Calls

/-!
# Invariants of every run

What holds in every state any sequence of calls can reach, whatever the calls return: the running
thread, the ready orders, and the events the scheduler holds.
-/

namespace Upse

open ErrorState

namespace Kernel

/-- A thread competes for the processor with the given ready order. -/
def Live (k : Kernel) (id order : ℕ) : Prop :=
  k.view id = some (.ready, order) ∨ k.view id = some (.running, order)

/-- The agreement between threads, ready orders, events and alarms. -/
structure Sound (k : Kernel) : Prop where
  running : k.RunningSound
  bounded : ∀ id order, k.Live id order → order < k.nextReadyOrder
  distinct : ∀ id other order, k.Live id order → k.Live other order → id = other
  events : ∀ event entry, k.scheduler.pending event = some entry →
    (∃ id reason order, event = waitEvent id ∧ k.view id = some (.waiting reason, order)) ∨
    (∃ id alarm, event = alarmEvent id ∧ k.alarms.get id = some alarm)

/-! ### Ready orders -/

variable {k k' : Kernel} {entry : Deadline × ℕ}

theorem Moves.live (h : Moves k k') {id order : ℕ} (live : k'.Live id order) :
    k.Live id order ∨ order = k.nextReadyOrder ∧ k'.nextReadyOrder = k.nextReadyOrder + 1 ∧
      ∀ other, k'.Live other order → other = id ∨ k.Live other order := by
  unfold Live at *
  cases h <;> simp_all [Function.update_apply] <;> grind

theorem Moves.order_le (h : Moves k k') : k.nextReadyOrder ≤ k'.nextReadyOrder := by
  cases h <;> omega

theorem Moves.ready_origin (h : Moves k k') {id order : ℕ}
    (ready : k'.view id = some (.ready, order)) :
    k.view id = some (.ready, order) ∨ order = k.nextReadyOrder := by
  cases h <;> simp_all [Function.update_apply] <;> grind

theorem Moves.bounded (h : Moves k k')
    (bounded : ∀ id order, k.Live id order → order < k.nextReadyOrder) :
    ∀ id order, k'.Live id order → order < k'.nextReadyOrder := by
  intro id order live
  rcases h.live live with old | ⟨rfl, next, -⟩
  · exact (bounded id order old).trans_le h.order_le
  · rw [next]
    exact Nat.lt_succ_self _

theorem Moves.distinct (h : Moves k k')
    (bounded : ∀ id order, k.Live id order → order < k.nextReadyOrder)
    (distinct : ∀ id other order, k.Live id order → k.Live other order → id = other) :
    ∀ id other order, k'.Live id order → k'.Live other order → id = other := by
  intro id other order live live'
  rcases h.live live with old | ⟨rfl, -, unique⟩
  · rcases h.live live' with old' | ⟨rfl, -, -⟩
    · exact distinct id other order old old'
    · exact absurd (bounded id _ old) (lt_irrefl _)
  · rcases unique other live' with rfl | old'
    · rfl
    · exact absurd (bounded other _ old') (lt_irrefl _)

/-! ### Events -/

/-- An event the scheduler holds after a change was held before, or has the next sequence number and
belongs to a thread that waits or an alarm that exists. -/
theorem Does.pending_origin {act : Act} (h : Does k act k') (sound : k.RunningSound)
    {event : EventId} (held : k'.scheduler.pending event = some entry) :
    k.scheduler.pending event = some entry ∨ entry.2 = k.scheduler.nextSequence ∧
    ((∃ id reason order, event = waitEvent id ∧ k'.view id = some (.waiting reason, order)) ∨
      (∃ id alarm, event = alarmEvent id ∧ k'.alarms.get id = some alarm)) := by
  have cancelled {id : EventId} (held : (k.scheduler.cancel id).2.pending event = some entry) :
      k.scheduler.pending event = some entry := by
    rw [Scheduler.pending_cancel] at held
    split at held
    · cases held
    · exact held
  have popped {due : Option DueEvent} {scheduler : Scheduler}
      (pop : k.scheduler.popDue k.now = (due, scheduler))
      (held : scheduler.pending event = some entry) : k.scheduler.pending event = some entry := by
    cases due with
    | none => exact Scheduler.popDue_none pop ▸ held
    | some due =>
      obtain ⟨e, rest, -, -, -, -, -, -, pending⟩ := Scheduler.popDue_some pop
      rw [pending] at held
      split at held
      · cases held
      · exact held
  cases h with
  | wake _ _ => exact .inl (cancelled held)
  | disarm _ => exact .inl (cancelled held)
  | exit _ => exact .inl (cancelled held)
  | erase _ => exact .inl (cancelled held)
  | cancelAlarm => exact .inl (cancelled held)
  | pop pop _ => exact .inl (popped pop held)
  | fire pop => exact .inl (popped pop held)
  | @block id context reason deadline scheduler running armed =>
    cases deadline with
    | none => cases armed; exact .inl held
    | some deadline =>
      obtain ⟨-, -, pending⟩ := Scheduler.schedule_spec armed
      have held : scheduler.pending event = some entry := held
      rw [pending] at held
      split at held
      next same =>
        obtain ⟨thread, found, -⟩ := sound.found running
        refine .inr ⟨by cases held; rfl, .inl ⟨id, reason, thread.readyOrder, same, ?_⟩⟩
        rw [view_block found, Function.update_self]
      next => exact .inl held
  | @setAlarm id deadline scheduler alarm alarms scheduled inserted =>
    obtain ⟨-, -, pending⟩ := Scheduler.schedule_spec scheduled
    have held : scheduler.pending event = some entry := held
    rw [pending] at held
    split at held
    next same =>
      obtain ⟨-, -, -, get⟩ := FixedTable.insertAt_eq_ok inserted
      exact .inr ⟨by cases held; rfl, .inr ⟨id, alarm, same, (get id).trans (if_pos rfl)⟩⟩
    next => exact .inl held
  | create core _ _ => exact .inl ((congrArg (·.scheduler.pending event) core).symm.trans held)
  | touch core _ _ => exact .inl ((congrArg (·.scheduler.pending event) core).symm.trans held)
  | unqueue _ =>
    exact .inl ((congrArg (·.scheduler.pending event) (core_removeWaiter k _ _)).symm.trans held)
  | _ => exact .inl held

/-- A waiting thread whose timeout stays armed keeps waiting. -/
theorem Moves.wait_kept (h : Moves k k') {id order : ℕ} {reason : WaitReason}
    (waiting : k.view id = some (.waiting reason, order))
    (held : k'.scheduler.pending (waitEvent id) = some entry) :
    k'.view id = some (.waiting reason, order) := by
  cases h <;> simp_all [Function.update_apply] <;> grind

theorem Does.alarm_kept {act : Act} (h : Does k act k') {id : ℕ} {alarm : Alarm}
    (found : k.alarms.get id = some alarm)
    (held : k'.scheduler.pending (alarmEvent id) = some entry) : k'.alarms.get id = some alarm := by
  cases h with
  | setAlarm _ inserted =>
    obtain ⟨free, -, -, get⟩ := FixedTable.insertAt_eq_ok inserted
    rw [get, if_neg, found]
    rintro rfl
    rw [found] at free
    cases free
  | @cancelAlarm other =>
    rw [FixedTable.get_remove, if_neg, found]
    rintro rfl
    rw [Scheduler.pending_cancel, if_pos rfl] at held
    cases held
  | @fire other deadline scheduler pop =>
    rw [FixedTable.get_remove, if_neg, found]
    rintro rfl
    obtain ⟨e, rest, -, -, due, -, -, -, pending⟩ := Scheduler.popDue_some pop
    have held : scheduler.pending (alarmEvent id) = some entry := held
    rw [pending, if_pos (congrArg DueEvent.id due)] at held
    cases held
  | create core _ _ => exact (congrArg (·.alarms.get id) core :).trans found
  | touch core _ _ => exact (congrArg (·.alarms.get id) core :).trans found
  | unqueue _ => exact (congrArg (·.alarms.get id) (core_removeWaiter k _ _) :).trans found
  | _ => exact found

/-! ### Every run is sound -/

theorem Does.sound {act : Act} (h : Does k act k') (sound : k.Sound) : k'.Sound where
  running := h.runningSound sound.running
  bounded := (h.moves sound.running).bounded sound.bounded
  distinct := (h.moves sound.running).distinct sound.bounded sound.distinct
  events event entry held := by
    rcases h.pending_origin sound.running held with old | ⟨-, new⟩
    · rcases sound.events event entry old with ⟨id, reason, order, rfl, waiting⟩ | ⟨id, alarm, rfl, found⟩
      · exact .inl ⟨id, reason, order, rfl, (h.moves sound.running).wait_kept waiting held⟩
      · exact .inr ⟨id, alarm, rfl, h.alarm_kept found held⟩
    · exact new

theorem sound_new : Kernel.new.Sound where
  running := runningSound_new
  bounded id order live := by simp [Live] at live
  distinct id other order live := by simp [Live] at live
  events event entry held := by cases held

end Kernel

open Kernel

theorem Kernel.Sound.step {k : Kernel} (sound : k.Sound) (op : Op) (context : CpuContext) :
    (leaves ((step op context).run k)).Sound := by
  by_cases reset : op = .reset
  · rw [reset, reset_run]
    exact sound_new
  · exact (step_acts sound.running reset context).preserves sound fun _ _ _ _ does s => does.sound s

theorem Reachable.sound {k : Kernel} (h : Reachable k) : k.Sound :=
  h.invariant sound_new fun _ op context sound => sound.step op context

end Upse
