import Upse.Bios.Kernel.Decomposition.Rules

/-!
# The acts of the thread operations
-/

namespace Upse

open ErrorState Relation Kernel

variable {L : Act → Prop} {k : Kernel}

theorem acts_createThread {spec : ThreadSpec} {guestRange : GuestRange} (spawns : L .spawn) :
    Leads (Acts L) k (createThread spec guestRange) := by
  unfold createThread
  refine leads_check_bind fun _ _ => leads_check_bind fun _ _ => leads_failIf_bind fun _ => ?_
  refine leads_check_bind fun _ _ => leads_check_bind fun _ _ => leads_orFail_bind fun _ _ => ?_
  refine leads_get_bind (leads_check_bind ?_)
  rintro ⟨id, threads⟩ inserted
  exact (Does.spawn inserted rfl).acts spawns

variable {id : ℕ} {context : CpuContext}

theorem acts_startThreadWithContext {arguments : Word × Word × Word × Word}
    {returnAddress : Word} (starts : L (.start id)) :
    Leads (Acts L) k (startThreadWithContext id arguments returnAddress) := by
  unfold startThreadWithContext
  refine leads_get_bind (leads_orFail_bind fun thread found => leads_failIf_bind fun dormant => ?_)
  by_cases full : k.OrdersExhausted
  · refine leads_of_run (r := .error (.kernel .noMemory) k) ?_ .refl
    rw [run_bind, takeReadyOrder_of_full full]
  · have start : k.Does (.start id) (k.start id arguments returnAddress) :=
      .start found (not_not.mp dormant) full
    refine leads_of_run (r := .ok () (k.start id arguments returnAddress)) ?_ (start.acts starts)
    rw [run_bind, takeReadyOrder_of_fit (not_le.mp full)]
    rfl

theorem acts_deleteThread (reaps : L .reap) : Leads (Acts L) k (deleteThread id) := by
  unfold deleteThread
  refine leads_get_bind (leads_orFail_bind fun thread found => leads_failIf_bind fun dormant => ?_)
  refine leads_modify_bind ((Does.reap found (not_not.mp dormant)).acts reaps) ?_
  exact leads_okOr _ _

theorem acts_exitCurrent (sound : k.RunningSound) (exits : ∀ id, L (.exit id))
    (dispatches : L .dispatch) : Leads (Acts L) k (exitCurrent context) := by
  unfold exitCurrent
  refine leads_get_bind (leads_orFail_bind fun id running => ?_)
  obtain ⟨thread, found, -⟩ := sound.found running
  have exit : k.Does (.exit id) (k.retire id context) := .exit running
  refine (exit.acts (exits id)).trans ?_
  have rest : Leads (Acts L) (k.retire id context) (select context (some id) true) :=
    acts_select_of_none rfl dispatches
  unfold Leads at rest
  simp only [run_bind, run_modify, run_get, found, orFail, run_okOr_some]
  exact rest

theorem acts_exitDeleteCurrent (sound : k.RunningSound)
    (erases : ∀ id, L (.erase id)) (dispatches : L .dispatch) :
    Leads (Acts L) k (exitDeleteCurrent context) := by
  unfold exitDeleteCurrent
  refine leads_get_bind (leads_orFail_bind fun id running => ?_)
  obtain ⟨thread, found, -⟩ := sound.found running
  have erase : k.Does (.erase id) (k.expunge id) := .erase running
  refine (erase.acts (erases id)).trans ?_
  have rest : Leads (Acts L) (k.expunge id) (select context (some id) true) :=
    acts_select_of_none rfl dispatches
  unfold Leads at rest
  simp only [run_bind, run_modify, run_get, FixedTable.remove_fst, found,
    orFail, run_okOr_some]
  exact rest

theorem acts_adjust {f : Thread → Thread}
    (keeps : ∀ thread, (f thread).state = thread.state ∧ (f thread).readyOrder = thread.readyOrder ∧
      (f thread).context = thread.context) (adjusts : L .adjust) : Acts L k (k.modifyThread id f) :=
  (Does.adjust keeps).acts adjusts

theorem acts_changePriority {id priority : ℕ} (adjusts : L .adjust) :
    Leads (Acts L) k (changePriority id priority) := by
  unfold changePriority
  refine leads_get_bind (leads_orFail_bind fun thread found => ?_)
  dsimp only
  split
  · refine leads_check_bind fun _ _ => leads_modify_bind ?_ (leads_pure _)
    exact acts_adjust (fun _ => ⟨rfl, rfl, rfl⟩) adjusts
  · exact leads_pure _

theorem acts_saveCurrent (saves : L .save) :
    Leads (Acts L) k (saveCurrent context) := by
  unfold saveCurrent
  refine leads_get_bind ?_
  cases running : k.currentThread with
  | none => exact leads_pure _
  | some id =>
    refine leads_get_bind (leads_orFail_bind fun thread found => leads_failIf_bind fun _ => ?_)
    exact leads_modify ((Does.save running).acts saves)

theorem acts_reschedule {reason : RescheduleReason} (sound : k.RunningSound)
    (saves : L .save) (preempts : L .preempt) (loses : L .lose) (dispatches : L .dispatch) :
    Leads (Acts L) k (reschedule context reason) := by
  unfold reschedule
  have save : Leads (Acts L) k (saveCurrent context) := acts_saveCurrent saves
  refine leads_get_bind (save.bind fun _ k' saved => ?_)
  unfold Leads at save
  rw [saved] at save
  exact acts_select (save.runningSound sound) preempts loses dispatches

theorem acts_sleepCurrent (sound : k.RunningSound) (adjusts : L .adjust)
    (blocks : ∀ id, L (.block id .sleep)) (dispatches : L .dispatch) :
    Leads (Acts L) k (sleepCurrent context) := by
  unfold sleepCurrent
  refine leads_get_bind (leads_orFail_bind fun id running => ?_)
  refine leads_get_bind (leads_orFail_bind fun thread found => ?_)
  split
  · refine leads_modify_bind ?_ (leads_pure _)
    exact acts_adjust (fun _ => ⟨rfl, rfl, rfl⟩) adjusts
  · exact acts_blockCurrent sound blocks dispatches

theorem acts_wakeupThread (wakes : L (.wake id .sleep 0 none)) (disarms : L (.disarm id))
    (adjusts : L .adjust) : Leads (Acts L) k (wakeupThread id) := by
  unfold wakeupThread
  refine leads_get_bind (leads_orFail_bind fun thread found => ?_)
  split
  next sleeping =>
    have waiting : k.waitReasonOf id = some .sleep :=
      waitReasonOf_eq_some.mpr ⟨thread, found, sleeping⟩
    exact (acts_completeWait waiting wakes disarms).returning
  next =>
    refine leads_orFail_bind fun count _ => leads_modify_bind ?_ (leads_pure _)
    exact acts_adjust (fun _ => ⟨rfl, rfl, rfl⟩) adjusts

theorem acts_delayCurrent {ticks : Ticks} (sound : k.RunningSound)
    (blocks : ∀ id, L (.block id .delay)) (saves : L .save) (preempts : L .preempt)
    (loses : L .lose) (dispatches : L .dispatch) :
    Leads (Acts L) k (delayCurrent ticks context) := by
  unfold delayCurrent
  split
  · exact acts_reschedule sound saves preempts loses dispatches
  · exact leads_waitDeadline_bind fun deadline => acts_blockCurrent sound blocks dispatches

theorem acts_waitVblank {phase : ℕ} (sound : k.RunningSound)
    (blocks : ∀ id reason, vblankReason phase = .ok reason → L (.block id reason))
    (dispatches : L .dispatch) : Leads (Acts L) k (waitVblank phase context) := by
  unfold waitVblank
  exact leads_check_bind fun reason phase =>
    acts_blockCurrent sound (fun id => blocks id reason phase) dispatches

theorem acts_waitModuleStart {child : ℕ} (sound : k.RunningSound)
    (blocks : ∀ id, L (.block id (.moduleStart child))) (dispatches : L .dispatch) :
    Leads (Acts L) k (waitModuleStart child context) := by
  unfold waitModuleStart
  exact leads_get_bind (leads_failIf_bind fun _ => acts_blockCurrent sound blocks dispatches)

theorem acts_completeModuleStart {requester child moduleId : ℕ} {resident : Word}
    (wakes : L (.wake requester (.moduleStart child) moduleId (some resident))) (disarms : L (.disarm requester)) :
    Leads (Acts L) k (completeModuleStart requester child moduleId resident) := by
  unfold completeModuleStart
  refine leads_get_bind (leads_failIf_bind fun waits => leads_failIf_bind fun _ => ?_)
  exact acts_completeWait (waitMatches_iff.mp (by simpa using waits)) wakes disarms

theorem acts_completeWaits {reason : WaitReason} {waiters : List ℕ} (distinct : waiters.Nodup)
    (waiting : ∀ id ∈ waiters, k.waitReasonOf id = some reason)
    (wakes : ∀ id, L (.wake id reason 0 none)) (disarms : ∀ id, L (.disarm id)) :
    Leads (Acts L) k (completeWaits waiters) := by
  induction waiters generalizing k with
  | nil => exact leads_pure _
  | cons id waiters ih =>
    obtain ⟨fresh, distinct⟩ := List.nodup_cons.mp distinct
    have head := waiting id List.mem_cons_self
    refine (acts_completeWait head (wakes id) (disarms id)).bind fun _ k' ran => ?_
    refine ih distinct fun other member => ?_
    by_cases full : k.OrdersExhausted
    · rw [completeWait_of_full full] at ran
      cases ran
    · rw [completeWait_of_waiting head (not_le.mp full)] at ran
      cases ran
      rw [waitReasonOf_wake, if_neg (by rintro rfl; exact fresh member)]
      exact waiting other (List.mem_cons_of_mem _ member)

theorem acts_notifyVblank {phase : ℕ}
    (wakes : ∀ id reason, vblankReason phase = .ok reason → L (.wake id reason 0 none))
    (disarms : ∀ id, L (.disarm id)) : Leads (Acts L) k (notifyVblank phase) := by
  unfold notifyVblank
  refine leads_check_bind fun reason phase => leads_get_bind ?_
  refine (acts_completeWaits ?_ ?_ (fun id => wakes id reason phase) disarms).bind
    fun _ _ _ => leads_pure _
  · refine List.Pairwise.imp ne_of_lt ?_
    refine List.Pairwise.filterMap _ ?_ k.threads.iter_sorted
    rintro ⟨i, thread⟩ ⟨j, thread'⟩ lt a ha b hb
    simp only [Option.ite_none_right_eq_some, Option.some.injEq] at ha hb
    rw [← ha.2, ← hb.2]
    exact lt
  · intro id member
    obtain ⟨⟨i, thread⟩, visited, same⟩ := List.mem_filterMap.mp member
    simp only [Option.ite_none_right_eq_some, Option.some.injEq] at same
    obtain ⟨waits, rfl⟩ := same
    exact waitReasonOf_eq_some.mpr
      ⟨thread, (FixedTable.mem_iter (by decide)).mp visited, waits⟩

theorem acts_releaseWait (unqueues : L (.unqueue id))
    (wakes : ∀ reason, L (.wake id reason KernelError.releaseWait.code none))
    (disarms : L (.disarm id)) : Leads (Acts L) k (releaseWait id) := by
  unfold releaseWait
  refine leads_get_bind (leads_orFail_bind fun thread found => leads_orFail_bind fun reason waits => ?_)
  have waiting : k.waitReasonOf id = some reason := by
    unfold waitReasonOf
    rw [found]
    exact waits
  refine leads_modify_bind ((Does.unqueue waiting).acts unqueues) ?_
  refine acts_completeWait ?_ (wakes reason) disarms
  rw [waitReasonOf_removeWaiter]
  exact waiting

/-!
## The acts of alarms, time and callbacks
-/

theorem acts_setAlarm {delay : Ticks} {entry : ℕ} {argument : Word} {guestRange : GuestRange}
    (sets : L .setAlarm) : Leads (Acts L) k (setAlarm delay entry argument guestRange) := by
  unfold setAlarm
  refine leads_check_bind fun _ _ => leads_get_bind ?_
  split
  · exact leads_throw _
  next deadline _ =>
    refine leads_orFail_bind fun id free => ?_
    split
    · exact leads_throw _
    next scheduler scheduled =>
      obtain ⟨vacant, low, high, -⟩ := FixedTable.nextId_eq_some free
      obtain ⟨alarms, inserted⟩ := FixedTable.insertAt_of_free ⟨entry, argument⟩ vacant low high
      have set : Acts L k { k with scheduler := scheduler, alarms := alarms } :=
        (Does.setAlarm scheduled inserted).acts sets
      refine leads_of_run (r := .ok id { k with scheduler := scheduler, alarms := alarms }) ?_ set
      simp [run_bind, inserted, check]

theorem acts_cancelAlarm (cancels : L (.cancelAlarm id)) :
    Leads (Acts L) k (cancelAlarm id) := by
  cases found : k.alarms.get id with
  | none =>
    refine leads_of_run (r := .error (.kernel .illegalObject) k) ?_ .refl
    simp [cancelAlarm, run_bind, orFail, found, FixedTable.remove_snd_of_none found]
  | some alarm =>
    refine leads_of_run (r := .ok alarm.entry _) ?_ (Does.cancelAlarm.acts cancels)
    simp [cancelAlarm, run_bind, orFail, found]

theorem acts_expireWait (unqueues : L (.unqueue id))
    (wakes : ∀ reason, L (.wake id reason reason.expiry none)) (disarms : L (.disarm id)) :
    Leads (Acts L) k (expireWait id) := by
  unfold expireWait
  refine leads_get_bind ?_
  split
  · exact leads_pure _
  next reason waiting =>
    refine leads_modify_bind ((Does.unqueue waiting).acts unqueues) ?_
    refine (acts_completeWait ?_ (wakes reason) disarms).returning
    rw [waitReasonOf_removeWaiter]
    exact waiting

theorem fireAlarm_run (k : Kernel) (id : ℕ) : (fireAlarm id).run k =
    .ok ((k.alarms.get id).elim [] fun alarm => [.alarm id (alarm.callback id)])
      { k with alarms := (k.alarms.remove id).2 } := by
  cases found : k.alarms.get id <;> simp [fireAlarm, run_bind, found]

theorem acts_dispatchDue {due : DueEvent} {scheduler : Scheduler}
    (popped : k.scheduler.popDue k.now = (some due, scheduler)) (pops : L .pop) (fires : L .fire)
    (unqueues : ∀ id, L (.unqueue id)) (wakes : ∀ id reason, L (.wake id reason reason.expiry none))
    (disarms : ∀ id, L (.disarm id)) :
    Acts L k (leaves ((dispatchDue due).run { k with scheduler := scheduler })) := by
  unfold dispatchDue
  by_cases alarm : due.id < alarmEventBase
  · refine ((Does.pop popped alarm).acts pops).trans ?_
    change Leads (Acts L) _ _
    split
    · exact acts_expireWait (unqueues _) (wakes _) (disarms _)
    · rw [if_neg (not_le.mpr alarm)]
      exact leads_pure _
  · obtain ⟨id, deadline⟩ := due
    obtain ⟨i, rfl⟩ := Nat.exists_eq_add_of_le (not_lt.mp alarm)
    rw [if_neg (fun h => alarm h.2), if_pos (not_lt.mp alarm), fireAlarm_run,
      Nat.add_sub_cancel_left]
    exact (Does.fire popped).acts fires

theorem Kernel.Does.now_eq {k' : Kernel} {act : Act} (h : Does k act k') (timeless : act ≠ .clock) :
    k'.now = k.now := by
  cases h with
  | clock _ => exact absurd rfl timeless
  | create core _ _ => exact (congrArg Kernel.now core :)
  | touch core _ _ => exact (congrArg Kernel.now core :)
  | unqueue _ => exact (congrArg Kernel.now (core_removeWaiter k _ _) :)
  | _ => rfl

theorem Kernel.Acts.now_eq {k' : Kernel} (h : Acts L k k') (timeless : ∀ act, L act → act ≠ .clock) :
    k'.now = k.now :=
  h.preserves (I := fun a => a.now = k.now) rfl fun _ _ act allowed does same =>
    (does.now_eq (timeless act allowed)).trans same

theorem acts_advanceLoop {rounds : ℕ} (pops : L .pop) (fires : L .fire)
    (unqueues : ∀ id, L (.unqueue id)) (wakes : ∀ id reason, L (.wake id reason reason.expiry none))
    (disarms : ∀ id, L (.disarm id)) : Leads (Acts L) k (advanceLoop k.now rounds) := by
  induction rounds generalizing k with
  | zero => exact leads_pure _
  | succ rounds ih =>
    cases popped : k.scheduler.popDue k.now with
    | mk due scheduler =>
    have ran : (popDue k.now).run k = .ok due { k with scheduler := scheduler } := by
      simp [popDue, run_bind, popped]
    unfold Leads
    rw [advanceLoop, run_bind, ran]
    cases due with
    | none =>
      cases Scheduler.popDue_none popped
      exact .refl
    | some due =>
      have round : Acts L k (leaves ((dispatchDue due).run { k with scheduler := scheduler })) :=
        acts_dispatchDue popped pops fires unqueues wakes disarms
      have timeless : Acts (· ≠ .clock) k
          (leaves ((dispatchDue due).run { k with scheduler := scheduler })) :=
        acts_dispatchDue popped (by simp) (by simp) (by simp) (by simp) (by simp)
      dsimp only
      rw [run_bind]
      cases run : (dispatchDue due).run { k with scheduler := scheduler } with
      | error e k' =>
        rw [run] at round
        exact round
      | ok first k' =>
        rw [run] at round timeless
        refine round.trans ?_
        have now : k'.now = k.now := timeless.now_eq fun _ h => h
        rw [← now]
        exact ih.returning

theorem acts_advanceTo {now : Deadline} (clocks : L .clock) (pops : L .pop) (fires : L .fire)
    (unqueues : ∀ id, L (.unqueue id)) (wakes : ∀ id reason, L (.wake id reason reason.expiry none))
    (disarms : ∀ id, L (.disarm id)) : Leads (Acts L) k (advanceTo now) := by
  unfold advanceTo
  refine leads_get_bind (leads_failIf_bind fun later => ?_)
  refine leads_modify_bind ((Does.clock (not_lt.mp later)).acts clocks) (leads_get_bind ?_)
  exact acts_advanceLoop pops fires unqueues wakes disarms

theorem acts_enterCallback {callback : CallbackRequest}
    (callbacks : L .callbacks) : Leads (Acts L) k (enterCallback context callback) := by
  unfold enterCallback
  refine leads_get_bind (leads_failIf_bind fun _ => leads_modify_bind ?_ (leads_pure _))
  exact Does.callbacks.acts callbacks

theorem acts_returnFromCallback (callbacks : L .callbacks) :
    Leads (Acts L) k returnFromCallback := by
  unfold returnFromCallback
  refine leads_get_bind (leads_orFail_bind fun context _ => leads_modify_bind ?_ (leads_pure _))
  exact Does.callbacks.acts callbacks

end Upse
