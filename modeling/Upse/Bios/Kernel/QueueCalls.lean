import Upse.Bios.Kernel.Queues
import Upse.Bios.Kernel.Wakeups

/-!
# What each kind of call does to the queues

Releases, timeouts, deletions, waits and hand-overs change the queue of an object together with the
waits of its threads, so the queues stay exact as long as the ready orders last.
-/

namespace Upse

open ErrorState Kernel WaitQueues

variable {k k' : Kernel} {op : Op} {context : CpuContext}

/-! ### Calls that name no object -/

/-- An operation that names no object does plain changes only, unless it releases waits or creates. -/
theorem Op.allows_plain (unnamed : op.target = none) (keeps : op.releases = false)
    (creates : op.creates = false) {act : Act} (allowed : op.Allows act) : act.Plain := by
  cases act with
  | touch o => exact absurd (unnamed.symm.trans allowed) (by simp)
  | create o => exact absurd (creates.symm.trans allowed) (by simp)
  | unqueue id => exact absurd (keeps.symm.trans allowed) (by simp)
  | wake id reason result value =>
    rcases allowed.2 with releases | object | object
    · exact absurd (keeps.symm.trans releases) (by simp)
    · exact object
    · exact object.trans unnamed
  | block id reason => exact allowed.2.1.trans unnamed
  | _ => trivial

variable {id : ℕ} {o : Obj}

theorem keepsExact_releaseWait : Leads KeepsExact k (releaseWait id) := by
  unfold releaseWait
  apply leads_get_bind
  apply leads_orFail_bind
  intro thread found
  apply leads_orFail_bind
  intro reason waits
  apply keepsExact_release
  unfold Kernel.waitReasonOf
  rw [found]
  exact waits

theorem keepsExact_expireWait : Leads KeepsExact k (expireWait id) := by
  unfold expireWait
  apply leads_get_bind
  split
  · exact leads_pure _
  next reason waiting =>
    have released := keepsExact_release waiting
      (if reason = .delay then 0 else KernelError.releaseWait.code) none
    have both : (do
        modify fun k => k.removeWaiter id reason
        completeWait id (if reason = .delay then 0 else KernelError.releaseWait.code) none
        return [.threadReady id] : KernelM (List KernelEvent)) =
        (do
          modify fun k => k.removeWaiter id reason
          completeWait id (if reason = .delay then 0 else KernelError.releaseWait.code) none) >>=
          fun _ => pure [.threadReady id] := by rw [bind_assoc]
    rw [both]
    exact released.returning

theorem keepsExact_fireAlarm : Leads KeepsExact k (fireAlarm id) := by
  apply leads_of_run (fireAlarm_run k id)
  rw [leaves_ok]
  exact keepsExact_of_same rfl rfl rfl fun o => by cases o <;> rfl

theorem keepsExact_dispatchDue {due : DueEvent} : Leads KeepsExact k (dispatchDue due) := by
  unfold dispatchDue
  split
  · exact keepsExact_expireWait
  · split
    · exact keepsExact_fireAlarm
    · exact leads_pure _

theorem keepsExact_advanceLoop {now : Deadline} {rounds : ℕ} :
    Leads KeepsExact k (advanceLoop now rounds) := by
  induction rounds generalizing k with
  | zero => exact leads_pure _
  | succ rounds ih =>
    unfold advanceLoop
    have popped : Leads KeepsExact k (popDue now) := by
      apply leads_get_bind
      refine leads_modify_bind ?_ (leads_pure _)
      exact keepsExact_of_same rfl rfl rfl fun o => by cases o <;> rfl
    apply popped.bind
    intro due k' _
    cases due with
    | none => exact leads_pure _
    | some due =>
      apply keepsExact_dispatchDue.bind
      intro first k'' _
      exact ih.returning

theorem keepsExact_advanceTo {now : Deadline} : Leads KeepsExact k (advanceTo now) := by
  unfold advanceTo
  apply leads_get_bind
  apply leads_failIf_bind
  intro _
  apply leads_modify_bind
  · exact keepsExact_of_same rfl rfl rfl fun o => by cases o <;> rfl
  · exact leads_get_bind keepsExact_advanceLoop

/-! ### Deleted objects -/

theorem releaseDeletedWaiters_waitsFor (waiters : List ℕ) :
    (leaves ((releaseDeletedWaiters waiters).run k)).OrdersExhausted ∨
      (leaves ((releaseDeletedWaiters waiters).run k)).waitsFor =
        (fun t => if t ∈ waiters then none else k.waitsFor t) ∧
      (leaves ((releaseDeletedWaiters waiters).run k)).queue = k.queue := by
  induction waiters generalizing k with
  | nil => exact .inr ⟨by simp [releaseDeletedWaiters], rfl⟩
  | cons id waiters ih =>
    by_cases waits : k.isWaiting id = true
    · obtain ⟨reason, waiting⟩ := isWaiting_iff.mp waits
      have unfolded : (releaseDeletedWaiters (id :: waiters)).run k =
          (completeWait id KernelError.waitDeleted.code none >>= fun _ =>
            releaseDeletedWaiters waiters).run k := by
        simp [releaseDeletedWaiters, run_bind, waits]
      rw [unfolded, run_bind]
      by_cases full : k.OrdersExhausted
      · rw [completeWait_of_full full]
        exact .inl full
      · rw [completeWait_of_waiting waiting (not_le.mp full)]
        apply (ih (k := k.wake id KernelError.waitDeleted.code none)).imp_right
        rintro ⟨waits, queues⟩
        refine ⟨waits.trans ?_, queues.trans (queue_wake _ _ _ _)⟩
        funext t
        rw [waitsFor_wake, Function.update_apply]
        by_cases same : t = id <;> simp [same]
    · have unfolded : (releaseDeletedWaiters (id :: waiters)).run k =
          (releaseDeletedWaiters waiters).run k := by
        simp [releaseDeletedWaiters, run_bind, waits]
      rw [unfolded]
      apply ih.imp_right
      rintro ⟨waits', queues⟩
      refine ⟨waits'.trans ?_, queues⟩
      have idle : k.waitsFor id = none := by
        rw [Bool.not_eq_true, isWaiting, Option.isSome_eq_false_iff, Option.isNone_iff_eq_none] at waits
        rw [waitsFor, waits]
        rfl
      funext t
      by_cases same : t = id <;> simp [same, idle]

theorem deletes_exact (deletes : op.deletes = some o) (exact_ : k.ExactQueues)
    (fresh : ¬ (leaves ((step op context).run k)).OrdersExhausted) :
    (leaves ((step op context).run k)).ExactQueues := by
  rcases step_deletes (k := k) deletes context with ⟨e, failed⟩ | ⟨r, found, run⟩
  · rw [failed]
    exact exact_
  · have queue : k.queue o = r.waiters := queue_of_record found
    have same : leaves ((step op context).run k) =
        leaves ((releaseDeletedWaiters r.waiters).run (k.without o)) := by
      rw [run, run_map]
      cases (releaseDeletedWaiters r.waiters).run (k.without o) <;> rfl
    rw [same] at fresh ⊢
    obtain ⟨waits, queues⟩ :=
      (releaseDeletedWaiters_waitsFor (k := k.without o) r.waiters).resolve_left fresh
    have without : (k.without o).queue = Function.update k.queue o [] := by
      funext o'
      rw [Function.update_apply]
      split
      next same => rw [same, queue_of_dead (k.record?_without o)]
      next other =>
        have does := k.does_without o
        cases does with
        | touch _ _ others => rw [Kernel.queue, queue?, others o' other, Kernel.queue, queue?]
    have waits' : (k.without o).waitsFor = k.waitsFor := by
      cases k.does_without o with
      | touch core _ _ => exact waitsFor_of_core core
    rw [ExactQueues, waits, queues, without, waits', ← queue]
    exact exact_.drain

/-! ### Waits and polls -/

theorem Kernel.Takes.kept {reply : Reply} (h : k.Takes op reply k') :
    k'.waitsFor = k.waitsFor ∧ k'.queue = k.queue := by
  have queues (o : Obj) (r r' : ObjRecord) (found : k.record? o = some r)
      (changed : k'.record? o = some r') (same : r'.waiters = r.waiters)
      (others : ∀ o', o' ≠ o → k'.record? o' = k.record? o') : k'.queue = k.queue := by
    rw [queue_eq_update changed others, same, ← queue_of_record found, Function.update_eq_self]
  cases h with
  | @waitSemaphore id _ semaphore found _ | @pollSemaphore id semaphore found _ =>
    refine ⟨rfl, queues (.semaphore id) (.semaphore semaphore)
      (.semaphore { semaphore with count := semaphore.count - 1 }) ?_ ?_ ?_ ?_⟩
    · simp [record?, found]
    · exact (record?_modifySemaphore k id _ _).trans (by rw [if_pos rfl, found]; rfl)
    · rfl
    · exact fun o' ne => (record?_modifySemaphore k id _ o').trans (if_neg ne)
  | @waitEventFlag id pattern mode _ event found _ | @pollEventFlag id pattern mode event found _ =>
    refine ⟨rfl, queues (.eventFlag id) (.eventFlag event)
      (.eventFlag { event with bits := consumedBits event.bits pattern mode }) ?_ ?_ ?_ ?_⟩
    · simp [record?, found]
    · exact (record?_modifyEventFlag k id _ _).trans (by rw [if_pos rfl, found]; rfl)
    · rfl
    · exact fun o' ne => (record?_modifyEventFlag k id _ o').trans (if_neg ne)
  | @receiveMessage id _ messageBox _ messages found _
  | @pollMessage id messageBox _ messages found _ =>
    refine ⟨rfl, queues (.messageBox id) (.messageBox messageBox)
      (.messageBox { messageBox with messages := messages }) ?_ ?_ ?_ ?_⟩
    · simp [record?, found]
    · exact (record?_modifyMessageBox k id _ _).trans (by rw [if_pos rfl, found]; rfl)
    · rfl
    · exact fun o' ne => (record?_modifyMessageBox k id _ o').trans (if_neg ne)
  | @allocateFixed id _ pool address free found _ =>
    refine ⟨rfl, queues (.fixedPool id) (.fixedPool pool)
      (.fixedPool { pool with free := free, allocated := pool.allocated.insert address }) ?_ ?_ ?_ ?_⟩
    · simp [record?, found]
    · exact (record?_modifyFixedPool k id _ _).trans (by rw [if_pos rfl, found]; rfl)
    · rfl
    · exact fun o' ne => (record?_modifyFixedPool k id _ o').trans (if_neg ne)
  | @allocateVariable id _ _ _ _ pool pool' found _ region =>
    refine ⟨rfl, queues (.variablePool id) (.variablePool pool) (.variablePool pool') ?_ ?_ ?_ ?_⟩
    · simp [record?, found]
    · exact (record?_modifyVariablePool k id _ _).trans (by rw [if_pos rfl, found]; rfl)
    · exact (allocateRegion_smaller region).1
    · exact fun o' ne => (record?_modifyVariablePool k id _ o').trans (if_neg ne)

theorem Kernel.waitsFor_block {thread : Thread} (found : k.threads.get id = some thread)
    (context : CpuContext) (reason : WaitReason) (scheduler : Scheduler) :
    (k.block id context reason scheduler).waitsFor =
      Function.update k.waitsFor id reason.object := by
  funext other
  rw [Function.update_apply, waitsFor, waitReasonOf_eq_view, view_block found, Function.update_apply]
  split
  · rfl
  · rw [← waitReasonOf_eq_view, waitsFor]

theorem takes_exact (sound : k.RunningSound) (takes : op.takes = true) (exact_ : k.ExactQueues)
    (arms : ∀ ticks, op.timeout = some ticks → ¬ k.CannotArm ticks) (context : CpuContext) :
    (leaves ((step op context).run k)).ExactQueues := by
  obtain ⟨id, running, waits⟩ | ⟨e, failed⟩ | ⟨reply, k', returned, taken⟩ := step_takes takes context
  · obtain ⟨enqueue, reason, o, target, reasons, enqueues, run⟩ :=
      step_of_mustWait running waits context
    obtain ⟨context', scheduler, returned⟩ :=
      enqueueAndBlock_ok enqueues.1 sound running arms context reason
    rw [run, run_map, returned, leaves_ok]
    obtain ⟨core, others, r, waiters, before, after, perm⟩ := enqueues
    obtain ⟨order, view⟩ := sound id running
    obtain ⟨thread, found, -, -⟩ := view_eq_some.mp view
    have found' : (enqueue k).threads.get id = some thread :=
      (congrArg (·.threads.get id) core :).trans found
    have blockedExact : ((enqueue k).block id context reason scheduler).ExactQueues := by
      have queues : ((enqueue k).block id context reason scheduler).queue =
          Function.update k.queue o waiters := by
        rw [queue_eq_of_record fun o' => record?_block (enqueue k) id context reason scheduler o',
          queue_eq_update after others, ObjRecord.waiters_withWaiters]
      have idle : k.waitsFor id = none := by
        rw [waitsFor, sound.waitReasonOf running]
        rfl
      rw [ExactQueues, waitsFor_block found', waitsFor_of_core core, queues, reasons.object, target]
      apply exact_.join idle
      rw [queue_of_record before]
      exact perm
    have dispatched : Acts (· = .dispatch) ((enqueue k).block id context reason scheduler)
        ((enqueue k).block id context reason scheduler).dispatchBest := acts_dispatchBest rfl rfl
    have soundBlocked : ((enqueue k).block id context reason scheduler).RunningSound :=
      fun _ running => by cases running
    have both := dispatched.preserves (I := fun a => a.RunningSound ∧ a.ExactQueues)
      ⟨soundBlocked, blockedExact⟩ ?_
    · exact both.2
    · rintro a b act rfl does ⟨sound, exact_⟩
      exact ⟨does.runningSound sound, does.exactQueues sound trivial exact_⟩
  · rw [failed]
    exact exact_
  · obtain ⟨waits, queues⟩ := taken.kept
    rw [returned, leaves_ok, ExactQueues, waits, queues]
    exact exact_

/-! ### Hand-overs -/

theorem Kernel.stillWaiting_of_exact {reason : WaitReason} (exact_ : k.ExactQueues)
    (determined : ∀ other : WaitReason, other.object = some o → other = reason) {waiters : List ℕ}
    (queue : k.queue o = waiters) : k.stillWaiting reason waiters = waiters := by
  cases waiters with
  | nil => rfl
  | cons thread rest =>
    obtain ⟨other, waiting, object⟩ := waitsFor_eq_some.mp (exact_.waits_head queue)
    have matched : k.waitMatches thread reason = true :=
      waitMatches_iff.mpr (determined other object ▸ waiting)
    rw [stillWaiting, List.dropWhile_cons_of_neg (by simp [matched])]

theorem Kernel.ExactQueues.handedOver {r : ObjRecord} {thread : ℕ} {rest : List ℕ}
    (exact_ : k.ExactQueues) (head : k.queue o = thread :: rest) (changed : k'.record? o = some r)
    (waiters : r.waiters = rest) (core : k'.core = k.core)
    (others : ∀ o', o' ≠ o → k'.record? o' = k.record? o') (value : Option Word)
    (fresh : ¬ (leaves (k'.handedOver thread value)).OrdersExhausted) :
    (leaves (k'.handedOver thread value)).ExactQueues := by
  unfold Kernel.handedOver at *
  split
  next fit =>
    rw [leaves_ok, ExactQueues, waitsFor_wake, queue_wake, waitsFor_of_core core,
      queue_eq_update changed others, waiters]
    exact exact_.dequeue head
  next full =>
    rw [if_neg full, leaves_error] at fresh
    exact absurd (not_lt.mp full) fresh

theorem Kernel.ExactQueues.emptied {r : ObjRecord} (exact_ : k.ExactQueues)
    (empty : k.queue o = []) (changed : k'.record? o = some r) (waiters : r.waiters = [])
    (core : k'.core = k.core) (others : ∀ o', o' ≠ o → k'.record? o' = k.record? o') :
    k'.ExactQueues := by
  rw [ExactQueues, waitsFor_of_core core, queue_eq_update changed others, waiters, ← empty,
    Function.update_eq_self]
  exact exact_

theorem signalSemaphore_exact (exact_ : k.ExactQueues)
    (fresh : ¬ (leaves ((signalSemaphore id).run k)).OrdersExhausted) :
    (leaves ((signalSemaphore id).run k)).ExactQueues := by
  cases found : k.semaphores.get id with
  | none =>
    rw [signalSemaphore_unknown found]
    exact exact_
  | some value =>
    have queue : k.queue (.semaphore id) = value.waiters :=
      queue_of_record (r := .semaphore value) (by simp [record?, found])
    have determined (other : WaitReason) (object : other.object = some (.semaphore id)) :
        other = .semaphore id := by
      cases other <;> simp_all [WaitReason.object]
    have others (ws : List ℕ) (o' : Obj) (ne : o' ≠ .semaphore id) :
        (k.queueSemaphore id ws).record? o' = k.record? o' :=
      (record?_modifySemaphore k id _ o').trans (if_neg ne)
    rw [signalSemaphore_run found, stillWaiting_of_exact exact_ determined queue] at *
    cases waiters : value.waiters with
    | nil =>
      rw [waiters] at queue
      dsimp only
      split
      · exact exact_.emptied queue (record?_queueSemaphore found []) rfl rfl (others [])
      · refine exact_.emptied queue (record?_addCount found) rfl rfl fun o' ne => ?_
        exact ((record?_modifySemaphore _ id _ o').trans (if_neg ne)).trans (others [] o' ne)
    | cons thread rest =>
      rw [waiters] at queue fresh
      exact exact_.handedOver queue (record?_queueSemaphore found rest) rfl rfl (others rest) none fresh

theorem sendMessage_exact {message : Word} (exact_ : k.ExactQueues)
    (fresh : ¬ (leaves ((sendMessage id message).run k)).OrdersExhausted) :
    (leaves ((sendMessage id message).run k)).ExactQueues := by
  by_cases valid : message = 0 ∨ message &&& 3 ≠ 0
  · rw [sendMessage_invalid valid]
    exact exact_
  cases found : k.messageBoxes.get id with
  | none =>
    rw [sendMessage_unknown valid found]
    exact exact_
  | some value =>
    have queue : k.queue (.messageBox id) = value.waiters :=
      queue_of_record (r := .messageBox value) (by simp [record?, found])
    have determined (other : WaitReason) (object : other.object = some (.messageBox id)) :
        other = .messageBox id := by
      cases other <;> simp_all [WaitReason.object]
    have others (ws : List ℕ) (o' : Obj) (ne : o' ≠ .messageBox id) :
        (k.queueMessageBox id ws).record? o' = k.record? o' :=
      (record?_modifyMessageBox k id _ o').trans (if_neg ne)
    rw [sendMessage_run valid found, stillWaiting_of_exact exact_ determined queue] at *
    cases waiters : value.waiters with
    | nil =>
      rw [waiters] at queue
      refine exact_.emptied queue (record?_addMessage found message) rfl rfl fun o' ne => ?_
      exact ((record?_modifyMessageBox _ id _ o').trans (if_neg ne)).trans (others [] o' ne)
    | cons thread rest =>
      rw [waiters] at queue fresh
      exact exact_.handedOver queue (record?_queueMessageBox found rest) rfl rfl (others rest) _ fresh

theorem freeFixed_exact {id address : ℕ} (exact_ : k.ExactQueues)
    (fresh : ¬ (leaves ((freeFixed id address).run k)).OrdersExhausted) :
    (leaves ((freeFixed id address).run k)).ExactQueues := by
  cases found : k.fixedPools.get id with
  | none =>
    rw [freeFixed_unknown found]
    exact exact_
  | some value =>
    by_cases used : address ∈ value.allocated
    · have queue : k.queue (.fixedPool id) = value.waiters :=
        queue_of_record (r := .fixedPool value) (by simp [record?, found])
      have determined (other : WaitReason) (object : other.object = some (.fixedPool id)) :
          other = .fixedPool id := by
        cases other <;> simp_all [WaitReason.object]
      have modified (k : Kernel) (f : FixedPool → FixedPool) (o' : Obj) (ne : o' ≠ .fixedPool id) :
          (k.modifyFixedPool id f).record? o' = k.record? o' :=
        (record?_modifyFixedPool k id f o').trans (if_neg ne)
      rw [freeFixed_run found used, stillWaiting_of_exact exact_ determined queue] at *
      cases waiters : value.waiters with
      | nil =>
        rw [waiters] at queue
        refine exact_.emptied queue (record?_freeBlock found) rfl rfl fun o' ne => ?_
        exact ((modified _ _ o' ne).trans (modified _ _ o' ne)).trans (modified _ _ o' ne)
      | cons thread rest =>
        rw [waiters] at queue fresh
        refine exact_.handedOver queue (record?_assignBlock found rest) rfl rfl (fun o' ne => ?_) _ fresh
        exact ((modified _ _ o' ne).trans (modified _ _ o' ne)).trans (modified _ _ o' ne)
    · rw [freeFixed_illegal found used]
      exact exact_

/-! ### Queues served as a whole -/

theorem Kernel.Serves.splits {W : Type} {wants : Kernel → ℕ → Option W}
    {give : Kernel → W → Option (Word × Kernel)} {serve : W → KernelM (Option Word)}
    (serving : Serving o wants give serve) {queued : List ℕ} {result : Option (List ℕ × List ℕ)}
    (h : k.Serves wants give queued result k') (nodup : queued.Nodup)
    (waiting : ∀ t ∈ queued, wants k t ≠ none) :
    (result = none → k'.OrdersExhausted) ∧ ∀ r, result = some r → queued.Perm (r.1 ++ r.2) ∧
      k'.waitsFor = (fun t => if t ∈ r.1 then none else k.waitsFor t) ∧
      ∀ o', o' ≠ o → k'.record? o' = k.record? o' := by
  induction h with
  | done k =>
    refine ⟨(by rintro ⟨⟩), fun r returned => ?_⟩
    cases returned
    exact ⟨.refl _, by simp, fun _ _ => rfl⟩
  | skip idle _ ih => exact absurd idle (waiting _ List.mem_cons_self)
  | @keep k k' thread wanted queued result _ _ _ ih =>
    obtain ⟨full, splits⟩ := ih nodup.of_cons fun t member => waiting t (List.mem_cons_of_mem _ member)
    refine ⟨fun failed => full (Option.map_eq_none_iff.mp failed), fun r returned => ?_⟩
    obtain ⟨r', rfl, rfl⟩ := Option.map_eq_some_iff.mp returned
    obtain ⟨perm, waits, others⟩ := splits r' rfl
    exact ⟨(perm.cons thread).trans List.perm_middle.symm, waits, others⟩
  | @serve k given k' thread wanted value queued result wanting gave fits _ ih =>
    have touch := (serving.touches k wanted value given gave).1
    have core : given.core = k.core := by cases touch with | touch core _ _ => exact core
    have same : ∀ o', o' ≠ o → given.record? o' = k.record? o' := by
      cases touch with | touch _ _ others => exact others
    have fresh : thread ∉ queued := (List.nodup_cons.mp nodup).1
    have waiting' : ∀ t ∈ queued, wants (given.wake thread 0 (some value)) t ≠ none := by
      intro t member
      have ne : t ≠ thread := by rintro rfl; exact fresh member
      rw [serving.reads k _ t]
      · exact waiting t (List.mem_cons_of_mem _ member)
      · rw [waitReasonOf_wake, if_neg ne]
        exact (congrArg (·.waitReasonOf t) core :)
    obtain ⟨full, splits⟩ := ih nodup.of_cons waiting'
    refine ⟨fun failed => full (Option.map_eq_none_iff.mp failed), fun r returned => ?_⟩
    obtain ⟨r', rfl, rfl⟩ := Option.map_eq_some_iff.mp returned
    obtain ⟨perm, waits, others⟩ := splits r' rfl
    refine ⟨perm.cons thread, ?_, fun o' ne => ?_⟩
    · rw [waits, waitsFor_wake, waitsFor_of_core core]
      funext t
      by_cases eq : t = thread <;> simp [eq]
    · rw [others o' ne, record?_wake, same o' ne]
  | full _ _ exhausted => exact ⟨fun _ => exhausted, by rintro _ ⟨⟩⟩

theorem Kernel.Serves.exact_of_queue {W : Type} {wants : Kernel → ℕ → Option W}
    {give : Kernel → W → Option (Word × Kernel)} {serve : W → KernelM (Option Word)}
    (serving : Serving o wants give serve) {start k'' : Kernel} {r : List ℕ × List ℕ}
    (exact_ : k.ExactQueues) (h : start.Serves wants give (k.queue o) (some r) k')
    (wanting : ∀ t, k.waitsFor t = some o → wants start t ≠ none)
    (core : start.core = k.core) (others : ∀ o', o' ≠ o → start.record? o' = k.record? o')
    (core' : k''.core = k'.core) {record : ObjRecord} (changed : k''.record? o = some record)
    (waiters : record.waiters = r.2) (others' : ∀ o', o' ≠ o → k''.record? o' = k'.record? o') :
    k''.ExactQueues := by
  obtain ⟨-, splits⟩ := h.splits serving (exact_ o).1 fun t member =>
    wanting t (((exact_ o).2 t).mp member)
  obtain ⟨perm, waits, kept⟩ := splits r rfl
  have queues : k''.queue = Function.update k.queue o r.2 := by
    rw [queue_eq_update (k := k) changed, waiters]
    intro o' ne
    rw [others' o' ne, kept o' ne, others o' ne]
  rw [ExactQueues, waitsFor_of_core core', waits, waitsFor_of_core core, queues]
  exact exact_.serve perm

theorem setEventFlag_exact {bits : Word} (exact_ : k.ExactQueues)
    (fresh : ¬ (leaves ((setEventFlag id bits).run k)).OrdersExhausted) :
    (leaves ((setEventFlag id bits).run k)).ExactQueues := by
  cases found : k.eventFlags.get id with
  | none =>
    rw [setEventFlag_unknown found]
    exact exact_
  | some event =>
    have queue : k.queue (.eventFlag id) = event.waiters :=
      queue_of_record (r := .eventFlag event) (by simp [record?, found])
    obtain ⟨result, k', rounds, run⟩ := setEventFlag_run bits found
    rw [← queue] at rounds
    have wanting (t : ℕ) (waits : k.waitsFor t = some (.eventFlag id)) :
        (k.setBits id bits).eventWaitOf id t ≠ none := by
      obtain ⟨reason, waiting, object⟩ := waitsFor_eq_some.mp waits
      cases reason with
      | eventFlag id' pattern mode =>
        cases object
        have wants : (k.setBits id bits).eventWaitOf id t = some (pattern, mode) :=
          eventWaitOf_eq_some.mpr waiting
        rw [wants]
        exact Option.some_ne_none _
      | _ => cases object
    have others (k : Kernel) (f : EventFlag → EventFlag) (o' : Obj) (ne : o' ≠ .eventFlag id) :
        (k.modifyEventFlag id f).record? o' = k.record? o' :=
      (record?_modifyEventFlag k id f o').trans (if_neg ne)
    rw [run] at fresh ⊢
    cases result with
    | none =>
      have full := (rounds.splits (serving_eventFlag id) (exact_ _).1 fun t member =>
        wanting t (((exact_ _).2 t).mp member)).1 rfl
      exact absurd full fresh
    | some r =>
      have live : (k.setBits id bits).record? (.eventFlag id) ≠ none := by
        rw [setBits, record?_modifyEventFlag, if_pos rfl, found]
        exact Option.some_ne_none _
      obtain ⟨_, alive⟩ := Option.ne_none_iff_exists'.mp (rounds.live (serving_eventFlag id) live)
      obtain ⟨event', found', -⟩ := Option.map_eq_some_iff.mp alive
      have changed : (k'.queueEventFlag id r.2).record? (.eventFlag id) =
          some (.eventFlag { event' with waiters := r.2 }) := by
        rw [queueEventFlag, record?_modifyEventFlag, if_pos rfl, found']
        rfl
      exact rounds.exact_of_queue (serving_eventFlag id) exact_ wanting rfl (others k _) rfl changed rfl
        (others k' _)

theorem freeVariable_exact {id address : ℕ} (exact_ : k.ExactQueues)
    (fresh : ¬ (leaves ((freeVariable id address).run k)).OrdersExhausted) :
    (leaves ((freeVariable id address).run k)).ExactQueues := by
  cases found : k.variablePools.get id with
  | none =>
    rw [freeVariable_unknown found]
    exact exact_
  | some pool =>
    cases used : pool.allocated.lookup address with
    | none =>
      rw [freeVariable_illegal found used]
      exact exact_
    | some size =>
      have queue : k.queue (.variablePool id) = pool.waiters :=
        queue_of_record (r := .variablePool pool) (by simp [record?, found])
      obtain ⟨result, k', rounds, run⟩ := freeVariable_run found used
      rw [← queue] at rounds
      have wanting (t : ℕ) (waits : k.waitsFor t = some (.variablePool id)) :
          (k.releaseRegion id address size).poolWaitOf id t ≠ none := by
        obtain ⟨reason, waiting, object⟩ := waitsFor_eq_some.mp waits
        cases reason with
        | variablePool id' wanted =>
          cases object
          have wants : (k.releaseRegion id address size).poolWaitOf id t = some wanted :=
            poolWaitOf_eq_some.mpr waiting
          rw [wants]
          exact Option.some_ne_none _
        | _ => cases object
      have others (k : Kernel) (f : VariablePool → VariablePool) (o' : Obj)
          (ne : o' ≠ .variablePool id) : (k.modifyVariablePool id f).record? o' = k.record? o' :=
        (record?_modifyVariablePool k id f o').trans (if_neg ne)
      rw [run] at fresh ⊢
      cases result with
      | none =>
        have full := (rounds.splits (serving_variablePool id) (exact_ _).1 fun t member =>
          wanting t (((exact_ _).2 t).mp member)).1 rfl
        exact absurd full fresh
      | some r =>
        have live : (k.releaseRegion id address size).record? (.variablePool id) ≠ none := by
          rw [releaseRegion, record?_modifyVariablePool, if_pos rfl, found]
          exact Option.some_ne_none _
        obtain ⟨_, alive⟩ :=
          Option.ne_none_iff_exists'.mp (rounds.live (serving_variablePool id) live)
        obtain ⟨pool', found', -⟩ := Option.map_eq_some_iff.mp alive
        have changed : (k'.queueVariablePool id r.2).record? (.variablePool id) =
            some (.variablePool { pool' with waiters := r.2 }) := by
          rw [queueVariablePool, record?_modifyVariablePool, if_pos rfl, found']
          rfl
        exact rounds.exact_of_queue (serving_variablePool id) exact_ wanting rfl (others k _) rfl
          changed rfl (others k' _)

theorem clearEventFlag_exact {mask : Word} (exact_ : k.ExactQueues) :
    (leaves ((clearEventFlag id mask).run k)).ExactQueues := by
  cases found : k.eventFlags.get id with
  | none =>
    rw [clearEventFlag_unknown found]
    exact exact_
  | some event =>
    have cleared : (clearEventFlag id mask).run k = .ok event.bits
        (k.modifyEventFlag id fun event => { event with bits := event.bits &&& mask }) := by
      simp [clearEventFlag, run_bind, orFail, found]
    have changed : (k.modifyEventFlag id fun event =>
        { event with bits := event.bits &&& mask }).record? (.eventFlag id) =
        some (.eventFlag { event with bits := event.bits &&& mask }) := by
      rw [record?_modifyEventFlag, if_pos rfl, found]
      rfl
    have queue : k.queue (.eventFlag id) = event.waiters :=
      queue_of_record (r := .eventFlag event) (by simp [record?, found])
    rw [cleared, leaves_ok, ExactQueues, queue_eq_update changed fun o' ne =>
      (record?_modifyEventFlag k id _ o').trans (if_neg ne)]
    rw [show (ObjRecord.eventFlag { event with bits := event.bits &&& mask }).waiters =
      k.queue (.eventFlag id) from queue.symm, Function.update_eq_self]
    exact exact_

end Upse
